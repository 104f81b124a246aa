import AgentTrading.Kis.Throughput

/-! How many tokens one bucket grants, over any schedule of calls, in exact arithmetic. -/
namespace AgentTrading.Brokers
open Domain Kis Library.TokenBucket

namespace OperationBucket

/-- `is_exhausted`, with the bucket it leaves behind: looking refills too. -/
def isExhausted (b : OperationBucket) (now : Time) : Bool × OperationBucket :=
  let b := b.refill now
  (b.remaining ≤ 0, b)

end OperationBucket

inductive Poll where
  | tryConsume (tokens : Int)
  | isExhausted
  deriving DecidableEq

/-- The calls made on a bucket, with the readings of its clock. -/
abbrev Schedule := List (Time × Poll)

namespace Schedule

/-- The bucket after the calls, and what each call for tokens granted. -/
def run (b : OperationBucket) : Schedule → List (Time × Int) × OperationBucket
  | [] => ([], b)
  | (now, .tryConsume tokens) :: rest =>
    let (granted, b) := b.tryConsume tokens now
    let (grants, b) := run b rest
    ((now, if granted then tokens else 0) :: grants, b)
  | (now, .isExhausted) :: rest => run (b.isExhausted now).2 rest

/-- The clock does not go back, and calls for tokens are for some. -/
structure Valid (schedule : Schedule) (b : OperationBucket) : Prop where
  clock : (b.refillAt :: schedule.map (·.1)).Pairwise (· ≤ ·)
  tokens : ∀ now tokens, (now, Poll.tryConsume tokens) ∈ schedule → 0 < tokens

/-- The calls for tokens alone. -/
def consumes (schedule : Schedule) : Schedule := schedule.filter (·.2 ≠ .isExhausted)

/-- At every call the bucket is short of its capacity. -/
def NeverFull (b : OperationBucket) : Schedule → Prop
  | [] => True
  | (now, poll) :: rest => (b.refill now).remaining < b.capacity ∧
      NeverFull (run b [(now, poll)]).2 rest

end Schedule

def tokensGranted (grants : List (Time × Int)) : Int := (grants.map (·.2)).sum

/-- The tokens granted from `start` to `stop`, in seconds. -/
def tokensWithin (start stop : ℚ) (grants : List (Time × Int)) : Int :=
  tokensGranted (grants.filter fun g => between start stop (seconds g.1))

/-- Each token granted, with the time of its grant. -/
def unitTimes (grants : List (Time × Int)) : List ℚ :=
  grants.flatMap fun g => List.replicate g.2.toNat (seconds g.1)

namespace OperationBucket

variable {b : OperationBucket} {now later : Time}

theorem Sound.refill_eq (h : b.Sound) (hrate : 0 ≤ b.refillRate) (hnow : b.refillAt ≤ now) :
    b.refill now =
      { b with
        fractionalTokens :=
          Int.fract (b.fractionalTokens + (seconds now - seconds b.refillAt) * b.refillRate)
        remaining := min b.capacity (b.remaining +
          ⌊b.fractionalTokens + (seconds now - seconds b.refillAt) * b.refillRate⌋)
        refillAt := now } := by
  have hspan : ((now : ℚ) - b.refillAt) / 1000000 = seconds now - seconds b.refillAt := by
    simp only [seconds]
    ring
  have helapsed : 0 ≤ seconds now - seconds b.refillAt := by
    rw [← hspan]
    have hnow' : (b.refillAt : ℚ) ≤ now := by exact_mod_cast hnow
    exact div_nonneg (sub_nonneg.mpr hnow') (by norm_num)
  have haccrued : 0 ≤ b.fractionalTokens + (seconds now - seconds b.refillAt) * b.refillRate :=
    add_nonneg h.fractionalTokens_nonneg (mul_nonneg helapsed hrate)
  have hfloor := Int.floor_nonneg.mpr haccrued
  have hcapacity := h.remaining_le
  unfold OperationBucket.refill
  dsimp only
  rw [hspan, tdiv_eq_floor haccrued]
  split
  next =>
    congr 1
    split
    · rfl
    · rw [min_eq_right] <;> omega
  next hzero =>
    have hsame : seconds now - seconds b.refillAt = 0 := le_antisymm (not_lt.mp hzero) helapsed
    have hat : now = b.refillAt := by
      rw [← hspan] at hsame
      have hnum : (now : ℚ) - b.refillAt = 0 :=
        (div_eq_zero_iff.mp hsame).resolve_right (by norm_num)
      exact_mod_cast sub_eq_zero.mp hnum
    have hfraction : ⌊b.fractionalTokens⌋ = 0 :=
      Int.floor_eq_zero_iff.mpr ⟨h.fractionalTokens_nonneg, h.fractionalTokens_lt⟩
    have hfract : Int.fract b.fractionalTokens = b.fractionalTokens :=
      Int.fract_eq_self.mpr ⟨h.fractionalTokens_nonneg, h.fractionalTokens_lt⟩
    rw [hsame, zero_mul, add_zero, hfraction, hfract, add_zero, min_eq_right hcapacity, hat]

theorem Sound.refill_remaining (h : b.Sound) (hrate : 0 ≤ b.refillRate) (hnow : b.refillAt ≤ now)
    (hbelow : (b.refill now).remaining < b.capacity) :
    (b.refill now).remaining = b.remaining +
      ⌊b.fractionalTokens + (seconds now - seconds b.refillAt) * b.refillRate⌋ := by
  rw [h.refill_eq hrate hnow] at hbelow ⊢
  dsimp only at hbelow ⊢
  omega

theorem Sound.refill_credit (h : b.Sound) (hrate : 0 ≤ b.refillRate) (hnow : b.refillAt ≤ now)
    (hbelow : (b.refill now).remaining < b.capacity) :
    (b.refill now).credit = b.credit + b.refillRate * (seconds now - seconds b.refillAt) := by
  have hremaining := h.refill_remaining hrate hnow hbelow
  have hfraction : (b.refill now).fractionalTokens =
      Int.fract (b.fractionalTokens + (seconds now - seconds b.refillAt) * b.refillRate) := by
    rw [h.refill_eq hrate hnow]
  unfold credit
  rw [hremaining, hfraction, Int.fract]
  push_cast
  ring

theorem seconds_mono (h : now ≤ later) : seconds now ≤ seconds later := by
  have h' : (now : ℚ) ≤ later := by exact_mod_cast h
  exact div_le_div_of_nonneg_right h' (by norm_num)

theorem Sound.refill_mono (h : b.Sound) (hrate : 0 ≤ b.refillRate) (hnow : b.refillAt ≤ now)
    (hlater : now ≤ later) : (b.refill now).remaining ≤ (b.refill later).remaining := by
  rw [h.refill_eq hrate hnow, h.refill_eq hrate (hnow.trans hlater)]
  dsimp only
  have hmore : ⌊b.fractionalTokens + (seconds now - seconds b.refillAt) * b.refillRate⌋ ≤
      ⌊b.fractionalTokens + (seconds later - seconds b.refillAt) * b.refillRate⌋ := by
    apply Int.floor_mono
    have hspan := mul_le_mul_of_nonneg_right
      (sub_le_sub_right (seconds_mono hlater) (seconds b.refillAt)) hrate
    linarith
  omega

/-- Below the capacity, a refill on the way changes nothing: the two parts of the span add what
the whole of it adds. -/
theorem Sound.refill_refill (h : b.Sound) (hrate : 0 ≤ b.refillRate) (hnow : b.refillAt ≤ now)
    (hlater : now ≤ later) (hbelow : (b.refill later).remaining < b.capacity) :
    (b.refill now).refill later = b.refill later := by
  have hbelow' : (b.refill now).remaining < b.capacity :=
    (h.refill_mono hrate hnow hlater).trans_lt hbelow
  have hremaining := h.refill_remaining hrate hnow hbelow'
  have hsound := (h.refill hrate hnow).1
  have hat := refill_refillAt hnow
  have hfraction : (b.refill now).fractionalTokens =
      Int.fract (b.fractionalTokens + (seconds now - seconds b.refillAt) * b.refillRate) := by
    rw [h.refill_eq hrate hnow]
  have htotal : (b.refill now).fractionalTokens +
      (seconds later - seconds (b.refill now).refillAt) * (b.refill now).refillRate =
      b.fractionalTokens + (seconds later - seconds b.refillAt) * b.refillRate -
        ⌊b.fractionalTokens + (seconds now - seconds b.refillAt) * b.refillRate⌋ := by
    rw [hfraction, hat, refill_refillRate, Int.fract]
    ring
  rw [hsound.refill_eq (by rwa [refill_refillRate]) (by rwa [hat]), htotal,
    h.refill_eq hrate (hnow.trans hlater), Int.fract_sub_intCast, Int.floor_sub_intCast,
    hremaining, refill_capacity]
  simp only [h.refill_eq hrate hnow]
  congr 2
  ring

theorem tryConsume_refillAt (hnow : b.refillAt ≤ now) (tokens : Int) :
    (b.tryConsume tokens now).2.refillAt = now := by
  unfold tryConsume
  dsimp only
  split
  · exact refill_refillAt hnow
  · exact refill_refillAt hnow

end OperationBucket

/-- A bucket as a schedule finds it: created full or left by earlier calls. -/
structure OperationBucket.Ready (b : OperationBucket) : Prop extends Sound b where
  remaining_nonneg : 0 ≤ b.remaining
  refillRate_nonneg : 0 ≤ b.refillRate

variable {b : OperationBucket} {capacity : Int} {rate : ℚ} {taken : List ℚ} {now : Time}
  {tokens : Int} {poll : Poll} {rest schedule : Schedule}

theorem stocked_tryConsume (h : Stocked capacity rate taken b) (hnow : b.refillAt ≤ now)
    (hpos : 0 < tokens) :
    Stocked capacity rate
      (List.replicate (if (b.tryConsume tokens now).1 then tokens else 0).toNat (seconds now) ++
        taken) (b.tryConsume tokens now).2 := by
  have hrefill := h.refill hnow
  have hat := OperationBucket.refill_refillAt hnow
  unfold OperationBucket.tryConsume
  dsimp only
  split
  next hsome =>
    obtain ⟨k, rfl⟩ := Int.eq_ofNat_of_zero_le hpos.le
    have hsome' : (k : ℚ) ≤ (b.refill now).remaining := by exact_mod_cast hsome
    have hcredit : (k : ℚ) ≤ (b.refill now).credit :=
      hsome'.trans (le_add_of_nonneg_right hrefill.sound.fractionalTokens_nonneg)
    have htake := hrefill.rationed.takeMany h.rate_nonneg k hcredit
    rw [hat] at htake
    rw [if_pos rfl, Int.toNat_natCast]
    exact {
      capacity_eq := hrefill.capacity_eq
      rate_eq := hrefill.rate_eq
      rate_nonneg := h.rate_nonneg
      sound := { hrefill.sound with
        remaining_le := (Int.sub_le_self _ hpos.le).trans hrefill.sound.remaining_le }
      remaining_nonneg := sub_nonneg.mpr hsome
      rationed := by
        convert htake using 1
        · simp only [OperationBucket.credit]
          push_cast
          ring
        · rw [hat] }
  next => exact hrefill

namespace Schedule

theorem Valid.now_le (h : Valid ((now, poll) :: rest) b) : b.refillAt ≤ now :=
  List.rel_of_pairwise_cons h.clock (by simp)

theorem run_singleton_refillAt (hnow : b.refillAt ≤ now) :
    (run b [(now, poll)]).2.refillAt = now := by
  cases poll with
  | tryConsume tokens => exact OperationBucket.tryConsume_refillAt hnow tokens
  | isExhausted => exact OperationBucket.refill_refillAt hnow

@[simp] theorem run_singleton_capacity :
    (run b [(now, poll)]).2.capacity = b.capacity := by
  cases poll with
  | tryConsume tokens => exact b.tryConsume_capacity tokens now
  | isExhausted => exact OperationBucket.refill_capacity b now

@[simp] theorem run_singleton_refillRate :
    (run b [(now, poll)]).2.refillRate = b.refillRate := by
  cases poll with
  | tryConsume tokens => exact b.tryConsume_refillRate tokens now
  | isExhausted => exact OperationBucket.refill_refillRate b now

theorem Valid.tail (h : Valid ((now, poll) :: rest) b) :
    Valid rest (run b [(now, poll)]).2 where
  clock := by
    rw [run_singleton_refillAt h.now_le]
    exact h.clock.tail
  tokens := fun t k hmem => h.tokens t k (List.mem_cons_of_mem _ hmem)

theorem run_cons (b : OperationBucket) (now : Time) (poll : Poll) (rest : Schedule) :
    run b ((now, poll) :: rest) =
    ((run b [(now, poll)]).1 ++ (run (run b [(now, poll)]).2 rest).1,
      (run (run b [(now, poll)]).2 rest).2) := by
  cases poll with
  | tryConsume tokens => rfl
  | isExhausted => rfl

theorem stocked_singleton (h : Stocked capacity rate taken b)
    (hvalid : Valid ((now, poll) :: rest) b) :
    Stocked capacity rate (unitTimes (run b [(now, poll)]).1 ++ taken)
      (run b [(now, poll)]).2 := by
  cases poll with
  | tryConsume tokens =>
    have hpos := hvalid.tokens now tokens (by simp)
    have hstep := stocked_tryConsume h hvalid.now_le hpos
    simpa [run, unitTimes] using hstep
  | isExhausted => exact h.refill hvalid.now_le

theorem stocked_run (h : Stocked capacity rate taken b) (hvalid : Valid schedule b) :
    ∃ taken', taken'.Perm (unitTimes (run b schedule).1 ++ taken) ∧
      Stocked capacity rate taken' (run b schedule).2 := by
  induction schedule generalizing b taken with
  | nil => exact ⟨taken, List.Perm.refl _, h⟩
  | cons call rest ih =>
    obtain ⟨now, poll⟩ := call
    obtain ⟨taken', hperm, hrun⟩ := ih (stocked_singleton h hvalid) hvalid.tail
    rw [run_cons]
    refine ⟨taken', hperm.trans ?_, hrun⟩
    unfold unitTimes
    rw [List.flatMap_append, List.append_assoc]
    exact List.perm_append_comm_assoc _ _ _

theorem grants_nonneg (hvalid : Valid schedule b) : ∀ g ∈ (run b schedule).1, 0 ≤ g.2 := by
  induction schedule generalizing b with
  | nil => simp [run]
  | cons call rest ih =>
    obtain ⟨now, poll⟩ := call
    rw [run_cons]
    intro g hg
    rcases List.mem_append.mp hg with hg | hg
    · cases poll with
      | tryConsume tokens =>
        have hpos := hvalid.tokens now tokens (by simp)
        rw [show g = (now, if (b.tryConsume tokens now).1 then tokens else 0) from
          List.mem_singleton.mp hg]
        dsimp only
        split
        · exact hpos.le
        · exact le_rfl
      | isExhausted => cases hg
    · exact ih hvalid.tail g hg

end Schedule

theorem countP_unitTimes {grants : List (Time × Int)} (hnonneg : ∀ g ∈ grants, 0 ≤ g.2)
    (start stop : ℚ) :
    ((unitTimes grants).countP (between start stop) : Int) = tokensWithin start stop grants := by
  induction grants with
  | nil => rfl
  | cons g grants ih =>
    have hg := hnonneg g (by simp)
    have hrest := ih fun g' hg' => hnonneg g' (List.mem_cons_of_mem _ hg')
    unfold unitTimes tokensWithin tokensGranted at hrest ⊢
    rw [List.flatMap_cons, List.countP_append]
    push_cast
    rw [hrest, List.countP_replicate]
    by_cases hin : between start stop (seconds g.1) = true
    · simp only [hin, if_true, List.filter_cons, List.map_cons, List.sum_cons]
      rw [Int.toNat_of_nonneg hg]
    · simp [hin]

namespace OperationBucket

theorem Ready.refill (h : b.Ready) (hnow : b.refillAt ≤ now) : (b.refill now).Ready := by
  obtain ⟨hsound, hremaining, -⟩ := h.toSound.refill h.refillRate_nonneg hnow
  exact { hsound with
    remaining_nonneg := h.remaining_nonneg.trans hremaining
    refillRate_nonneg := by rw [refill_refillRate]; exact h.refillRate_nonneg }

theorem Ready.stocked (h : b.Ready) : Stocked b.capacity b.refillRate [] b :=
  Stocked.start h.refillRate_nonneg h.toSound h.remaining_nonneg

end OperationBucket

theorem ready_of_stocked (h : Stocked capacity rate taken b) : b.Ready :=
  { h.sound with
    remaining_nonneg := h.remaining_nonneg
    refillRate_nonneg := h.rate_eq.symm ▸ h.rate_nonneg }

namespace Schedule

theorem ready_singleton (h : b.Ready) (hvalid : Valid ((now, poll) :: rest) b) :
    (run b [(now, poll)]).2.Ready :=
  ready_of_stocked (stocked_singleton h.stocked hvalid)

theorem tokensGranted_append (grants grants' : List (Time × Int)) :
    tokensGranted (grants ++ grants') = tokensGranted grants + tokensGranted grants' := by
  simp [tokensGranted]

/-- One call below the capacity: what is granted and what is left is what there was and what
accrued. -/
theorem credit_singleton (poll : Poll) (h : b.Ready) (hnow : b.refillAt ≤ now)
    (hbelow : (b.refill now).remaining < b.capacity) :
    (tokensGranted (run b [(now, poll)]).1 : ℚ) + (run b [(now, poll)]).2.credit =
      b.credit + b.refillRate * (seconds now - seconds b.refillAt) := by
  rw [← h.toSound.refill_credit h.refillRate_nonneg hnow hbelow]
  cases poll with
  | isExhausted => simp [run, OperationBucket.isExhausted, tokensGranted]
  | tryConsume tokens =>
    simp only [run, OperationBucket.tryConsume]
    split
    · simp only [tokensGranted, List.map_cons, List.map_nil, List.sum_cons, List.sum_nil,
        OperationBucket.credit, if_true]
      push_cast
      ring
    · simp [tokensGranted]

/-- Never full, a bucket loses nothing: the grants of a run depend on the schedule only through
what they leave in the bucket. -/
theorem credit_run (h : b.Ready) (hvalid : Valid schedule b) (hbelow : NeverFull b schedule) :
    (tokensGranted (run b schedule).1 : ℚ) + (run b schedule).2.credit =
      b.credit + b.refillRate *
        (seconds (run b schedule).2.refillAt - seconds b.refillAt) := by
  induction schedule generalizing b with
  | nil => simp [run, tokensGranted]
  | cons call rest ih =>
    obtain ⟨now, poll⟩ := call
    have hnow := hvalid.now_le
    have hfirst := credit_singleton poll h hnow hbelow.1
    have hrest := ih (ready_singleton h hvalid) hvalid.tail hbelow.2
    rw [run_singleton_refillRate, run_singleton_refillAt hnow] at hrest
    rw [run_cons]
    dsimp only
    rw [tokensGranted_append, Int.cast_add]
    linarith

/-- A bucket that was looked at in between, up to its capacity. -/
def Caught (b looked : OperationBucket) : Prop :=
  ∀ now, looked.refillAt ≤ now → (b.refill now).remaining < b.capacity →
    looked.refill now = b.refill now

theorem Caught.refill {looked : OperationBucket} (h : Caught b looked) (hb : b.Ready)
    (hat : b.refillAt ≤ looked.refillAt) (hnow : looked.refillAt ≤ now) :
    Caught b (looked.refill now) := by
  intro later hlater hbelow
  rw [OperationBucket.refill_refillAt hnow] at hlater
  have hb' := hb.refillRate_nonneg
  have hmono := hb.toSound.refill_mono hb' (hat.trans hnow) hlater
  rw [h now hnow (hmono.trans_lt hbelow)]
  exact hb.toSound.refill_refill hb' (hat.trans hnow) hlater hbelow

/-- Looking at the bucket between the calls for tokens changes no grant, while it is short of
its capacity at each of them. -/
theorem grants_consumes {looked : OperationBucket} (h : Caught b looked) (hb : b.Ready)
    (hat : b.refillAt ≤ looked.refillAt)
    (hclock : (looked.refillAt :: schedule.map (·.1)).Pairwise (· ≤ ·))
    (htokens : ∀ now tokens, (now, Poll.tryConsume tokens) ∈ schedule → 0 < tokens)
    (hbelow : NeverFull b (consumes schedule)) :
    (run looked schedule).1 = (run b (consumes schedule)).1 := by
  induction schedule generalizing b looked with
  | nil => rfl
  | cons call rest ih =>
    obtain ⟨now, poll⟩ := call
    have hnow : looked.refillAt ≤ now := List.rel_of_pairwise_cons hclock (by simp)
    have htail := hclock.tail
    have htokens' : ∀ t k, (t, Poll.tryConsume k) ∈ rest → 0 < k :=
      fun t k hmem => htokens t k (List.mem_cons_of_mem _ hmem)
    cases poll with
    | isExhausted =>
      change (run (looked.refill now) rest).1 = (run b (consumes rest)).1
      apply ih (h.refill hb hat hnow) hb
      · rw [OperationBucket.refill_refillAt hnow]
        exact hat.trans hnow
      · rw [OperationBucket.refill_refillAt hnow]
        exact htail
      · exact htokens'
      · exact hbelow
    | tryConsume tokens =>
      have hsame : looked.tryConsume tokens now = b.tryConsume tokens now := by
        unfold OperationBucket.tryConsume
        rw [h now hnow hbelow.1]
      have hconsumes : consumes ((now, Poll.tryConsume tokens) :: rest) =
          (now, Poll.tryConsume tokens) :: consumes rest := by
        simp [consumes]
      have hvalid : Valid [(now, Poll.tryConsume tokens)] b :=
        { clock := by simpa using hat.trans hnow
          tokens := fun t k hmem => htokens t k (by
            rw [List.mem_singleton.mp hmem]
            exact List.mem_cons_self) }
      have hone : run looked [(now, Poll.tryConsume tokens)] =
          run b [(now, Poll.tryConsume tokens)] := by
        simp only [run, hsame]
      have hat' : (run b [(now, Poll.tryConsume tokens)]).2.refillAt = now :=
        run_singleton_refillAt (hat.trans hnow)
      rw [hconsumes] at hbelow ⊢
      rw [run_cons looked _ _ rest, run_cons b _ _ (consumes rest), hone]
      apply congrArg ((run b [(now, Poll.tryConsume tokens)]).1 ++ ·)
      apply ih (fun _ _ _ => rfl) (ready_singleton hb hvalid) le_rfl
      · rw [hat']
        exact htail
      · exact htokens'
      · exact hbelow.2

theorem Valid.front (hvalid : Valid schedule b) {front : Schedule} (hfront : front <+: schedule) :
    Valid front b where
  clock := hvalid.clock.sublist ((hfront.sublist.map _).cons_cons _)
  tokens := fun now tokens hmem => hvalid.tokens now tokens (hfront.subset hmem)

/-- For every bucket and every schedule of calls: what remains stays between zero and the
capacity; any span of `stop - start` seconds grants at most the capacity, one token and what
accrues in it; and short of the capacity, how often the bucket is looked at costs nothing: a
refill on the way adds up to the same bucket, looks between the calls change no grant, and the
tokens granted are those there were and those accrued, less those left. -/
theorem run_rate (b : OperationBucket) (h : b.Ready) (schedule : Schedule)
    (hvalid : schedule.Valid b) :
    (∀ front, front <+: schedule →
      0 ≤ (run b front).2.remaining ∧ (run b front).2.remaining ≤ b.capacity) ∧
    (∀ start stop : ℚ, start ≤ stop →
      (tokensWithin start stop (run b schedule).1 : ℚ) ≤
        b.capacity + 1 + b.refillRate * (stop - start)) ∧
    (∀ now later, b.refillAt ≤ now → now ≤ later → (b.refill later).remaining < b.capacity →
      (b.refill now).refill later = b.refill later) ∧
    (NeverFull b schedule.consumes → (run b schedule).1 = (run b schedule.consumes).1) ∧
    (NeverFull b schedule →
      (tokensGranted (run b schedule).1 : ℚ) + (run b schedule).2.credit =
        b.credit + b.refillRate *
          (seconds (run b schedule).2.refillAt - seconds b.refillAt)) := by
  refine ⟨fun front hfront => ?_, fun start stop hspan => ?_, ?_, fun hbelow => ?_,
    credit_run h hvalid⟩
  · obtain ⟨taken, -, hrun⟩ := stocked_run h.stocked (hvalid.front hfront)
    refine ⟨hrun.remaining_nonneg, ?_⟩
    rw [← hrun.capacity_eq]
    exact hrun.sound.remaining_le
  · obtain ⟨taken, hperm, hrun⟩ := stocked_run h.stocked hvalid
    have hlaw := hrun.rationed.between_le start stop hspan
    rw [hperm.countP_eq, List.append_nil] at hlaw
    rw [← countP_unitTimes (grants_nonneg hvalid)]
    exact_mod_cast hlaw
  · intro now later hnow hlater hfull
    exact h.toSound.refill_refill h.refillRate_nonneg hnow hlater hfull
  · exact grants_consumes (fun _ _ _ => rfl) h le_rfl hvalid.clock hvalid.tokens hbelow

end Schedule

end AgentTrading.Brokers

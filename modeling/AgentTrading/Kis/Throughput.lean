import AgentTrading.Kis.TokenBalance
import AgentTrading.Library.TokenBucket

/-! How fast requests leave through one global bucket. A call that fails gives its token back,
so that the bucket bounds the calls that return, not the requests sent. -/
namespace AgentTrading.Kis
open Domain Brokers Library TokenBucket

/-! The global bucket, with the tokens taken from it for good. -/

/-- `taken` are the times, in seconds, of the tokens taken and not given back. -/
structure Stocked (capacity : Int) (rate : ℚ) (taken : List ℚ) (g : OperationBucket) : Prop where
  capacity_eq : g.capacity = capacity
  rate_eq : g.refillRate = rate
  rate_nonneg : 0 ≤ rate
  sound : g.Sound
  remaining_nonneg : 0 ≤ g.remaining
  rationed : Rationed rate (capacity + 1) g.credit (seconds g.refillAt) taken

namespace Stocked

variable {capacity : Int} {rate : ℚ} {taken : List ℚ} {t : ℚ} {g : OperationBucket}

theorem start (hrate : 0 ≤ g.refillRate) (hsound : g.Sound) (hremaining : 0 ≤ g.remaining) :
    Stocked g.capacity g.refillRate [] g where
  capacity_eq := rfl
  rate_eq := rfl
  rate_nonneg := hrate
  sound := hsound
  remaining_nonneg := hremaining
  rationed := Rationed.start hrate (hsound.credit_nonneg hremaining) hsound.credit_le

theorem forget (h : Stocked capacity rate (t :: taken) g) : Stocked capacity rate taken g :=
  { h with rationed := h.rationed.forget }

theorem refill (h : Stocked capacity rate taken g) {now : Time} (hnow : g.refillAt ≤ now) :
    Stocked capacity rate taken (g.refill now) := by
  have hrate : 0 ≤ g.refillRate := h.rate_eq.symm ▸ h.rate_nonneg
  obtain ⟨hsound, hremaining, hcredit⟩ := h.sound.refill hrate hnow
  have hnonneg := h.remaining_nonneg.trans hremaining
  have hlater : seconds g.refillAt ≤ seconds now := by
    have hnow' : (g.refillAt : ℚ) ≤ now := by exact_mod_cast hnow
    exact div_le_div_of_nonneg_right hnow' (by norm_num)
  constructor
  · rw [OperationBucket.refill_capacity, h.capacity_eq]
  · rw [OperationBucket.refill_refillRate, h.rate_eq]
  · exact h.rate_nonneg
  · exact hsound
  · exact hnonneg
  · rw [OperationBucket.refill_refillAt hnow]
    apply h.rationed.accrue h.rate_nonneg hlater (hsound.credit_nonneg hnonneg)
    · rw [h.rate_eq] at hcredit
      have hspan : seconds now - seconds g.refillAt = (now - g.refillAt) / 1000000 := by
        simp only [seconds]
        ring
      rw [hspan]
      exact hcredit
    · have hle := hsound.credit_le
      rw [OperationBucket.refill_capacity, h.capacity_eq] at hle
      exact hle

theorem tryConsume (h : Stocked capacity rate taken g) {now : Time} (hnow : g.refillAt ≤ now) :
    Stocked capacity rate
        (if (g.tryConsume 1 now).1 then seconds now :: taken else taken)
        (g.tryConsume 1 now).2 ∧
      (g.tryConsume 1 now).2.refillAt = now := by
  have hrefill := h.refill hnow
  have hat := OperationBucket.refill_refillAt hnow
  unfold OperationBucket.tryConsume
  dsimp only
  split
  · next hsome =>
    refine ⟨?_, hat⟩
    have hsome' : (1 : ℚ) ≤ (g.refill now).remaining := by exact_mod_cast hsome
    have hcredit : 1 ≤ (g.refill now).credit :=
      hsome'.trans (le_add_of_nonneg_right hrefill.sound.fractionalTokens_nonneg)
    have htake := hrefill.rationed.take h.rate_nonneg hcredit
    rw [hat] at htake
    simp only [if_true]
    exact {
      capacity_eq := hrefill.capacity_eq
      rate_eq := hrefill.rate_eq
      rate_nonneg := h.rate_nonneg
      sound := { hrefill.sound with
        remaining_le := (Int.sub_le_self _ (by norm_num)).trans hrefill.sound.remaining_le }
      remaining_nonneg := sub_nonneg.mpr hsome
      rationed := by
        convert htake using 1
        · simp only [OperationBucket.credit]
          push_cast
          ring
        · rw [hat] }
  · exact ⟨by simpa using hrefill, hat⟩

theorem release (h : Stocked capacity rate (t :: taken) g) {now : Time}
    (hnow : g.refillAt ≤ now) :
    Stocked capacity rate taken (g.release 1 now) ∧ (g.release 1 now).refillAt = now := by
  have hrefill := h.refill hnow
  have hat := OperationBucket.refill_refillAt hnow
  have hroom := hrefill.sound.remaining_le
  have hnonneg : 0 ≤ (g.release 1 now).remaining :=
    le_min (hrefill.remaining_nonneg.trans hroom) (by
      have := hrefill.remaining_nonneg
      omega)
  have hsound : (g.release 1 now).Sound :=
    { hrefill.sound with remaining_le := min_le_left _ _ }
  have hback : (g.release 1 now).credit ≤ (g.refill now).credit + 1 := by
    have hle : (g.release 1 now).remaining ≤ (g.refill now).remaining + 1 := min_le_right _ _
    have hle' : ((g.release 1 now).remaining : ℚ) ≤ (g.refill now).remaining + 1 := by
      exact_mod_cast hle
    have hfraction : (g.release 1 now).fractionalTokens = (g.refill now).fractionalTokens := rfl
    simp only [OperationBucket.credit, hfraction]
    linarith
  refine ⟨?_, hat⟩
  exact {
    capacity_eq := hrefill.capacity_eq
    rate_eq := hrefill.rate_eq
    rate_nonneg := h.rate_nonneg
    sound := hsound
    remaining_nonneg := hnonneg
    rationed := by
      have hle := hsound.credit_le
      have hcapacity : (g.release 1 now).capacity = capacity := hrefill.capacity_eq
      rw [hcapacity] at hle
      exact hrefill.rationed.refund h.rate_nonneg (hsound.credit_nonneg hnonneg) hback hle }

end Stocked

/-- The manager's global bucket at a time not before its last refill. -/
def Stock (capacity : Int) (rate : ℚ) (taken : List ℚ) (now : Time) (m : RateLimitBudgetManager) :
    Prop :=
  ∃ g, m.globalRest = some g ∧ Stocked capacity rate taken g ∧ g.refillAt ≤ now

section Stock

variable {capacity : Int} {rate : ℚ} {taken : List ℚ} {t : ℚ} {now later : Time}
  {m m' : RateLimitBudgetManager}

theorem Stock.forget (h : Stock capacity rate (t :: taken) now m) :
    Stock capacity rate taken now m := by
  obtain ⟨g, hg, hstocked, hpast⟩ := h
  exact ⟨g, hg, hstocked.forget, hpast⟩

theorem Stock.keep (h : Stock capacity rate taken now m) (hsame : m'.globalRest = m.globalRest)
    (hlater : now ≤ later) : Stock capacity rate taken later m' := by
  obtain ⟨g, hg, hstocked, hpast⟩ := h
  exact ⟨g, hsame.trans hg, hstocked, hpast.trans hlater⟩

theorem Stock.releaseGlobalRest (h : Stock capacity rate (t :: taken) now m)
    (hlater : now ≤ later) : Stock capacity rate taken later
      { m with globalRest := m.globalRest.map fun g : OperationBucket => g.release 1 later } := by
  obtain ⟨g, hg, hstocked, hpast⟩ := h
  obtain ⟨hreleased, hat⟩ := hstocked.release (hpast.trans hlater)
  exact ⟨g.release 1 later, by simp [hg], hreleased, le_of_eq hat⟩

theorem Stock.pollGlobal (h : Stock capacity rate taken now m) (hlater : now ≤ later) :
    Stock capacity rate
      (if (m.pollGlobal 1 later).1 then seconds later :: taken else taken) later
      (m.pollGlobal 1 later).2 := by
  obtain ⟨g, hg, hstocked, hpast⟩ := h
  obtain ⟨htried, hat⟩ := hstocked.tryConsume (hpast.trans hlater)
  simp only [RateLimitBudgetManager.pollGlobal, hg]
  exact ⟨_, rfl, htried, le_of_eq hat⟩

theorem refillHeldSellReserve_globalRest (m : RateLimitBudgetManager) (refilled measured : Time) :
    (m.refillHeldSellReserve refilled measured).globalRest = m.globalRest := by
  unfold RateLimitBudgetManager.refillHeldSellReserve
  dsimp only
  split
  · rfl
  · split
    · split <;> rfl
    · rfl

theorem tryConsumeHeldSellReserve_globalRest (m : RateLimitBudgetManager) (tokens : Int) :
    (m.tryConsumeHeldSellReserve tokens).2.globalRest = m.globalRest := by
  unfold RateLimitBudgetManager.tryConsumeHeldSellReserve
  split
  · rfl
  · split <;> rfl

theorem Stock.consumeBucket (h : Stock capacity rate (t :: taken) now m) (type : BucketType)
    (consumed : Time) {released : Time} (hlater : now ≤ released) :
    match m.consumeBucket type 1 true consumed released with
    | (.ok _, m') => Stock capacity rate (t :: taken) released m'
    | (.error _, m') => Stock capacity rate taken released m' := by
  unfold RateLimitBudgetManager.consumeBucket
  cases m.bucket type with
  | error e => exact (h.keep rfl hlater).forget
  | ok b =>
    dsimp only
    cases b.tryConsume 1 consumed with
    | mk r b' =>
      have hset : Stock capacity rate (t :: taken) now (m.setBucket type b') :=
        h.keep (by simp) (le_refl now)
      cases r with
      | true => exact hset.keep rfl hlater
      | false => exact hset.releaseGlobalRest hlater

theorem Stock.consumeOrRaise (h : Stock capacity rate taken now m) (type : BucketType)
    (held : Bool) {clock : Nat → Time} (hclock : ∀ k, clock k ≤ clock (k + 1))
    (hnow : now ≤ clock 0) :
    match m.consumeOrRaise type 1 false held clock with
    | (.ok _, m') => Stock capacity rate (seconds (clock 0) :: taken) (clock 4) m'
    | (.error _, m') => Stock capacity rate taken (clock 4) m' := by
  have hlater : clock 0 ≤ clock 4 :=
    (hclock 0).trans ((hclock 1).trans ((hclock 2).trans (hclock 3)))
  have hpoll := h.pollGlobal hnow
  obtain ⟨g, hg, _⟩ := h
  simp only [RateLimitBudgetManager.pollGlobal, hg] at hpoll
  simp only [RateLimitBudgetManager.consumeOrRaise, RateLimitBudgetManager.consumeGlobal, hg,
    Bool.false_eq_true, if_false]
  cases htry : g.tryConsume 1 (clock 0) with
  | mk r g' =>
    rw [htry] at hpoll
    cases r with
    | false => exact hpoll.keep rfl hlater
    | true =>
      dsimp only at hpoll ⊢
      rw [if_pos rfl] at hpoll
      set m₁ : RateLimitBudgetManager := { m with globalRest := some g' }
      by_cases hlane : (held && decide (type = .order)) = true
      · have htaken := tryConsumeHeldSellReserve_globalRest
          (m₁.refillHeldSellReserve (clock 1) (clock 2)) 1
        rw [refillHeldSellReserve_globalRest] at htaken
        rw [if_pos hlane]
        cases hreserve : (m₁.refillHeldSellReserve (clock 1)
            (clock 2)).tryConsumeHeldSellReserve 1 with
        | mk r m₂ =>
          rw [hreserve] at htaken
          have hkept : Stock capacity rate (seconds (clock 0) :: taken) (clock 0) m₂ :=
            hpoll.keep htaken (le_refl _)
          cases r with
          | true => exact hkept.keep rfl hlater
          | false => exact hkept.consumeBucket type _ hlater
      · rw [if_neg hlane]
        exact hpoll.consumeBucket type _ hlater

theorem Stock.releaseTokens (h : Stock capacity rate (t :: taken) now m) (type : BucketType)
    (skip : Bool) {clock : Nat → Time} (hnow : now ≤ clock 1) :
    Stock capacity rate taken (clock 1) (releaseTokens m type skip clock) := by
  have hlane : ∀ m', m'.globalRest = m.globalRest →
      Stock capacity rate taken (clock 1) (if skip then m' else
        { m' with globalRest :=
            m'.globalRest.map fun g : OperationBucket => g.release 1 (clock 1) }) := by
    intro m' hsame
    have hkept := h.keep hsame (le_refl now)
    split
    · exact (hkept.keep rfl hnow).forget
    · exact hkept.releaseGlobalRest hnow
  unfold Kis.releaseTokens
  cases m.bucket type with
  | error e => exact hlane m rfl
  | ok b => exact hlane _ (by simp)

end Stock

/-- The reading at the start of an operation. -/
def World.now (w : World) : Time := (w.interludes 0).clock 0

/-- No other task has a turn, and the clock does not go back. -/
structure World.Steady (w : World) : Prop where
  alone : w.Alone
  within : ∀ n k, (w.interludes n).clock k ≤ (w.interludes n).clock (k + 1)
  next : ∀ n k, (w.interludes n).clock k ≤ (w.interludes (n + 1)).clock 0

theorem restExec_interludes (op : RestOp) (w : World) :
    (restExec op w).2.interludes = fun n => w.interludes (n + 1) := by
  cases op <;> rfl

theorem World.Steady.restExec {w : World} (h : w.Steady) (op : RestOp) :
    (restExec op w).2.Steady := by
  constructor
  · exact h.alone.restExec op
  · rw [restExec_interludes]
    exact fun n => h.within (n + 1)
  · rw [restExec_interludes]
    exact fun n => h.next (n + 1)

theorem World.Steady.clock_le {w : World} (h : w.Steady) (op : RestOp) (k : Nat) :
    (w.interludes 0).clock k ≤ (Kis.restExec op w).2.now := by
  rw [World.now, restExec_interludes]
  exact h.next 0 k

/-! What a run shows of its tokens and its requests. -/

/-- Whether an operation was charged to the global bucket, which is there. -/
def takesToken : (op : RestOp) × RestReply op → Bool
  | ⟨.consumeOrRaise _ false _, .ok ()⟩ => true
  | ⟨.globalRestTryConsume, true⟩ => true
  | _ => false

/-- The times of the operations of a kind. -/
def timesOf (kind : (op : RestOp) × RestReply op → Bool)
    (steps : List (Time × ((op : RestOp) × RestReply op))) : List Time :=
  (steps.filter fun step => kind step.2).map Prod.fst

def stamped {α : Type} (p : RestCode α) (w : World) :
    List (Time × ((op : RestOp) × RestReply op)) :=
  p.stamped restExec World.now w

section Stamped

variable {kind : (op : RestOp) × RestReply op → Bool}

@[simp] theorem timesOf_nil : timesOf kind [] = [] := rfl

theorem timesOf_cons_of_pos {step : Time × ((op : RestOp) × RestReply op)}
    (hstep : kind step.2 = true) (steps : List (Time × ((op : RestOp) × RestReply op))) :
    timesOf kind (step :: steps) = step.1 :: timesOf kind steps := by
  simp [timesOf, hstep]

theorem timesOf_cons_of_neg {step : Time × ((op : RestOp) × RestReply op)}
    (hstep : kind step.2 = false) (steps : List (Time × ((op : RestOp) × RestReply op))) :
    timesOf kind (step :: steps) = timesOf kind steps := by
  simp [timesOf, hstep]

theorem timesOf_eq_nil {steps : List (Time × ((op : RestOp) × RestReply op))}
    (h : ∀ step ∈ steps, kind step.2 = false) : timesOf kind steps = [] := by
  simp only [timesOf, List.map_eq_nil_iff, List.filter_eq_nil_iff]
  intro step hstep
  simp [h step hstep]

theorem Unbudgeted.takesToken {α : Type} {p : RestCode α} (hp : Unbudgeted p) (w : World) :
    timesOf takesToken (stamped p w) = [] := by
  apply timesOf_eq_nil
  intro step hstep
  have hop := hp.stamped restExec World.now w step hstep
  obtain ⟨time, op, r⟩ := step
  cases op <;> first | exact absurd hop id | rfl

end Stamped

structure Rationing (capacity : Int) (rate : ℚ) (taken : List ℚ) (w : World) : Prop where
  steady : w.Steady
  stock : Stock capacity rate taken w.now w.session.budget

namespace Rationing

variable {capacity : Int} {rate : ℚ} {taken : List ℚ} {t : ℚ} {w : World}

theorem forget (h : Rationing capacity rate (t :: taken) w) : Rationing capacity rate taken w :=
  { h with stock := h.stock.forget }

/-- An operation that leaves the global bucket in `m`, looked at no later than the `k`-th
reading of the clock. -/
theorem next (h : w.Steady) {op : RestOp} {k : Nat} {m : RateLimitBudgetManager}
    (hstock : Stock capacity rate taken ((w.interludes 0).clock k) m)
    (hbudget : (restExec op w).2.session.budget = m) :
    Rationing capacity rate taken (restExec op w).2 where
  steady := h.restExec op
  stock := hstock.keep (congrArg _ hbudget) (h.clock_le op k)

theorem unbudgeted (h : Rationing capacity rate taken w) {op : RestOp} (hop : op.Unbudgeted) :
    Rationing capacity rate taken (restExec op w).2 :=
  next h.steady (k := 0) h.stock ((unbudgeted_perform hop).run_budget h.steady.alone)

theorem run (h : Rationing capacity rate taken w) {α : Type} {p : RestCode α}
    (hp : Unbudgeted p) : Rationing capacity rate taken (p.run restExec w).2 :=
  Program.Only.run_keeps restExec (I := Rationing capacity rate taken) hp
    (fun _ _ hop hv => hv.unbudgeted hop) w h

theorem globalRestTryConsume (h : Rationing capacity rate taken w) :
    Rationing capacity rate
      (if (restExec .globalRestTryConsume w).1 then seconds w.now :: taken else taken)
      (restExec .globalRestTryConsume w).2 := by
  have hpoll := h.stock.pollGlobal (le_refl w.now)
  apply next h.steady (k := 0) (m := (w.session.budget.pollGlobal 1 w.now).2)
  · rw [restExec_globalRestTryConsume h.steady.alone]
    exact hpoll
  · rw [restExec_globalRestTryConsume h.steady.alone]
    rfl

theorem consumeOrRaise (h : Rationing capacity rate taken w) (type : BucketType) (held : Bool) :
    match restExec (.consumeOrRaise type false held) w with
    | (.ok _, v) => Rationing capacity rate (seconds w.now :: taken) v
    | (.error _, v) => Rationing capacity rate taken v := by
  have hstock := h.stock.consumeOrRaise type held (h.steady.within 0) (le_refl w.now)
  have hbudget : (restExec (.consumeOrRaise type false held) w).2.session.budget =
      (w.session.budget.consumeOrRaise type 1 false held (w.interludes 0).clock).2 := by
    rw [restExec_consumeOrRaise h.steady.alone]
    rfl
  have hreply : (restExec (.consumeOrRaise type false held) w).1 =
      (w.session.budget.consumeOrRaise type 1 false held (w.interludes 0).clock).1 := by
    rw [restExec_consumeOrRaise h.steady.alone]
  cases hrun : restExec (.consumeOrRaise type false held) w with
  | mk r v =>
    rw [hrun] at hreply
    cases hconsume : w.session.budget.consumeOrRaise type 1 false held (w.interludes 0).clock with
    | mk r' m =>
      rw [hconsume] at hstock hbudget hreply
      have hnext : ∀ taken', Stock capacity rate taken' ((w.interludes 0).clock 4) m →
          Rationing capacity rate taken' v := by
        intro taken' hm
        have hexec : Rationing capacity rate taken'
            (restExec (.consumeOrRaise type false held) w).2 := next h.steady hm hbudget
        rw [hrun] at hexec
        exact hexec
      dsimp only at hreply
      subst hreply
      cases r with
      | ok _ => exact hnext _ hstock
      | error e => exact hnext _ hstock

theorem release (h : Rationing capacity rate (t :: taken) w) (type : BucketType) (skip : Bool) :
    Rationing capacity rate taken (restExec (.release type skip) w).2 := by
  apply next h.steady (k := 1)
    (m := releaseTokens w.session.budget type skip (w.interludes 0).clock)
  · exact h.stock.releaseTokens type skip (h.steady.within 0 0)
  · rw [restExec_release h.steady.alone]
    rfl

end Rationing

@[simp] theorem stamped_ret {α : Type} (a : α) (w : World) :
    stamped (.ret a : RestCode α) w = [] := rfl

@[simp] theorem stamped_raise {α : Type} (e : PyError) (w : World) :
    stamped (.raise e : RestCode α) w = [] := rfl

@[simp] theorem stamped_call {α : Type} (op : RestOp) (k : RestReply op → RestCode α) (w : World) :
    stamped (.call op k) w =
      (w.now, ⟨op, (restExec op w).1⟩) :: stamped (k (restExec op w).1) (restExec op w).2 := rfl

/-- A program that returns has taken one global token, and one that raises none for good. -/
def Paid (capacity : Int) (rate : ℚ) (taken : List ℚ) {α : Type} (p : RestCode α) (w : World) :
    Prop :=
  match p.run restExec w with
  | (.ok _, v) => ∃ t, timesOf takesToken (stamped p w) = [t] ∧
      Rationing capacity rate (seconds t :: taken) v
  | (.error _, v) => Rationing capacity rate taken v

section Paid

variable {capacity : Int} {rate : ℚ} {taken : List ℚ} {w : World} {α : Type}

theorem Paid.after {op : RestOp} (hop : op.Unbudgeted) {k : RestReply op → RestCode α}
    (h : Paid capacity rate taken (k (restExec op w).1) (restExec op w).2) :
    Paid capacity rate taken (.call op k) w := by
  have hnone : takesToken ⟨op, (restExec op w).1⟩ = false := by
    cases op <;> first | exact absurd hop id | rfl
  have hsteps : timesOf takesToken (stamped (.call op k) w) =
      timesOf takesToken (stamped (k (restExec op w).1) (restExec op w).2) :=
    timesOf_cons_of_neg hnone _
  rw [Paid, Program.run_call, hsteps]
  exact h

theorem Paid.poll (h : Rationing capacity rate taken w) {p : RestCode Unit}
    (hp : ∀ v, Rationing capacity rate taken v → Paid capacity rate taken p v) :
    Paid capacity rate taken
      ((perform .globalRestTryConsume).bind fun found => if found then .ret () else p) w := by
  have htry := h.globalRestTryConsume
  simp only [Paid, perform, Program.perform, Program.call_bind, Program.ret_bind,
    Program.run_call, stamped_call]
  cases hreply : (restExec .globalRestTryConsume w).1 <;> rw [hreply] at htry
  · rw [timesOf_cons_of_neg rfl]
    exact hp _ htry
  · rw [timesOf_cons_of_pos rfl]
    exact ⟨w.now, rfl, htry⟩

end Paid

namespace KISRestClient

variable {capacity : Int} {rate : ℚ} {taken : List ℚ} {w : World}

variable (client : KISRestClient)

end KISRestClient

end AgentTrading.Kis

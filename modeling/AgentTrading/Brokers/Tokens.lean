import Mathlib.Algebra.Group.Pi.Lemmas
import Mathlib.Tactic.Linarith
import AgentTrading.Brokers.RateLimit

/-! The tokens a budget manager holds, and what its operations do to them when no bucket
refills. -/
namespace AgentTrading.Brokers
open Domain

theorem tdiv_eq_floor {q : ℚ} (hq : 0 ≤ q) : q.num.tdiv q.den = ⌊q⌋ := by
  rw [Rat.floor_def', Int.tdiv_eq_ediv_of_nonneg (Rat.num_nonneg.mpr hq)]

namespace OperationBucket

/-- What holds of a bucket from its creation on. -/
structure Sound (b : OperationBucket) : Prop where
  remaining_le : b.remaining ≤ b.capacity
  fractionalTokens_nonneg : 0 ≤ b.fractionalTokens
  fractionalTokens_lt : b.fractionalTokens < 1

/-- `OperationBucket(...)`: a bucket starts full. -/
def new (capacity : Int) (refillRate : ℚ) (now : Time) : OperationBucket where
  capacity := capacity
  refillRate := refillRate
  remaining := capacity
  refillAt := now

theorem sound_new (capacity : Int) (refillRate : ℚ) (now : Time) :
    (new capacity refillRate now).Sound where
  remaining_le := le_refl capacity
  fractionalTokens_nonneg := le_refl 0
  fractionalTokens_lt := one_pos

@[simp] theorem refill_capacity (b : OperationBucket) (now : Time) :
    (b.refill now).capacity = b.capacity := by
  unfold refill
  dsimp only
  split <;> rfl

@[simp] theorem refill_refillRate (b : OperationBucket) (now : Time) :
    (b.refill now).refillRate = b.refillRate := by
  unfold refill
  dsimp only
  split <;> rfl

@[simp] theorem tryConsume_capacity (b : OperationBucket) (tokens : Int) (now : Time) :
    (b.tryConsume tokens now).2.capacity = b.capacity := by
  unfold tryConsume
  dsimp only
  split
  · exact refill_capacity b now
  · exact refill_capacity b now

@[simp] theorem tryConsume_refillRate (b : OperationBucket) (tokens : Int) (now : Time) :
    (b.tryConsume tokens now).2.refillRate = b.refillRate := by
  unfold tryConsume
  dsimp only
  split
  · exact refill_refillRate b now
  · exact refill_refillRate b now

theorem refill_refillAt {b : OperationBucket} {now : Time} (hnow : b.refillAt ≤ now) :
    (b.refill now).refillAt = now := by
  unfold refill
  dsimp only
  split
  · rfl
  · next helapsed =>
    have hzero : (now : ℚ) - b.refillAt ≤ 0 := by
      by_contra hpos
      exact helapsed (div_pos (not_le.mp hpos) (by norm_num))
    have hle : now ≤ b.refillAt := by exact_mod_cast sub_nonpos.mp hzero
    exact le_antisymm hnow hle

/-- The tokens a bucket holds, the one under way included. -/
def credit (b : OperationBucket) : ℚ := b.remaining + b.fractionalTokens

theorem Sound.credit_le {b : OperationBucket} (h : b.Sound) : b.credit ≤ b.capacity + 1 := by
  have hremaining : (b.remaining : ℚ) ≤ b.capacity := by exact_mod_cast h.remaining_le
  have hfraction := h.fractionalTokens_lt
  unfold credit
  linarith

theorem Sound.credit_nonneg {b : OperationBucket} (h : b.Sound) (hremaining : 0 ≤ b.remaining) :
    0 ≤ b.credit :=
  add_nonneg (by exact_mod_cast hremaining) h.fractionalTokens_nonneg

/-- What a refill does: the fraction stays one, nothing is lost from the count, and no more
than the rate allows is added. -/
theorem Sound.refill {b : OperationBucket} (h : b.Sound) (hrate : 0 ≤ b.refillRate) {now : Time}
    (hnow : b.refillAt ≤ now) :
    (b.refill now).Sound ∧ b.remaining ≤ (b.refill now).remaining ∧
      (b.refill now).credit ≤ b.credit + b.refillRate * ((now - b.refillAt) / 1000000) := by
  have hnow' : (b.refillAt : ℚ) ≤ now := by exact_mod_cast hnow
  have helapsed : 0 ≤ ((now : ℚ) - b.refillAt) / 1000000 :=
    div_nonneg (sub_nonneg.mpr hnow') (by norm_num)
  have hgain := mul_nonneg helapsed hrate
  have haccrued : 0 ≤ b.fractionalTokens + ((now : ℚ) - b.refillAt) / 1000000 * b.refillRate :=
    add_nonneg h.fractionalTokens_nonneg hgain
  have hcapacity := h.remaining_le
  unfold OperationBucket.refill
  dsimp only
  split
  · rw [tdiv_eq_floor haccrued]
    set accrued := b.fractionalTokens + ((now : ℚ) - b.refillAt) / 1000000 * b.refillRate
      with haccrued_def
    have hfloor : (0 : Int) ≤ ⌊accrued⌋ := Int.floor_nonneg.mpr haccrued
    have hfract : accrued - ⌊accrued⌋ < 1 := by
      have hlt := Int.lt_floor_add_one accrued
      linarith
    refine ⟨?_, ?_, ?_⟩
    · constructor
      · dsimp only
        split
        · exact min_le_left _ _
        · exact hcapacity
      · exact sub_nonneg.mpr (Int.floor_le accrued)
      · exact hfract
    · dsimp only
      split <;> omega
    · have hadded : (if ⌊accrued⌋ > 0 then min b.capacity (b.remaining + ⌊accrued⌋)
          else b.remaining) ≤ b.remaining + ⌊accrued⌋ := by
        split <;> omega
      have hadded' : (((if ⌊accrued⌋ > 0 then min b.capacity (b.remaining + ⌊accrued⌋)
          else b.remaining) : Int) : ℚ) ≤ b.remaining + ⌊accrued⌋ := by exact_mod_cast hadded
      simp only [credit]
      linarith
  · refine ⟨h, le_refl _, ?_⟩
    linarith

structure Idle (b : OperationBucket) : Prop extends Sound b where
  refillRate_eq : b.refillRate = 0

theorem Idle.refill_eq {b : OperationBucket} (h : b.Idle) (now : Time) :
    b.refill now = { b with refillAt := (b.refill now).refillAt } := by
  have hfloor : b.fractionalTokens.num.tdiv b.fractionalTokens.den = 0 := by
    rw [tdiv_eq_floor h.fractionalTokens_nonneg]
    exact Int.floor_eq_zero_iff.mpr ⟨h.fractionalTokens_nonneg, h.fractionalTokens_lt⟩
  unfold refill
  dsimp only
  split
  · simp [h.refillRate_eq, hfloor]
  · rfl

theorem Idle.refill {b : OperationBucket} (h : b.Idle) (now : Time) : (b.refill now).Idle := by
  rw [h.refill_eq now]
  exact { h with }

theorem Idle.refill_remaining {b : OperationBucket} (h : b.Idle) (now : Time) :
    (b.refill now).remaining = b.remaining := by
  rw [h.refill_eq now]

theorem Idle.tryConsume_some {b : OperationBucket} (h : b.Idle) (now : Time)
    (hsome : 1 ≤ b.remaining) :
    ∃ b', b.tryConsume 1 now = (true, b') ∧ b'.Idle ∧ b'.remaining = b.remaining - 1 ∧
      b'.remaining < b'.capacity := by
  have hle := (h.refill now).remaining_le
  have hremaining := h.refill_remaining now
  refine ⟨{ b.refill now with remaining := (b.refill now).remaining - 1 }, ?_, ?_, ?_, ?_⟩
  · simp [tryConsume, hremaining, hsome]
  · exact { h.refill now with remaining_le := by dsimp only; omega }
  · simp [hremaining]
  · dsimp only
    omega

theorem Idle.tryConsume_none {b : OperationBucket} (h : b.Idle) (now : Time)
    (hnone : b.remaining < 1) :
    b.tryConsume 1 now = (false, b.refill now) := by
  simp [tryConsume, h.refill_remaining now, hnone]

theorem Idle.release {b : OperationBucket} (h : b.Idle) (now : Time) :
    (b.release 1 now).Idle :=
  { h.refill now with remaining_le := min_le_left _ _ }

theorem Idle.release_remaining {b : OperationBucket} (h : b.Idle) (now : Time)
    (hroom : b.remaining < b.capacity) : (b.release 1 now).remaining = b.remaining + 1 := by
  rw [OperationBucket.release, h.refill_eq now]
  exact min_eq_right hroom

end OperationBucket

inductive TokenPool where
  | globalRest
  | operation (type : BucketType)
  | heldSellReserve
  deriving DecidableEq, Repr

/-- The settings of `RateLimitBudgetManager(...)`. -/
structure BudgetSettings where
  orderCapacity : Int := 30
  orderRefillRate : ℚ := 2
  inquiryCapacity : Int := 60
  inquiryRefillRate : ℚ := 5
  reconciliationCapacity : Int := 20
  reconciliationRefillRate : ℚ := 1
  marketDataCapacity : Int := 100
  marketDataRefillRate : ℚ := 10
  authCapacity : Int := 5
  authRefillRate : ℚ := 1 / 10
  globalRestCapacity : Int := 0
  globalRestRefillRate : ℚ := 0
  heldPositionSellReserveCapacity : Int := 1

namespace RateLimitBudgetManager

/-- The manager made under the given settings; each bucket reads the clock for itself. -/
def new (settings : BudgetSettings) (clock : Nat → Time) : RateLimitBudgetManager where
  order := .new settings.orderCapacity settings.orderRefillRate (clock 0)
  inquiry := .new settings.inquiryCapacity settings.inquiryRefillRate (clock 1)
  reconciliation :=
    .new settings.reconciliationCapacity settings.reconciliationRefillRate (clock 2)
  marketData := .new settings.marketDataCapacity settings.marketDataRefillRate (clock 3)
  auth := .new settings.authCapacity settings.authRefillRate (clock 4)
  globalRest :=
    if settings.globalRestCapacity > 0 then
      some (.new settings.globalRestCapacity settings.globalRestRefillRate (clock 5))
    else none
  heldSellReserve := max 0 settings.heldPositionSellReserveCapacity
  heldSellReserveCapacity := max 0 settings.heldPositionSellReserveCapacity

/-- The tokens in each pool; a pool that does not exist holds none. -/
def count (m : RateLimitBudgetManager) : TokenPool → Int
  | .globalRest =>
    match m.globalRest with
    | some g => g.remaining
    | none => 0
  | .operation type =>
    match m.bucket type with
    | .ok b => b.remaining
    | .error _ => 0
  | .heldSellReserve => m.heldSellReserve

/-- No bucket of the manager refills. -/
structure Idle (m : RateLimitBudgetManager) : Prop where
  bucket : ∀ type b, m.bucket type = .ok b → b.Idle
  globalRest : ∀ g, m.globalRest = some g → g.Idle

theorem bucket_setBucket {m : RateLimitBudgetManager} {type : BucketType} {b : OperationBucket}
    (hb : m.bucket type = .ok b) (b' : OperationBucket) (other : BucketType) :
    (m.setBucket type b').bucket other = if other = type then .ok b' else m.bucket other := by
  cases type <;> cases other <;> first | rfl | cases hb

@[simp] theorem setBucket_globalRest (m : RateLimitBudgetManager) (type : BucketType)
    (b : OperationBucket) : (m.setBucket type b).globalRest = m.globalRest := by
  cases type <;> rfl

@[simp] theorem setBucket_heldSellReserve (m : RateLimitBudgetManager) (type : BucketType)
    (b : OperationBucket) : (m.setBucket type b).heldSellReserve = m.heldSellReserve := by
  cases type <;> rfl

@[simp] theorem bucket_setGlobalRest (m : RateLimitBudgetManager) (g : Option OperationBucket)
    (type : BucketType) : { m with globalRest := g }.bucket type = m.bucket type := by
  cases type <;> rfl

@[simp] theorem bucket_setReserve (m : RateLimitBudgetManager) (reserve : Int)
    (type : BucketType) : { m with heldSellReserve := reserve }.bucket type = m.bucket type := by
  cases type <;> rfl

theorem count_setBucket {m : RateLimitBudgetManager} {type : BucketType} {b : OperationBucket}
    (hb : m.bucket type = .ok b) (b' : OperationBucket) :
    (m.setBucket type b').count =
      m.count + Pi.single (.operation type) (b'.remaining - b.remaining) := by
  funext pool
  cases pool with
  | globalRest => simp [count]
  | heldSellReserve => simp [count]
  | operation other =>
    by_cases hother : other = type
    · subst hother
      simp [count, bucket_setBucket hb, hb]
    · simp [count, bucket_setBucket hb, hother]

theorem count_setGlobalRest {m : RateLimitBudgetManager} {g : OperationBucket}
    (hg : m.globalRest = some g) (g' : OperationBucket) :
    { m with globalRest := some g' }.count =
      m.count + Pi.single .globalRest (g'.remaining - g.remaining) := by
  funext pool
  cases pool <;> simp [count, hg]

theorem count_setReserve (m : RateLimitBudgetManager) (reserve : Int) :
    { m with heldSellReserve := reserve }.count =
      m.count + Pi.single .heldSellReserve (reserve - m.heldSellReserve) := by
  funext pool
  cases pool <;> simp [count]

theorem Idle.setBucket {m : RateLimitBudgetManager} (h : m.Idle) {type : BucketType}
    {b : OperationBucket} (hb : m.bucket type = .ok b) {b' : OperationBucket} (hb' : b'.Idle) :
    (m.setBucket type b').Idle where
  bucket := by
    intro other found hfound
    rw [bucket_setBucket hb] at hfound
    split at hfound
    · cases hfound
      exact hb'
    · exact h.bucket other found hfound
  globalRest := by simpa using h.globalRest

theorem Idle.setGlobalRest {m : RateLimitBudgetManager} (h : m.Idle) {g : OperationBucket}
    (hg : g.Idle) : ({ m with globalRest := some g }).Idle where
  bucket := by simpa using h.bucket
  globalRest := by simpa using hg

theorem Idle.setReserve {m : RateLimitBudgetManager} (h : m.Idle) (reserve : Int) :
    ({ m with heldSellReserve := reserve }).Idle where
  bucket := by simpa using h.bucket
  globalRest := h.globalRest

theorem Idle.releaseGlobalRest {m : RateLimitBudgetManager} (h : m.Idle) (now : Time) :
    ({ m with
      globalRest := m.globalRest.map fun g : OperationBucket => g.release 1 now }).Idle where
  bucket := by simpa using h.bucket
  globalRest := by
    intro g hg
    obtain ⟨g', hg', rfl⟩ := Option.map_eq_some_iff.mp hg
    exact (h.globalRest g' hg').release now

/-- Whether a call is charged to the global bucket, when there is one. -/
def chargesGlobal (m : RateLimitBudgetManager) (skipGlobalRest : Bool) : Bool :=
  !skipGlobalRest && m.globalRest.isSome

/-- The global bucket refuses the call. -/
def shortOfGlobal (m : RateLimitBudgetManager) (skipGlobalRest : Bool) : Prop :=
  m.chargesGlobal skipGlobalRest ∧ m.count .globalRest < 1

/-- The call's lane is the held-position sell reserve, and there is a token in it. -/
def usesReserve (m : RateLimitBudgetManager) (type : BucketType) (heldPositionSell : Bool) :
    Prop :=
  heldPositionSell ∧ type = .order ∧ 0 < m.heldSellReserveCapacity ∧ 1 ≤ m.heldSellReserve

instance (m : RateLimitBudgetManager) (type : BucketType) (heldPositionSell : Bool) :
    Decidable (m.usesReserve type heldPositionSell) :=
  inferInstanceAs (Decidable (heldPositionSell ∧ type = .order ∧ 0 < m.heldSellReserveCapacity ∧
    1 ≤ m.heldSellReserve))

def globalCharge (m : RateLimitBudgetManager) (skipGlobalRest : Bool) : TokenPool → Int :=
  if m.chargesGlobal skipGlobalRest then Pi.single .globalRest 1 else 0

/-- What a call that goes through takes: one token of the global bucket and one of its
lane. -/
def charge (m : RateLimitBudgetManager) (type : BucketType)
    (skipGlobalRest heldPositionSell : Bool) : TokenPool → Int :=
  m.globalCharge skipGlobalRest +
    Pi.single (if m.usesReserve type heldPositionSell then .heldSellReserve else .operation type) 1

/-- The manager once the global bucket has let the call through. -/
structure LetThrough (m : RateLimitBudgetManager) (skipGlobalRest : Bool)
    (m' : RateLimitBudgetManager) : Prop where
  idle : m'.Idle
  count : m'.count = m.count - m.globalCharge skipGlobalRest
  reserve : m'.heldSellReserve = m.heldSellReserve
  reserveCapacity : m'.heldSellReserveCapacity = m.heldSellReserveCapacity
  isSome : m'.globalRest.isSome = m.globalRest.isSome
  room : m.chargesGlobal skipGlobalRest →
    ∀ g, m'.globalRest = some g → g.remaining < g.capacity

theorem consumeGlobal_short {m : RateLimitBudgetManager} (h : m.Idle) {skip : Bool}
    (hshort : m.shortOfGlobal skip) (now : Time) :
    ∃ g, m.globalRest = some g ∧ m.consumeGlobal 1 skip now =
      (.error (.budgetExhausted "global"), { m with globalRest := some (g.refill now) }) := by
  obtain ⟨hcharges, hcount⟩ := hshort
  simp only [chargesGlobal, Bool.and_eq_true, Bool.not_eq_true', Option.isSome_iff_exists]
    at hcharges
  obtain ⟨hskip, g, hg⟩ := hcharges
  simp only [count, hg] at hcount
  refine ⟨g, hg, ?_⟩
  simp [consumeGlobal, hg, hskip, (h.globalRest g hg).tryConsume_none now hcount]

theorem consumeGlobal_through {m : RateLimitBudgetManager} (h : m.Idle) {skip : Bool}
    (hshort : ¬m.shortOfGlobal skip) (now : Time) :
    ∃ m', m.consumeGlobal 1 skip now = (.ok (m.chargesGlobal skip), m') ∧
      m.LetThrough skip m' := by
  by_cases hcharges : m.chargesGlobal skip
  · have hsome : 1 ≤ m.count .globalRest := by
      by_contra hnone
      exact hshort ⟨hcharges, not_le.mp hnone⟩
    simp only [chargesGlobal, Bool.and_eq_true, Bool.not_eq_true', Option.isSome_iff_exists]
      at hcharges
    obtain ⟨hskip, g, hg⟩ := hcharges
    simp only [count, hg] at hsome
    obtain ⟨g', htake, hidle, hremaining, hroom⟩ := (h.globalRest g hg).tryConsume_some now hsome
    refine ⟨{ m with globalRest := some g' }, ?_, ?_⟩
    · simp [consumeGlobal, chargesGlobal, hg, hskip, htake]
    · constructor
      · exact h.setGlobalRest hidle
      · rw [count_setGlobalRest hg, hremaining, globalCharge, chargesGlobal]
        simp [hskip, hg, sub_eq_add_neg, Pi.single_neg]
      · rfl
      · rfl
      · simp [hg]
      · intro _ g'' hg''
        cases hg''
        exact hroom
  · refine ⟨m, ?_, ?_⟩
    · unfold consumeGlobal
      cases hg : m.globalRest with
      | none => simp [chargesGlobal, hg]
      | some g =>
        have hskip : skip = true := by simpa [chargesGlobal, hg] using hcharges
        simp [chargesGlobal, hskip]
    · constructor
      · exact h
      · simp [globalCharge, hcharges]
      · rfl
      · rfl
      · rfl
      · exact fun hcharges' => absurd hcharges' hcharges

theorem Idle.refillHeldSellReserve {m : RateLimitBudgetManager} (h : m.Idle)
    (refilled measured : Time) (hcapacity : 0 < m.heldSellReserveCapacity) :
    m.refillHeldSellReserve refilled measured = { m with order := m.order.refill refilled } := by
  have horder := h.bucket .order m.order rfl
  simp [RateLimitBudgetManager.refillHeldSellReserve, not_le.mpr hcapacity, horder.refillRate_eq]

theorem consumeOrRaise_short {m : RateLimitBudgetManager} (h : m.Idle) {skip : Bool}
    (hshort : m.shortOfGlobal skip) (type : BucketType) (held : Bool) (clock : Nat → Time) :
    ∃ g, m.globalRest = some g ∧ m.consumeOrRaise type 1 skip held clock =
      (.error (.budgetExhausted "global"), { m with globalRest := some (g.refill (clock 0)) }) := by
  obtain ⟨g, hg, hglobal⟩ := consumeGlobal_short h hshort (clock 0)
  exact ⟨g, hg, by simp [consumeOrRaise, hglobal]⟩

theorem consumeOrRaise_reserve {m : RateLimitBudgetManager} (h : m.Idle) {skip : Bool}
    (hshort : ¬m.shortOfGlobal skip) {type : BucketType} {held : Bool}
    (huses : m.usesReserve type held) (clock : Nat → Time) :
    ∃ m', m.consumeOrRaise type 1 skip held clock = (.ok (), m') ∧ m'.Idle ∧
      m'.count = m.count - m.charge type skip held := by
  obtain ⟨m₁, hglobal, h₁⟩ := consumeGlobal_through h hshort (clock 0)
  have hcharge : m.charge type skip held =
      m.globalCharge skip + Pi.single .heldSellReserve 1 := by
    rw [charge, if_pos huses]
  obtain ⟨rfl, rfl, hcapacity, hsome⟩ := huses
  rw [← h₁.reserveCapacity] at hcapacity
  rw [← h₁.reserve] at hsome
  have horder := h₁.idle.bucket .order m₁.order rfl
  have hset := h₁.idle.setBucket (show m₁.bucket .order = .ok m₁.order from rfl)
    (horder.refill (clock 1))
  refine ⟨{ m₁.setBucket .order (m₁.order.refill (clock 1)) with
    heldSellReserve := m₁.heldSellReserve - 1 }, ?_, hset.setReserve _, ?_⟩
  · simp [consumeOrRaise, hglobal, h₁.idle.refillHeldSellReserve _ _ hcapacity,
      tryConsumeHeldSellReserve, not_le.mpr hcapacity, hsome, setBucket]
  · rw [count_setReserve, count_setBucket (b := m₁.order) rfl, horder.refill_remaining, h₁.count,
      hcharge]
    simp [sub_eq_add_neg, Pi.single_neg, add_assoc, add_comm (-Pi.single _ _)]

theorem consumeOrRaise_bucket {m : RateLimitBudgetManager} (h : m.Idle) {skip : Bool}
    (hshort : ¬m.shortOfGlobal skip) {type : BucketType} {held : Bool}
    (huses : ¬m.usesReserve type held) (clock : Nat → Time) :
    ∃ m', m.LetThrough skip m' ∧ m.consumeOrRaise type 1 skip held clock =
      m'.consumeBucket type 1 (m.chargesGlobal skip) (clock 3) (clock 4) := by
  obtain ⟨m₁, hglobal, h₁⟩ := consumeGlobal_through h hshort (clock 0)
  by_cases hlane : held ∧ type = .order
  · obtain ⟨rfl, rfl⟩ := hlane
    by_cases hcapacity : 0 < m₁.heldSellReserveCapacity
    · have hnone : m₁.heldSellReserve < 1 := by
        by_contra hsome
        rw [h₁.reserve, not_lt] at hsome
        rw [h₁.reserveCapacity] at hcapacity
        exact huses ⟨rfl, rfl, hcapacity, hsome⟩
      have horder := h₁.idle.bucket .order m₁.order rfl
      refine ⟨m₁.setBucket .order (m₁.order.refill (clock 1)), ?_, ?_⟩
      · exact {
          idle := h₁.idle.setBucket rfl (horder.refill _)
          count := by
            rw [count_setBucket (b := m₁.order) rfl, horder.refill_remaining, h₁.count]
            simp
          reserve := h₁.reserve
          reserveCapacity := h₁.reserveCapacity
          isSome := h₁.isSome
          room := h₁.room }
      · simp [consumeOrRaise, hglobal, h₁.idle.refillHeldSellReserve _ _ hcapacity,
          tryConsumeHeldSellReserve, not_le.mpr hcapacity, not_le.mpr hnone, setBucket]
    · refine ⟨m₁, h₁, ?_⟩
      simp [consumeOrRaise, hglobal, RateLimitBudgetManager.refillHeldSellReserve,
        tryConsumeHeldSellReserve, not_lt.mp hcapacity]
  · refine ⟨m₁, h₁, ?_⟩
    have hlane' : (held && decide (type = .order)) = false := by
      simpa using hlane
    simp [consumeOrRaise, hglobal, hlane']

/-- The manager once the call is charged to the global bucket and its operation bucket, with
room left for what was taken. -/
structure Charged (m : RateLimitBudgetManager) (type : BucketType) (skipGlobalRest : Bool)
    (m' : RateLimitBudgetManager) : Prop where
  idle : m'.Idle
  count : m'.count = m.count - (m.globalCharge skipGlobalRest + Pi.single (.operation type) 1)
  isSome : m'.globalRest.isSome = m.globalRest.isSome
  globalRoom : m.chargesGlobal skipGlobalRest →
    ∀ g, m'.globalRest = some g → g.remaining < g.capacity
  room : ∃ b, m'.bucket type = .ok b ∧ b.remaining < b.capacity

theorem consumeBucket_some {m m₁ : RateLimitBudgetManager} {skip : Bool}
    (h : m.LetThrough skip m₁) {type : BucketType} {b : OperationBucket}
    (hb : m₁.bucket type = .ok b) (hsome : 1 ≤ b.remaining) (charged : Bool)
    (consumed released : Time) :
    ∃ m', m₁.consumeBucket type 1 charged consumed released = (.ok (), m') ∧
      m.Charged type skip m' := by
  obtain ⟨b', htake, hidle, hremaining, hroom⟩ :=
    (h.idle.bucket type b hb).tryConsume_some consumed hsome
  refine ⟨m₁.setBucket type b', by simp [consumeBucket, hb, htake], ?_⟩
  constructor
  · exact h.idle.setBucket hb hidle
  · rw [count_setBucket hb, hremaining, h.count]
    simp [sub_eq_add_neg, Pi.single_neg, add_assoc, add_comm (-Pi.single _ _)]
  · simpa using h.isSome
  · simpa using h.room
  · exact ⟨b', by simp [bucket_setBucket hb], hroom⟩

theorem consumeBucket_none {m m₁ : RateLimitBudgetManager} {skip : Bool}
    (h : m.LetThrough skip m₁) {type : BucketType} {b : OperationBucket}
    (hb : m₁.bucket type = .ok b) (hnone : b.remaining < 1) (consumed released : Time) :
    ∃ m', m₁.consumeBucket type 1 (m.chargesGlobal skip) consumed released =
        (.error (.budgetExhausted type.value), m') ∧
      m'.Idle ∧ m'.count = m.count := by
  have hbucket := h.idle.bucket type b hb
  have hidle := h.idle.setBucket hb (hbucket.refill consumed)
  have hcount : (m₁.setBucket type (b.refill consumed)).count = m₁.count := by
    rw [count_setBucket hb, hbucket.refill_remaining]
    simp
  by_cases hcharges : m.chargesGlobal skip
  · have hsome : m₁.globalRest.isSome := by
      rw [h.isSome]
      simp only [chargesGlobal, Bool.and_eq_true] at hcharges
      exact hcharges.2
    obtain ⟨g, hg⟩ := Option.isSome_iff_exists.mp hsome
    have hglobal := h.idle.globalRest g hg
    refine ⟨{ m₁.setBucket type (b.refill consumed) with
      globalRest := some (g.release 1 released) }, ?_, ?_, ?_⟩
    · simp [consumeBucket, hb, hbucket.tryConsume_none consumed hnone, hcharges, hg]
    · exact hidle.setGlobalRest (hglobal.release released)
    · rw [count_setGlobalRest (g := g) (by simpa using hg),
        hglobal.release_remaining released (h.room hcharges g hg), hcount, h.count, globalCharge,
        if_pos hcharges]
      simp
  · refine ⟨m₁.setBucket type (b.refill consumed), ?_, hidle, ?_⟩
    · simp [consumeBucket, hb, hbucket.tryConsume_none consumed hnone, hcharges]
    · rw [hcount, h.count, globalCharge, if_neg hcharges, sub_zero]

theorem exists_bucket (m : RateLimitBudgetManager) {type : BucketType}
    (htype : type ≠ .restGlobal) : ∃ b, m.bucket type = .ok b := by
  cases type <;> first | exact ⟨_, rfl⟩ | contradiction

theorem LetThrough.remaining_eq {m m' : RateLimitBudgetManager} {skip : Bool}
    (h : m.LetThrough skip m') {type : BucketType} {b : OperationBucket}
    (hb : m'.bucket type = .ok b) : b.remaining = m.count (.operation type) := by
  have hcount := congrFun h.count (.operation type)
  have hother : m.globalCharge skip (.operation type) = 0 := by
    unfold globalCharge
    split <;> simp
  rw [Pi.sub_apply, hother, sub_zero] at hcount
  rw [← hcount, RateLimitBudgetManager.count, hb]

theorem consumeOrRaise_some {m : RateLimitBudgetManager} (h : m.Idle) {skip : Bool}
    (hshort : ¬m.shortOfGlobal skip) {type : BucketType} {held : Bool}
    (huses : ¬m.usesReserve type held) (htype : type ≠ .restGlobal)
    (hsome : 1 ≤ m.count (.operation type)) (clock : Nat → Time) :
    ∃ m', m.consumeOrRaise type 1 skip held clock = (.ok (), m') ∧ m.Charged type skip m' := by
  obtain ⟨m₁, h₁, heq⟩ := consumeOrRaise_bucket h hshort huses clock
  obtain ⟨b, hb⟩ := m₁.exists_bucket htype
  rw [← h₁.remaining_eq hb] at hsome
  rw [heq]
  exact consumeBucket_some h₁ hb hsome _ _ _

theorem consumeOrRaise_none {m : RateLimitBudgetManager} (h : m.Idle) {skip : Bool}
    (hshort : ¬m.shortOfGlobal skip) {type : BucketType} {held : Bool}
    (huses : ¬m.usesReserve type held) (htype : type ≠ .restGlobal)
    (hnone : m.count (.operation type) < 1) (clock : Nat → Time) :
    ∃ m', m.consumeOrRaise type 1 skip held clock =
        (.error (.budgetExhausted type.value), m') ∧
      m'.Idle ∧ m'.count = m.count := by
  obtain ⟨m₁, h₁, heq⟩ := consumeOrRaise_bucket h hshort huses clock
  obtain ⟨b, hb⟩ := m₁.exists_bucket htype
  rw [← h₁.remaining_eq hb] at hnone
  rw [heq]
  exact consumeBucket_none h₁ hb hnone _ _

/-- The global type names no operation bucket, which is noticed after the global bucket has
been charged. -/
theorem consumeOrRaise_restGlobal {m : RateLimitBudgetManager} (h : m.Idle) {skip : Bool}
    (hshort : ¬m.shortOfGlobal skip) (held : Bool) (clock : Nat → Time) :
    ∃ m', m.consumeOrRaise .restGlobal 1 skip held clock = (.error (.other "KeyError"), m') ∧
      m.LetThrough skip m' := by
  have huses : ¬m.usesReserve .restGlobal held := by simp [usesReserve]
  obtain ⟨m₁, h₁, heq⟩ := consumeOrRaise_bucket h hshort huses clock
  exact ⟨m₁, heq, h₁⟩

end RateLimitBudgetManager

end AgentTrading.Brokers

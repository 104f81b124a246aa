import Mathlib.Data.Int.ConditionallyCompleteOrder
import AgentTrading.Brokers.Tokens
import AgentTrading.Library.Runs

/-! The reserve of held-position sells, over runs of calls. It measures the time since the
refill it has just made itself. -/
namespace AgentTrading.Brokers
open Domain Library.Runs

/-- A `consume_or_raise` call, with the readings of its clock. -/
structure BudgetCall where
  bucket : BucketType
  tokens : Int := 1
  skipGlobalRest : Bool := false
  heldPositionSell : Bool := false
  clock : Nat → Time

/-- A budget manager in a run: the manager, the last time its reserve served a call, and the
tokens the reserve has served. -/
structure BudgetRun where
  manager : RateLimitBudgetManager
  lastUse : Option Time := none
  served : Int := 0

namespace BudgetRun

/-- The manager once the global bucket let the call through. -/
def afterGlobal (s : BudgetRun) (call : BudgetCall) : RateLimitBudgetManager :=
  (s.manager.consumeGlobal call.tokens call.skipGlobalRest (call.clock 0)).2

/-- The call is a held-position sell that reaches the reserve. -/
def Reaches (s : BudgetRun) (call : BudgetCall) : Prop :=
  call.heldPositionSell ∧ call.bucket = .order ∧
    (s.manager.consumeGlobal call.tokens call.skipGlobalRest (call.clock 0)).1.isOk

instance (s : BudgetRun) (call : BudgetCall) : Decidable (s.Reaches call) :=
  inferInstanceAs (Decidable (call.heldPositionSell ∧ call.bucket = .order ∧ _))

/-- The reserve refilled for the call, and what it then answers. -/
def reserveAnswer (s : BudgetRun) (call : BudgetCall) : Bool × RateLimitBudgetManager :=
  ((s.afterGlobal call).refillHeldSellReserve (call.clock 1)
    (call.clock 2)).tryConsumeHeldSellReserve call.tokens

/-- The reserve serves the call. -/
def Served (s : BudgetRun) (call : BudgetCall) : Prop :=
  s.Reaches call ∧ (s.reserveAnswer call).1 = true

instance (s : BudgetRun) (call : BudgetCall) : Decidable (s.Served call) :=
  inferInstanceAs (Decidable (s.Reaches call ∧ _))

def step (s : BudgetRun) (call : BudgetCall) : BudgetRun :=
  { manager := (s.manager.consumeOrRaise call.bucket call.tokens call.skipGlobalRest
      call.heldPositionSell call.clock).2
    lastUse := if s.Served call then some (call.clock 2) else s.lastUse
    served := if s.Served call then s.served + call.tokens else s.served }

/-- The tokens a second that are the reserve's share of the ORDER bucket's rate. -/
def reserveRate (m : RateLimitBudgetManager) : ℚ :=
  m.order.refillRate * (m.heldSellReserveCapacity / max 1 (m.order.capacity : ℚ))

/-- A sell of one token reaches the reserve after the time of one token since its last use. -/
def Due (s : BudgetRun) (call : BudgetCall) : Prop :=
  s.Reaches call ∧ call.tokens = 1 ∧
    ∃ t, s.lastUse = some t ∧ 1 ≤ reserveRate s.manager * ((call.clock 2 - t : Time) / 1000000)

/-- The reserve still has a token, or the time of one token passes within the call itself,
between the two readings of the clock. -/
def Supplied (s : BudgetRun) (call : BudgetCall) : Prop :=
  0 < s.manager.heldSellReserve ∨
    1 ≤ reserveRate s.manager * ((call.clock 2 - call.clock 1 : Time) / 1000000)

/-- The readings of a call's clock go forward, from the latest one before it. -/
structure Timely (s : BudgetRun) (call : BudgetCall) : Prop where
  start : s.manager.order.refillAt ≤ call.clock 0
  mono : Monotone call.clock

/-- A manager as it is created, with a reserve, or as a run leaves it. -/
structure Reserved (s : BudgetRun) : Prop where
  capacity_pos : 0 < s.manager.heldSellReserveCapacity
  reserve_nonneg : 0 ≤ s.manager.heldSellReserve

end BudgetRun

theorem tdiv_pos_iff {q : ℚ} : 0 < q.num.tdiv q.den ↔ 1 ≤ q := by
  rcases le_or_gt 0 q with hq | hq
  · rw [tdiv_eq_floor hq]
    constructor
    · intro h
      exact_mod_cast Int.le_floor.mp h
    · intro h
      exact Int.lt_iff_add_one_le.mpr (Int.le_floor.mpr (by simpa using h))
  · constructor
    · intro h
      have hnum : 0 ≤ -q.num := Int.neg_nonneg_of_nonpos (Rat.num_neg.mpr hq).le
      have hnonneg := Int.tdiv_nonneg hnum (Int.natCast_nonneg q.den)
      rw [Int.neg_tdiv] at hnonneg
      omega
    · intro h
      linarith

namespace RateLimitBudgetManager

variable (m : RateLimitBudgetManager)

theorem consumeGlobal_eq (tokens : Int) (skipGlobalRest : Bool) (now : Time) :
    ∃ g, (m.consumeGlobal tokens skipGlobalRest now).2 = { m with globalRest := g } := by
  unfold consumeGlobal
  split
  next => exact ⟨m.globalRest, rfl⟩
  next =>
    split
    · exact ⟨m.globalRest, rfl⟩
    · split
      · exact ⟨_, rfl⟩
      · exact ⟨_, rfl⟩

/-- What no call changes: the sizes of the reserve and of the ORDER bucket, and its rate. -/
structure SameTerms (m m' : RateLimitBudgetManager) : Prop where
  reserve : m'.heldSellReserveCapacity = m.heldSellReserveCapacity
  capacity : m'.order.capacity = m.order.capacity
  rate : m'.order.refillRate = m.order.refillRate

variable {m} in
theorem SameTerms.trans {m' m'' : RateLimitBudgetManager} (h : SameTerms m m')
    (h' : SameTerms m' m'') : SameTerms m m'' :=
  ⟨h'.reserve.trans h.reserve, h'.capacity.trans h.capacity, h'.rate.trans h.rate⟩

theorem sameTerms_setBucket {type : BucketType} {b b' : OperationBucket}
    (hb : m.bucket type = .ok b) (hcapacity : b'.capacity = b.capacity)
    (hrate : b'.refillRate = b.refillRate) : SameTerms m (m.setBucket type b') := by
  cases type with
  | order =>
    cases hb
    exact ⟨rfl, hcapacity, hrate⟩
  | inquiry => exact ⟨rfl, rfl, rfl⟩
  | reconciliation => exact ⟨rfl, rfl, rfl⟩
  | marketData => exact ⟨rfl, rfl, rfl⟩
  | auth => exact ⟨rfl, rfl, rfl⟩
  | restGlobal => exact ⟨rfl, rfl, rfl⟩

theorem consumeBucket_reserve (type : BucketType) (tokens : Int) (globalConsumed : Bool)
    (consumed released : Time) :
    (m.consumeBucket type tokens globalConsumed consumed released).2.heldSellReserve =
        m.heldSellReserve ∧
      SameTerms m (m.consumeBucket type tokens globalConsumed consumed released).2 := by
  unfold consumeBucket
  split
  next => exact ⟨rfl, rfl, rfl, rfl⟩
  next b hb =>
    have hcapacity := b.tryConsume_capacity tokens consumed
    have hrate := b.tryConsume_refillRate tokens consumed
    split
    next b' hsome =>
      rw [hsome] at hcapacity hrate
      exact ⟨setBucket_heldSellReserve m type b', sameTerms_setBucket m hb hcapacity hrate⟩
    next b' hnone =>
      rw [hnone] at hcapacity hrate
      have hset := sameTerms_setBucket m hb hcapacity hrate
      dsimp only
      split
      · exact ⟨setBucket_heldSellReserve m type b', hset.reserve, hset.capacity, hset.rate⟩
      · exact ⟨setBucket_heldSellReserve m type b', hset⟩

/-- The tokens that come back to the reserve in `elapsed` seconds. -/
def reserveShare (elapsed : ℚ) : ℚ :=
  elapsed * m.order.refillRate *
    (m.heldSellReserveCapacity / max 1 (m.order.capacity : ℚ))

theorem sameTerms_refillHeldSellReserve (refilled measured : Time) :
    SameTerms m (m.refillHeldSellReserve refilled measured) := by
  have horder : SameTerms m { m with order := m.order.refill refilled } :=
    ⟨rfl, OperationBucket.refill_capacity _ _, OperationBucket.refill_refillRate _ _⟩
  unfold refillHeldSellReserve
  split
  · exact ⟨rfl, rfl, rfl⟩
  · dsimp only
    split
    · split
      · exact ⟨rfl, horder.capacity, horder.rate⟩
      · exact horder
    · exact horder

theorem refillHeldSellReserve_reserve (hcapacity : 0 < m.heldSellReserveCapacity)
    {refilled measured : Time} (hnow : m.order.refillAt ≤ refilled) (hlater : refilled ≤ measured) :
    let share := m.reserveShare ((measured - refilled : Time) / 1000000)
    (m.refillHeldSellReserve refilled measured).heldSellReserve =
      if 1 ≤ share then min m.heldSellReserveCapacity
        (m.heldSellReserve + share.num.tdiv share.den)
      else m.heldSellReserve := by
  have hcast : (measured : ℚ) - refilled = ((measured - refilled : Time) : ℚ) := by push_cast; rfl
  unfold refillHeldSellReserve reserveShare
  rw [if_neg (not_le.mpr hcapacity)]
  dsimp only
  rw [OperationBucket.refill_refillAt hnow, OperationBucket.refill_refillRate,
    OperationBucket.refill_capacity, hcast]
  simp only [gt_iff_lt, tdiv_pos_iff]
  split
  next => split <;> rfl
  next helapsed =>
    have hzero : (((measured - refilled : Time) : ℚ)) / 1000000 = 0 := by
      apply le_antisymm (not_lt.mp helapsed)
      have hnonneg : (0 : ℚ) ≤ ((measured - refilled : Time) : ℚ) := by
        exact_mod_cast Int.sub_nonneg_of_le hlater
      exact div_nonneg hnonneg (by norm_num)
    rw [hzero, zero_mul, zero_mul, if_neg (by norm_num)]

theorem refillHeldSellReserve_nonneg (hcapacity : 0 < m.heldSellReserveCapacity)
    (hreserve : 0 ≤ m.heldSellReserve) (refilled measured : Time) :
    0 ≤ (m.refillHeldSellReserve refilled measured).heldSellReserve := by
  unfold refillHeldSellReserve
  split
  · exact hreserve
  · dsimp only
    split
    · split
      next hadd => exact le_min hcapacity.le (add_nonneg hreserve hadd.le)
      next => exact hreserve
    · exact hreserve

theorem tryConsumeHeldSellReserve_eq (hcapacity : 0 < m.heldSellReserveCapacity) (tokens : Int) :
    m.tryConsumeHeldSellReserve tokens = (decide (tokens ≤ m.heldSellReserve),
      if tokens ≤ m.heldSellReserve then { m with heldSellReserve := m.heldSellReserve - tokens }
      else m) := by
  unfold tryConsumeHeldSellReserve
  rw [if_neg (not_le.mpr hcapacity)]
  split
  next h => rw [decide_eq_true h]
  next h => rw [decide_eq_false h]

end RateLimitBudgetManager

namespace BudgetRun

variable {s : BudgetRun} {call : BudgetCall}

theorem afterGlobal_eq (s : BudgetRun) (call : BudgetCall) :
    ∃ g, s.afterGlobal call = { s.manager with globalRest := g } :=
  s.manager.consumeGlobal_eq _ _ _

theorem Timely.readings (h : s.Timely call) :
    s.manager.order.refillAt ≤ call.clock 1 ∧ call.clock 1 ≤ call.clock 2 :=
  ⟨h.start.trans (h.mono (Nat.zero_le 1)), h.mono (by decide)⟩

theorem served_iff (h : s.Reserved) (htimely : s.Timely call) (hreaches : s.Reaches call)
    (hone : call.tokens = 1) : s.Served call ↔ s.Supplied call := by
  obtain ⟨g, hg⟩ := s.afterGlobal_eq call
  obtain ⟨hnow, hlater⟩ := htimely.readings
  have hcapacity : 0 < (s.afterGlobal call).heldSellReserveCapacity := by
    rw [hg]
    exact h.capacity_pos
  have hsame : (s.afterGlobal call).heldSellReserve = s.manager.heldSellReserve := by rw [hg]
  have hrate : (s.afterGlobal call).reserveShare
      ((call.clock 2 - call.clock 1 : Time) / 1000000) =
      reserveRate s.manager * ((call.clock 2 - call.clock 1 : Time) / 1000000) := by
    rw [hg]
    unfold RateLimitBudgetManager.reserveShare reserveRate
    ring
  have hreserve := (s.afterGlobal call).refillHeldSellReserve_reserve hcapacity
    (by rw [hg]; exact hnow) hlater
  dsimp only at hreserve
  have hcapacity' : 0 < ((s.afterGlobal call).refillHeldSellReserve (call.clock 1)
      (call.clock 2)).heldSellReserveCapacity := by
    rwa [((s.afterGlobal call).sameTerms_refillHeldSellReserve _ _).reserve]
  have hanswer : s.Served call ↔ 1 ≤ ((s.afterGlobal call).refillHeldSellReserve
      (call.clock 1) (call.clock 2)).heldSellReserve := by
    unfold Served reserveAnswer
    rw [RateLimitBudgetManager.tryConsumeHeldSellReserve_eq _ hcapacity', hone]
    simp only [hreaches, true_and, decide_eq_true_eq]
  have hreserveNonneg := h.reserve_nonneg
  unfold Supplied
  rw [hanswer, hreserve, ← hrate, hsame]
  split
  next hshare =>
    have hadd := tdiv_pos_iff.mpr hshare
    refine iff_of_true (le_min hcapacity ?_) (.inr hshare)
    omega
  next hshare =>
    rw [or_iff_left hshare]
    omega

theorem step_manager_served (hserved : s.Served call) :
    (s.step call).manager = (s.reserveAnswer call).2 := by
  obtain ⟨⟨hheld, htype, hok⟩, hanswer⟩ := hserved
  unfold step reserveAnswer afterGlobal at *
  dsimp only
  unfold RateLimitBudgetManager.consumeOrRaise
  rw [htype, hheld]
  revert hok hanswer
  cases s.manager.consumeGlobal call.tokens call.skipGlobalRest (call.clock 0) with
  | mk passed m =>
    cases passed with
    | error e =>
      intro _ hok
      cases hok
    | ok charged =>
      intro hanswer _
      dsimp only at hanswer ⊢
      cases hreserve : (m.refillHeldSellReserve (call.clock 1)
          (call.clock 2)).tryConsumeHeldSellReserve call.tokens with
      | mk taken m' =>
        rw [hreserve] at hanswer
        dsimp only at hanswer
        subst hanswer
        rfl

theorem step_manager_turned (hreaches : s.Reaches call)
    (hanswer : (s.reserveAnswer call).1 = false) :
    ∃ charged, (s.step call).manager = ((s.reserveAnswer call).2.consumeBucket call.bucket
      call.tokens charged (call.clock 3) (call.clock 4)).2 := by
  obtain ⟨hheld, htype, hok⟩ := hreaches
  unfold step reserveAnswer afterGlobal at *
  dsimp only
  unfold RateLimitBudgetManager.consumeOrRaise
  rw [htype, hheld]
  revert hok hanswer
  cases s.manager.consumeGlobal call.tokens call.skipGlobalRest (call.clock 0) with
  | mk passed m =>
    cases passed with
    | error e =>
      intro _ hok
      cases hok
    | ok charged =>
      intro hanswer _
      refine ⟨charged, ?_⟩
      dsimp only at hanswer ⊢
      cases hreserve : (m.refillHeldSellReserve (call.clock 1)
          (call.clock 2)).tryConsumeHeldSellReserve call.tokens with
      | mk taken m' =>
        rw [hreserve] at hanswer
        dsimp only at hanswer
        subst hanswer
        rfl

/-- A call that does not reach the reserve stops at the global bucket or takes from its own. -/
theorem step_manager_other (hreaches : ¬ s.Reaches call) :
    (s.step call).manager = s.afterGlobal call ∨
      ∃ charged, (s.step call).manager = ((s.afterGlobal call).consumeBucket call.bucket
        call.tokens charged (call.clock 3) (call.clock 4)).2 := by
  unfold Reaches at hreaches
  unfold step afterGlobal
  dsimp only
  unfold RateLimitBudgetManager.consumeOrRaise
  revert hreaches
  cases s.manager.consumeGlobal call.tokens call.skipGlobalRest (call.clock 0) with
  | mk passed m =>
    cases passed with
    | error e => exact fun _ => .inl rfl
    | ok charged =>
      intro hreaches
      refine .inr ⟨charged, ?_⟩
      have hlane : (call.heldPositionSell && call.bucket = .order) = false := by
        rw [Bool.eq_false_iff]
        intro hboth
        simp only [Bool.and_eq_true, decide_eq_true_eq] at hboth
        exact hreaches ⟨hboth.1, hboth.2, rfl⟩
      dsimp only
      rw [hlane]
      rfl

/-- What a call leaves: the reserve refilled if the call reaches it, less what it served. -/
theorem step_reserve (h : s.Reserved) (call : BudgetCall) :
    ((s.step call).manager.heldSellReserve =
      if s.Reaches call then
        ((s.afterGlobal call).refillHeldSellReserve (call.clock 1)
          (call.clock 2)).heldSellReserve - if s.Served call then call.tokens else 0
      else s.manager.heldSellReserve) ∧
    RateLimitBudgetManager.SameTerms s.manager (s.step call).manager := by
  obtain ⟨g, hg⟩ := s.afterGlobal_eq call
  have hglobal : RateLimitBudgetManager.SameTerms s.manager (s.afterGlobal call) := by
    rw [hg]
    exact ⟨rfl, rfl, rfl⟩
  by_cases hreaches : s.Reaches call
  · rw [if_pos hreaches]
    have hrefill := hglobal.trans
      ((s.afterGlobal call).sameTerms_refillHeldSellReserve (call.clock 1) (call.clock 2))
    have hcapacity : 0 < ((s.afterGlobal call).refillHeldSellReserve (call.clock 1)
        (call.clock 2)).heldSellReserveCapacity := by
      rw [hrefill.reserve]
      exact h.capacity_pos
    have hanswer := RateLimitBudgetManager.tryConsumeHeldSellReserve_eq _ hcapacity call.tokens
    by_cases hserved : s.Served call
    · have henough := hserved.2
      rw [if_pos hserved, step_manager_served hserved]
      unfold reserveAnswer at henough ⊢
      rw [hanswer] at henough ⊢
      dsimp only
      rw [if_pos (of_decide_eq_true henough)]
      exact ⟨rfl, hrefill.reserve, hrefill.capacity, hrefill.rate⟩
    · have hfalse : (s.reserveAnswer call).1 = false := by
        rw [Bool.eq_false_iff]
        exact fun htrue => hserved ⟨hreaches, htrue⟩
      obtain ⟨charged, hstep⟩ := step_manager_turned hreaches hfalse
      have hsecond := (s.reserveAnswer call).2.consumeBucket_reserve call.bucket call.tokens
        charged (call.clock 3) (call.clock 4)
      rw [if_neg hserved, hstep, hsecond.1, sub_zero]
      unfold reserveAnswer at hfalse hsecond ⊢
      rw [hanswer] at hfalse hsecond ⊢
      dsimp only at hsecond ⊢
      rw [if_neg (of_decide_eq_false hfalse)] at hsecond ⊢
      exact ⟨rfl, hrefill.trans hsecond.2⟩
  · rw [if_neg hreaches]
    rcases step_manager_other hreaches with hstep | ⟨charged, hstep⟩
    · rw [hstep]
      refine ⟨?_, hglobal⟩
      rw [hg]
    · have hsecond := (s.afterGlobal call).consumeBucket_reserve call.bucket call.tokens charged
        (call.clock 3) (call.clock 4)
      rw [hstep, hsecond.1]
      refine ⟨?_, hglobal.trans hsecond.2⟩
      rw [hg]

theorem reserved_step (h : s.Reserved) (call : BudgetCall) : (s.step call).Reserved := by
  obtain ⟨g, hg⟩ := s.afterGlobal_eq call
  obtain ⟨hreserve, hterms⟩ := step_reserve h call
  have hcapacity : 0 < (s.afterGlobal call).heldSellReserveCapacity := by
    rw [hg]
    exact h.capacity_pos
  have hrefill := (s.afterGlobal call).refillHeldSellReserve_nonneg hcapacity
    (by rw [hg]; exact h.reserve_nonneg) (call.clock 1) (call.clock 2)
  refine ⟨?_, ?_⟩
  · rw [hterms.reserve]
    exact h.capacity_pos
  · rw [hreserve]
    split
    next =>
      split
      next hserved =>
        have henough := hserved.2
        unfold reserveAnswer at henough
        rw [RateLimitBudgetManager.tryConsumeHeldSellReserve_eq _ (by
          rwa [((s.afterGlobal call).sameTerms_refillHeldSellReserve _ _).reserve])] at henough
        exact sub_nonneg.mpr (of_decide_eq_true henough)
      next =>
        rw [sub_zero]
        exact hrefill
    next => exact h.reserve_nonneg

/-- The call takes less than the time of one token between its readings of the clock. -/
def Quick (s : BudgetRun) (call : BudgetCall) : Prop :=
  reserveRate s.manager * ((call.clock 2 - call.clock 1 : Time) / 1000000) < 1

theorem step_quick (h : s.Reserved) (htimely : s.Timely call) (hquick : s.Quick call) :
    (s.step call).manager.heldSellReserve + (s.step call).served =
      s.manager.heldSellReserve + s.served := by
  obtain ⟨g, hg⟩ := s.afterGlobal_eq call
  obtain ⟨hnow, hlater⟩ := htimely.readings
  have hcapacity : 0 < (s.afterGlobal call).heldSellReserveCapacity := by
    rw [hg]
    exact h.capacity_pos
  have hsame : (s.afterGlobal call).heldSellReserve = s.manager.heldSellReserve := by rw [hg]
  have hrefill := (s.afterGlobal call).refillHeldSellReserve_reserve hcapacity
    (by rw [hg]; exact hnow) hlater
  have hshare : ¬ 1 ≤ (s.afterGlobal call).reserveShare
      ((call.clock 2 - call.clock 1 : Time) / 1000000) := by
    unfold Quick reserveRate at hquick
    rw [hg, not_le]
    unfold RateLimitBudgetManager.reserveShare
    linarith
  dsimp only at hrefill
  rw [if_neg hshare, hsame] at hrefill
  rw [(step_reserve h call).1, hrefill]
  change _ + (if s.Served call then s.served + call.tokens else s.served) = _
  by_cases hserved : s.Served call
  · rw [if_pos hserved.1, if_pos hserved, if_pos hserved]
    omega
  · rw [if_neg hserved, if_neg hserved, sub_zero, ite_self]

/-- For every manager with a reserve and every run of calls: each sell that is due one of the
reserve's tokens is served by it exactly when, at each such sell, the reserve still has a token
or the call itself takes the time of one between two readings of its clock. In a run without
such a slow call no token comes back: the reserve and what it served add up to what it held. -/
theorem comesBack_iff (s : BudgetRun) (h : s.Reserved) (calls : List BudgetCall)
    (htimely : Meets step Timely s calls) :
    (Meets step (fun s call => s.Due call → s.Served call) s calls ↔
      Meets step (fun s call => s.Due call → s.Supplied call) s calls) ∧
    (Meets step Quick s calls →
      (run step s calls).manager.heldSellReserve + (run step s calls).served =
        s.manager.heldSellReserve + s.served) := by
  constructor
  · have hcall : ∀ (s : BudgetRun) (call : BudgetCall), s.Reserved →
        (s.Timely call ∧ (s.Due call → s.Served call) ↔
          s.Timely call ∧ (s.Due call → s.Supplied call)) := by
      intro s call hs
      apply and_congr_right
      intro ht
      apply imp_congr_right
      rintro ⟨hreaches, hone, -⟩
      exact served_iff hs ht hreaches hone
    have hruns := meets_congr step (fun s call hs => reserved_step hs call) hcall s calls h
    rw [meets_and, meets_and] at hruns
    exact ⟨fun hserved => (hruns.mp ⟨htimely, hserved⟩).2,
      fun hsupplied => (hruns.mpr ⟨htimely, hsupplied⟩).2⟩
  · induction calls generalizing s with
    | nil => exact fun _ => rfl
    | cons call calls ih =>
      intro hquick
      rw [run_cons, ih (s.step call) (reserved_step h call) htimely.2 hquick.2,
        step_quick h htimely.1 hquick.1]

/-- A manager with two ORDER tokens, one more a second, and a reserve of one. -/
def oneReserved : BudgetRun where
  manager :=
    { order := .new 2 1 0
      inquiry := .new 5 1 0
      reconciliation := .new 2 1 0
      marketData := .new 5 1 0
      auth := .new 1 1 0
      heldSellReserve := 1
      heldSellReserveCapacity := 1 }

def heldSellAt (now : Time) : BudgetCall where
  bucket := .order
  heldPositionSell := true
  clock := fun _ => now

def buyAt (now : Time) : BudgetCall where
  bucket := .order
  clock := fun _ => now

/-- A sell from the reserve, and ten seconds later two buys and a second sell. -/
def sellTwice : List BudgetCall :=
  [heldSellAt 0, buyAt 10000000, buyAt 10000000, heldSellAt 10000000]

/-- In ten seconds five tokens of the reserve are due, and the second sell is refused. -/
theorem sellTwice_refused :
    ¬ Meets step (fun s call => s.Due call → s.Served call) oneReserved sellTwice ∧
    ((run step oneReserved (sellTwice.take 3)).manager.consumeOrRaise .order 1 false true
      fun _ => 10000000).1 = .error (.budgetExhausted "order") := by
  refine ⟨fun h => ?_, by decide +kernel⟩
  have hdue := h.2.2.2.1 ⟨by decide +kernel, rfl, 0, by decide +kernel, by decide +kernel⟩
  revert hdue
  decide +kernel

/-- The reserve served its one token and has none left. -/
theorem sellTwice_reserve :
    (run step oneReserved sellTwice).manager.heldSellReserve +
      (run step oneReserved sellTwice).served = 1 ∧
    (run step oneReserved sellTwice).served = 1 := by
  have htimely : Meets step Timely oneReserved sellTwice :=
    ⟨⟨by decide +kernel, monotone_const⟩, ⟨by decide +kernel, monotone_const⟩,
      ⟨by decide +kernel, monotone_const⟩, ⟨by decide +kernel, monotone_const⟩, trivial⟩
  have hquick : Meets step Quick oneReserved sellTwice := by
    unfold Quick
    decide +kernel
  exact ⟨(comesBack_iff oneReserved ⟨by decide, by decide⟩ sellTwice htimely).2 hquick,
    by decide +kernel⟩

end BudgetRun

end AgentTrading.Brokers

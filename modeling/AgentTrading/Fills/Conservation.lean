import Mathlib.Algebra.BigOperators.Group.List.Basic
import Mathlib.Algebra.Order.BigOperators.Group.List
import Mathlib.Tactic.Linarith
import Mathlib.Tactic.Ring
import AgentTrading.Fills.Sync
import AgentTrading.Library.Runs

/-! What becomes of the increments. Every increment by which the cumulative state advanced is
stored once, or passed over because a stored fill has its key, or given up by a call that
raised. -/
namespace AgentTrading.Fills
open Domain Library

/-- A fill as the keys see it. -/
structure Increment where
  fillTimestamp : Time
  fillPrice : ℚ
  fillQuantity : ℚ
  brokerFillId : Option String
  deriving DecidableEq

def FillEvent.increment (fill : FillEvent) : Increment where
  fillTimestamp := fill.fillTimestamp
  fillPrice := fill.fillPrice
  fillQuantity := fill.fillQuantity
  brokerFillId := fillIdOf fill.brokerFillId

def storedIncrement (e : FillEventEntity) : Increment where
  fillTimestamp := e.fillTimestamp
  fillPrice := e.fillPrice
  fillQuantity := e.fillQuantity
  brokerFillId := fillIdOf e.brokerFillId

def FillBook.stored (book : FillBook) : List Increment := book.fillEvents.map storedIncrement

def quantity (increments : List Increment) : ℚ := (increments.map (·.fillQuantity)).sum

@[simp] theorem quantity_nil : quantity [] = 0 := rfl

@[simp] theorem quantity_cons (i : Increment) (is : List Increment) :
    quantity (i :: is) = i.fillQuantity + quantity is := by
  simp [quantity]

@[simp] theorem quantity_append (is js : List Increment) :
    quantity (is ++ js) = quantity is + quantity js := by
  simp [quantity]

theorem quantity_perm {is js : List Increment} (h : is.Perm js) : quantity is = quantity js :=
  (h.map _).sum_eq

/-- The keys of two increments agree. -/
def SameKey (a b : Increment) : Prop :=
  (a.brokerFillId.isSome ∧ a.brokerFillId = b.brokerFillId) ∨
    (a.brokerFillId = none ∧ a = b)

theorem fillIdOf_idem (id : Option String) : fillIdOf (fillIdOf id) = fillIdOf id := by
  cases id with
  | none => rfl
  | some s => by_cases hs : s = "" <;> simp [fillIdOf, hs]

theorem isDuplicate_sameKey {existing : List FillEventEntity} {fill : FillEvent}
    (h : isDuplicate existing fill = true) :
    ∃ e ∈ existing, SameKey fill.increment (storedIncrement e) := by
  unfold isDuplicate at h
  split at h
  · next id hid =>
    simp only [List.any_eq_true, decide_eq_true_eq] at h
    obtain ⟨e, he, hkey⟩ := h
    exact ⟨e, he, .inl (by simp [FillEvent.increment, storedIncrement, hid, hkey])⟩
  · next hid =>
    simp only [List.any_eq_true, decide_eq_true_eq] at h
    obtain ⟨e, he, hnone, htime, hprice, hquantity⟩ := h
    refine ⟨e, he, .inr ⟨hid, ?_⟩⟩
    simp [FillEvent.increment, storedIncrement, hid, hnone, htime, hprice, hquantity]

theorem storedIncrement_entityOf (ctx : OrderContext) (id : UUID) (fill : FillEvent)
    (feeTax : FeeTax) : storedIncrement (entityOf ctx id fill feeTax) = fill.increment := by
  simp [storedIncrement, entityOf, FillEvent.increment, fillIdOf_idem]

theorem interpretOne_advances {ctx : OrderContext} (henabled : ctx.appendEnabled = true)
    (nativeId : String) (now : Time) (acc : Interpretation) (observation : FillEvent)
    (hpos : ∀ c ∈ acc.candidates, 0 < c.fillQuantity) :
    let next := interpretOne ctx nativeId now acc observation
    (∀ c ∈ next.candidates, 0 < c.fillQuantity) ∧
      quantity (next.candidates.map FillEvent.increment) + lastQuantity acc.cumulative =
        quantity (acc.candidates.map FillEvent.increment) + lastQuantity next.cumulative := by
  intro next
  have hcases := resolveIncrementalFill_cases acc.cumulative {
      accountId := ctx.accountId
      brokerName := ctx.brokerName
      brokerNativeOrderId := nativeId
      currentCumulativeQuantity := observation.fillQuantity
      currentAveragePrice := some observation.fillPrice } now acc.nextId
  simp only [next, interpretOne]
  generalize resolveIncrementalFill _ _ _ _ = resolved at hcases ⊢
  obtain ⟨decision, state⟩ := resolved
  obtain ⟨hdecision, -, hstate⟩ | ⟨reason, hdecision, hstate⟩ |
      ⟨price, hdecision, hdelta, hstate⟩ :=
    hcases
  · dsimp only at hdecision hstate
    subst hdecision
    exact ⟨hpos, by rw [hstate]⟩
  · dsimp only at hdecision hstate
    subst hdecision hstate
    cases reason <;> exact ⟨hpos, rfl⟩
  · dsimp only at hdecision hstate hdelta
    subst hdecision
    simp only [henabled, if_true]
    refine ⟨?_, ?_⟩
    · intro c hc
      rcases List.mem_append.mp hc with hc | hc
      · exact hpos c hc
      · rw [List.mem_singleton.mp hc]
        exact hdelta
    · rw [hstate, List.map_append, quantity_append]
      simp only [List.map_cons, List.map_nil, quantity_cons, quantity_nil, FillEvent.increment]
      ring

theorem interpret_advances {ctx : OrderContext} (henabled : ctx.appendEnabled = true) (now : Time)
    (book : FillBook) (observations : List FillEvent) :
    let found := interpret ctx now book observations
    (∀ c ∈ found.candidates, 0 < c.fillQuantity) ∧
      quantity (found.candidates.map FillEvent.increment) + lastQuantity book.cumulative =
        lastQuantity found.cumulative := by
  intro found
  have hloop : ∀ (nativeId : String) (acc : Interpretation),
      (∀ c ∈ acc.candidates, 0 < c.fillQuantity) →
      let last := observations.foldl (interpretOne ctx nativeId now) acc
      (∀ c ∈ last.candidates, 0 < c.fillQuantity) ∧
        quantity (last.candidates.map FillEvent.increment) + lastQuantity acc.cumulative =
          quantity (acc.candidates.map FillEvent.increment) + lastQuantity last.cumulative := by
    intro nativeId
    induction observations with
    | nil => exact fun acc hpos => ⟨hpos, rfl⟩
    | cons observation observations ih =>
      intro acc hpos
      obtain ⟨hpos, hone⟩ := interpretOne_advances henabled nativeId now acc observation hpos
      obtain ⟨hpos, hrest⟩ := ih _ hpos
      refine ⟨hpos, ?_⟩
      simp only [List.foldl_cons]
      linarith
  simp only [found, interpret]
  split
  · simp
  · next nativeId _ =>
    have h := hloop nativeId { cumulative := book.cumulative, nextId := book.nextId } (by simp)
    simpa using h

/-- From `before` to `after`, the fresh increments are stored, passed over for the key of a
stored fill, or given up; none is given up when all calls returned. -/
def Accounted (before after fresh : List Increment) (returned : Prop) : Prop :=
  before ⊆ after ∧ ∃ discarded abandoned : List Increment,
    (after ++ (discarded ++ abandoned)).Perm (before ++ fresh) ∧
    (∀ d ∈ discarded, ∃ e ∈ after, SameKey d e) ∧ (returned → abandoned = [])

theorem Accounted.refl (stored : List Increment) (returned : Prop) :
    Accounted stored stored [] returned :=
  ⟨List.Subset.refl _, [], [], by simp⟩

theorem Accounted.trans {first middle last fresh₁ fresh₂ : List Increment} {r₁ r₂ : Prop}
    (h₁ : Accounted first middle fresh₁ r₁) (h₂ : Accounted middle last fresh₂ r₂) :
    Accounted first last (fresh₁ ++ fresh₂) (r₁ ∧ r₂) := by
  obtain ⟨hsub₁, discarded₁, abandoned₁, hperm₁, hkeys₁, hreturned₁⟩ := h₁
  obtain ⟨hsub₂, discarded₂, abandoned₂, hperm₂, hkeys₂, hreturned₂⟩ := h₂
  refine ⟨List.Subset.trans hsub₁ hsub₂, discarded₁ ++ discarded₂, abandoned₁ ++ abandoned₂,
    ?_, ?_, ?_⟩
  · rw [List.perm_iff_count] at hperm₁ hperm₂ ⊢
    intro i
    have h₁ := hperm₁ i
    have h₂ := hperm₂ i
    simp only [List.count_append] at h₁ h₂ ⊢
    omega
  · intro d hd
    rcases List.mem_append.mp hd with hd | hd
    · obtain ⟨e, he, hkey⟩ := hkeys₁ d hd
      exact ⟨e, hsub₂ he, hkey⟩
    · exact hkeys₂ d hd
  · rintro ⟨hr₁, hr₂⟩
    rw [hreturned₁ hr₁, hreturned₂ hr₂, List.append_nil]

theorem accounted_discard {stored : List Increment} {i : Increment}
    (h : ∃ e ∈ stored, SameKey i e) : Accounted stored stored [i] True :=
  ⟨List.Subset.refl _, [i], [], by simp, by simpa using h, fun _ => rfl⟩

theorem accounted_store (stored : List Increment) (i : Increment) :
    Accounted stored (stored ++ [i]) [i] True :=
  ⟨List.subset_append_left _ _, [], [], by simp⟩

theorem accounted_abandon (stored is : List Increment) : Accounted stored stored is False :=
  ⟨List.Subset.refl _, [], is, by simp⟩

theorem appendFills_cumulative (ctx : OrderContext)
    (policy : Option (FillEvent → Except PyError FeeTax)) (fills : List FillEvent)
    (synced skipped : Nat) (book : FillBook) :
    (appendFills ctx policy fills synced skipped book).2.cumulative = book.cumulative := by
  induction fills generalizing synced skipped book with
  | nil => rfl
  | cons fill fills ih =>
    rw [appendFills]
    split
    · exact ih _ _ _
    · split
      · rfl
      · exact ih _ _ _

theorem appendFills_accounted (ctx : OrderContext)
    (policy : Option (FillEvent → Except PyError FeeTax)) (fills : List FillEvent)
    (synced skipped : Nat) (book : FillBook) :
    Accounted book.stored (appendFills ctx policy fills synced skipped book).2.stored
      (fills.map FillEvent.increment)
      ((appendFills ctx policy fills synced skipped book).1.isOk = true) := by
  induction fills generalizing synced skipped book with
  | nil => exact Accounted.refl _ _
  | cons fill fills ih =>
    rw [appendFills]
    split
    · next hduplicate =>
      obtain ⟨e, he, hkey⟩ := isDuplicate_sameKey hduplicate
      have hstep : Accounted book.stored book.stored [fill.increment] True :=
        accounted_discard ⟨storedIncrement e, List.mem_map_of_mem he, hkey⟩
      simpa using hstep.trans (ih synced (skipped + 1) book)
    · split
      · next e _ =>
        have : (Except.error e : Except PyError (Nat × Nat)).isOk = true ↔ False := by
          simp [Except.isOk, Except.toBool]
        simp only [this]
        exact accounted_abandon _ _
      · next feeTax _ =>
        have hstored : (addFill book (entityOf ctx book.nextId fill feeTax)).stored =
            book.stored ++ [fill.increment] := by
          simp [FillBook.stored, addFill, storedIncrement_entityOf]
        have hstep := accounted_store book.stored fill.increment
        rw [← hstored] at hstep
        simpa using hstep.trans (ih (synced + 1) skipped _)

/-- The increments by which a call advances the cumulative state. -/
def incrementsOf (ctx : OrderContext) (book : FillBook) (call : FillCall) : List Increment :=
  match call.observations with
  | .error _ => []
  | .ok observations =>
    (interpret ctx call.now book observations).candidates.map FillEvent.increment

def syncStep (ctx : OrderContext) (book : FillBook) (call : FillCall) : FillBook :=
  (syncFills ctx call book).2

def Returns (ctx : OrderContext) (book : FillBook) (call : FillCall) : Prop :=
  (syncFills ctx call book).1.isOk = true

instance (ctx : OrderContext) (book : FillBook) (call : FillCall) :
    Decidable (Returns ctx book call) :=
  inferInstanceAs (Decidable (_ = true))

theorem interpret_nil (ctx : OrderContext) (now : Time) (book : FillBook) :
    (interpret ctx now book []).candidates = [] ∧
      (interpret ctx now book []).cumulative = book.cumulative := by
  unfold interpret
  split <;> exact ⟨rfl, rfl⟩

theorem syncFills_observations (ctx : OrderContext) {call : FillCall}
    {observations : List FillEvent}
    (hobs : call.observations = .ok observations) (book : FillBook) :
    let found := interpret ctx call.now book observations
    let appended := appendFills ctx call.feeTaxPolicy found.candidates 0 0
      { book with cumulative := found.cumulative, nextId := found.nextId }
    (syncFills ctx call book).2.stored = appended.2.stored ∧
      (syncFills ctx call book).2.cumulative = found.cumulative ∧
      (syncFills ctx call book).1.isOk = appended.1.isOk := by
  intro found appended
  have hcumulative : appended.2.cumulative = found.cumulative :=
    appendFills_cumulative _ _ _ _ _ _
  unfold syncFills
  rw [hobs]
  cases observations with
  | nil =>
    obtain ⟨hnone, hsame⟩ := interpret_nil ctx call.now book
    have happended : appended = (.ok (0, 0), { book with nextId := found.nextId }) := by
      simp only [appended, found, hnone, hsame, appendFills]
    rw [happended]
    exact ⟨rfl, hsame.symm, rfl⟩
  | cons o os =>
    dsimp only
    by_cases hnone : found.candidates = []
    · have happended : appended =
          (.ok (0, 0), { book with cumulative := found.cumulative, nextId := found.nextId }) := by
        simp only [appended, hnone, appendFills]
      rw [happended, if_pos hnone]
      exact ⟨rfl, rfl, rfl⟩
    · rw [if_neg hnone]
      cases hresult : appendFills ctx call.feeTaxPolicy
          (interpret ctx call.now book (o :: os)).candidates 0 0 _ with
      | mk outcome after =>
        have happended : appended = (outcome, after) := hresult
        rw [happended] at hcumulative ⊢
        cases outcome with
        | ok counts => exact ⟨rfl, hcumulative, rfl⟩
        | error e => exact ⟨rfl, hcumulative, rfl⟩

theorem syncStep_accounted (ctx : OrderContext) (book : FillBook) (call : FillCall) :
    Accounted book.stored (syncStep ctx book call).stored (incrementsOf ctx book call)
      (Returns ctx book call) := by
  unfold syncStep Returns incrementsOf
  cases hobs : call.observations with
  | error e =>
    simp only [syncFills, hobs]
    exact Accounted.refl _ _
  | ok observations =>
    obtain ⟨hstored, -, hok⟩ := syncFills_observations ctx hobs book
    rw [hstored, hok]
    exact appendFills_accounted ctx call.feeTaxPolicy _ 0 0 { book with
      cumulative := (interpret ctx call.now book observations).cumulative
      nextId := (interpret ctx call.now book observations).nextId }

theorem syncStep_advances {ctx : OrderContext} (henabled : ctx.appendEnabled = true)
    (book : FillBook) (call : FillCall) :
    (∀ i ∈ incrementsOf ctx book call, 0 < i.fillQuantity) ∧
      quantity (incrementsOf ctx book call) + lastQuantity book.cumulative =
        lastQuantity (syncStep ctx book call).cumulative := by
  unfold syncStep incrementsOf
  cases hobs : call.observations with
  | error e => simp [syncFills, hobs]
  | ok observations =>
    obtain ⟨-, hcumulative, -⟩ := syncFills_observations ctx hobs book
    obtain ⟨hpos, hsum⟩ := interpret_advances henabled call.now book observations
    rw [hcumulative]
    refine ⟨?_, hsum⟩
    intro i hi
    obtain ⟨c, hc, rfl⟩ := List.mem_map.mp hi
    exact hpos c hc

/-- The increments of a run. -/
def increments (ctx : OrderContext) : FillBook → List FillCall → List Increment
  | _, [] => []
  | book, call :: calls =>
    incrementsOf ctx book call ++ increments ctx (syncStep ctx book call) calls

theorem run_accounted (ctx : OrderContext) (book : FillBook) (calls : List FillCall) :
    Accounted book.stored (Runs.run (syncStep ctx) book calls).stored (increments ctx book calls)
      (Runs.Meets (syncStep ctx) (Returns ctx) book calls) := by
  induction calls generalizing book with
  | nil => exact Accounted.refl _ _
  | cons call calls ih => exact (syncStep_accounted ctx book call).trans (ih _)

theorem run_advances {ctx : OrderContext} (henabled : ctx.appendEnabled = true) (book : FillBook)
    (calls : List FillCall) :
    (∀ i ∈ increments ctx book calls, 0 < i.fillQuantity) ∧
      quantity (increments ctx book calls) + lastQuantity book.cumulative =
        lastQuantity (Runs.run (syncStep ctx) book calls).cumulative := by
  induction calls generalizing book with
  | nil => simp [increments]
  | cons call calls ih =>
    obtain ⟨hpos, hone⟩ := syncStep_advances henabled book call
    obtain ⟨hposrest, hrest⟩ := ih (syncStep ctx book call)
    refine ⟨?_, ?_⟩
    · intro i hi
      rcases List.mem_append.mp hi with hi | hi
      · exact hpos i hi
      · exact hposrest i hi
    · rw [Runs.run_cons, ← hrest, increments, quantity_append]
      linarith

theorem quantity_pos {is : List Increment} (hpos : ∀ i ∈ is, 0 < i.fillQuantity) :
    0 ≤ quantity is ∧ (quantity is = 0 ↔ is = []) := by
  induction is with
  | nil => simp
  | cons i is ih =>
    obtain ⟨hnonneg, -⟩ := ih fun j hj => hpos j (List.mem_cons_of_mem i hj)
    have hi := hpos i (by simp)
    rw [quantity_cons]
    refine ⟨by linarith, fun h => ?_, fun h => nomatch h⟩
    linarith

/-- Every increment of the cumulative state is stored once, discarded for the key of a stored
fill, or abandoned by a call that raised, so that the stored fills add up to the cumulative
quantity exactly when none was discarded or abandoned. -/
theorem syncFills_conserves (ctx : OrderContext) (start : UUID) (calls : List FillCall) :
    let enabled := { ctx with appendEnabled := true }
    let book := Runs.run (syncStep enabled) { nextId := start } calls
    ∃ discarded abandoned : List Increment,
      (book.stored ++ (discarded ++ abandoned)).Perm
        (increments enabled { nextId := start } calls) ∧
      quantity book.stored + quantity discarded + quantity abandoned =
        lastQuantity book.cumulative ∧
      (quantity book.stored = lastQuantity book.cumulative ↔ discarded = [] ∧ abandoned = []) ∧
      (∀ d ∈ discarded, ∃ e ∈ book.stored, SameKey d e) ∧
      (Runs.Meets (syncStep enabled) (Returns enabled) { nextId := start } calls →
        abandoned = []) := by
  intro enabled book
  obtain ⟨-, discarded, abandoned, hperm, hkeys, hreturned⟩ :=
    run_accounted enabled { nextId := start } calls
  obtain ⟨hpos, hsum⟩ :=
    run_advances (show enabled.appendEnabled = true from rfl) { nextId := start } calls
  change (book.stored ++ (discarded ++ abandoned)).Perm ([] ++ _) at hperm
  rw [List.nil_append] at hperm
  have htotal : quantity book.stored + quantity discarded + quantity abandoned =
      lastQuantity book.cumulative := by
    have := quantity_perm hperm
    simp only [quantity_append] at this
    change _ + lastQuantity none = lastQuantity book.cumulative at hsum
    simp only [lastQuantity] at hsum ⊢
    linarith
  have hall : ∀ i ∈ discarded ++ abandoned, 0 < i.fillQuantity := fun i hi =>
    hpos i (hperm.subset (List.mem_append_right _ hi))
  have hlost := quantity_pos hall
  rw [quantity_append, List.append_eq_nil_iff] at hlost
  refine ⟨discarded, abandoned, hperm, htotal, ?_, hkeys, hreturned⟩
  rw [← hlost.2]
  constructor <;> intro h <;> linarith

/-- The settlement reports the order under one execution number while it fills. -/
def reported (cumulative : ℚ) (observedAt : Time) : FillCall where
  observations := .ok [{
    brokerName := .koreaInvestment
    brokerOrderId := "0000117057"
    symbol := "005930"
    side := .buy
    fillQuantity := cumulative
    fillPrice := 70000
    fillTimestamp := observedAt
    brokerFillId := some "E1" }]
  now := observedAt
  feeTaxPolicy := none

def nativeOrder : OrderContext where
  brokerOrderId := 1
  brokerName := "koreainvestment"
  brokerNativeOrderId := some "0000117057"
  accountId := 2

theorem second_half_discarded :
    let book := Runs.run (syncStep nativeOrder) {} [reported 5 100, reported 10 200]
    Runs.Meets (syncStep nativeOrder) (Returns nativeOrder) {} [reported 5 100, reported 10 200] ∧
      quantity book.stored = 5 ∧ lastQuantity book.cumulative = 10 := by
  refine ⟨⟨?_, ?_, trivial⟩, ?_, ?_⟩ <;> decide +kernel

end AgentTrading.Fills

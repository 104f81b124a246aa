import Mathlib.Data.Fintype.EquivFin
import AgentTrading.Backfill.Eligibility

/-! What `apply_backfill_plan` leaves: the quantity stored under each broker order of the plan,
and whether a second application finds everything stored. -/
namespace AgentTrading.Backfill
open Domain RealizedPnl Fills

/-! Which increments are stored already, told from the fills before the call and the increments
before this one, latest first. -/

/-- The broker order of the fill stored last under an identifier. -/
def ownerOf (fills : List FillEventEntity) (brokerFillId : String) :
    List SyntheticFillCandidate → Option UUID
  | [] => (getByBrokerFillId fills brokerFillId).map (·.brokerOrderId)
  | earlier :: before =>
    if fillIdOf earlier.brokerFillId = some brokerFillId then some earlier.brokerOrderId
    else ownerOf fills brokerFillId before

def foundById (fills : List FillEventEntity) (before : List SyntheticFillCandidate)
    (candidate : SyntheticFillCandidate) (brokerFillId : String) : Bool :=
  ownerOf fills brokerFillId before = some candidate.brokerOrderId

/-- Passed over by its identifier. -/
def skippedById (fills : List FillEventEntity) (before : List SyntheticFillCandidate)
    (candidate : SyntheticFillCandidate) : Bool :=
  (fillIdOf candidate.brokerFillId).any (foundById fills before candidate)

/-- Time, price and quantity. -/
def sameKey (a b : SyntheticFillCandidate) : Bool :=
  a.fillTimestamp = b.fillTimestamp ∧ a.fillPrice = b.fillPrice ∧ a.fillQuantity = b.fillQuantity

/-- A fill of the broker order has the increment's time, price and quantity: one stored before,
or an earlier increment that its own identifier did not pass over. -/
def foundByKey (fills : List FillEventEntity) (candidate : SyntheticFillCandidate) :
    List SyntheticFillCandidate → Bool
  | [] => (listByBrokerOrder fills candidate.brokerOrderId).any (compositeDedupMatches · candidate)
  | earlier :: before =>
    (earlier.brokerOrderId = candidate.brokerOrderId && sameKey earlier candidate &&
      !skippedById fills before earlier) || foundByKey fills candidate before

def found (fills : List FillEventEntity) (before : List SyntheticFillCandidate)
    (candidate : SyntheticFillCandidate) : Bool :=
  match fillIdOf candidate.brokerFillId with
  | some brokerFillId => foundById fills before candidate brokerFillId
  | none => foundByKey fills candidate before

/-- The quantity of a broker order's increments that are stored already. -/
def foundQuantity (fills : List FillEventEntity) (brokerOrderId : UUID) :
    List SyntheticFillCandidate → List SyntheticFillCandidate → ℚ
  | _, [] => 0
  | before, candidate :: rest =>
    (if candidate.brokerOrderId = brokerOrderId ∧ found fills before candidate then
      candidate.fillQuantity else 0) +
      foundQuantity fills brokerOrderId (candidate :: before) rest

def storedQuantity (fills : List FillEventEntity) (brokerOrderId : UUID) : ℚ :=
  ((listByBrokerOrder fills brokerOrderId).map (·.fillQuantity)).sum

theorem getByBrokerFillId_append (fills : List FillEventEntity) (fill : FillEventEntity)
    (brokerFillId : String) :
    getByBrokerFillId (fills ++ [fill]) brokerFillId =
      if fill.brokerFillId = some brokerFillId then some fill
      else getByBrokerFillId fills brokerFillId := by
  simp only [getByBrokerFillId, List.reverse_append, List.reverse_cons, List.reverse_nil,
    List.nil_append, List.singleton_append, List.find?_cons]
  by_cases hid : fill.brokerFillId = some brokerFillId
  · simp [hid]
  · simp [hid]

theorem fillIdOf_eq_some (id : Option String) (brokerFillId : String) :
    fillIdOf id = some brokerFillId ↔ id = some brokerFillId ∧ brokerFillId ≠ "" := by
  simp [fillIdOf, Option.filter_eq_some_iff]

/-- The state of the loop in the terms of what it has met. Increments are given latest first. -/
structure Reflects (fills : List FillEventEntity) (before : List SyntheticFillCandidate)
    (p : ApplyProgress) : Prop where
  owner : ∀ brokerFillId, brokerFillId ≠ "" →
    (getByBrokerFillId p.fills brokerFillId).map (·.brokerOrderId) =
      ownerOf fills brokerFillId before
  key : ∀ candidate, (listByBrokerOrder p.fills candidate.brokerOrderId).any
    (compositeDedupMatches · candidate) = foundByKey fills candidate before
  cache : ∀ brokerOrderId rows, p.existingByBrokerOrder brokerOrderId = some rows →
    ∀ fill, fill ∈ rows ↔ fill ∈ listByBrokerOrder p.fills brokerOrderId

theorem reflects_start (fills : List FillEventEntity) : Reflects fills [] { fills := fills } where
  owner := fun _ _ => rfl
  key := fun _ => rfl
  cache := fun _ _ h => nomatch h

section
variable {fills : List FillEventEntity} {before : List SyntheticFillCandidate} {p : ApplyProgress}
  (stamps : Stamps) (candidate : SyntheticFillCandidate)

theorem withExisting_cache (h : Reflects fills before p) :
    ∀ brokerOrderId rows,
      (p.withExisting candidate).existingByBrokerOrder brokerOrderId = some rows →
      ∀ fill, fill ∈ rows ↔ fill ∈ listByBrokerOrder p.fills brokerOrderId := by
  intro brokerOrderId rows hrows
  simp only [ApplyProgress.withExisting, Function.update_apply] at hrows
  split at hrows
  next heq =>
    subst heq
    cases hrows
    cases hcached : p.existingByBrokerOrder candidate.brokerOrderId with
    | none => simp
    | some rows => exact h.cache _ rows hcached
  next => exact h.cache _ rows hrows

theorem withExisting_knownByKey (h : Reflects fills before p) :
    (p.withExisting candidate).knownByKey candidate = foundByKey fills candidate before := by
  rw [← h.key, ApplyProgress.knownByKey]
  have hrows : (p.withExisting candidate).existingByBrokerOrder candidate.brokerOrderId =
      some ((p.existingByBrokerOrder candidate.brokerOrderId).getD
        (listByBrokerOrder p.fills candidate.brokerOrderId)) := by
    simp [ApplyProgress.withExisting]
  have hcache := withExisting_cache candidate h _ _ hrows
  rw [hrows, Option.getD_some, Bool.eq_iff_iff]
  simp only [List.any_eq_true, hcache]

theorem knownById_eq (h : Reflects fills before p) {brokerFillId : String}
    (hid : fillIdOf candidate.brokerFillId = some brokerFillId) :
    p.knownById candidate brokerFillId = foundById fills before candidate brokerFillId := by
  have howner := h.owner brokerFillId ((fillIdOf_eq_some _ _).mp hid).2
  rw [foundById, ← howner, ApplyProgress.knownById]
  cases getByBrokerFillId p.fills brokerFillId <;> simp

theorem listByBrokerOrder_append (fills : List FillEventEntity) (fill : FillEventEntity)
    (brokerOrderId : UUID) :
    listByBrokerOrder (fills ++ [fill]) brokerOrderId =
      listByBrokerOrder fills brokerOrderId ++
        if fill.brokerOrderId = brokerOrderId then [fill] else [] := by
  simp [listByBrokerOrder, List.filter_cons]

theorem foundByKey_congr (fills : List FillEventEntity) {a b : SyntheticFillCandidate}
    (horder : a.brokerOrderId = b.brokerOrderId) (hkey : sameKey a b = true)
    (before : List SyntheticFillCandidate) :
    foundByKey fills a before = foundByKey fills b before := by
  simp only [sameKey, decide_eq_true_eq] at hkey
  obtain ⟨htime, hprice, hquantity⟩ := hkey
  induction before with
  | nil => simp only [foundByKey, horder, compositeDedupMatches, htime, hprice, hquantity]
  | cons earlier before ih =>
    simp only [foundByKey, ih, horder, sameKey, htime, hprice, hquantity]

theorem Reflects.skip (h : Reflects fills before p) (hfound : found fills before candidate = true)
    {p' : ApplyProgress} (hfills : p'.fills = p.fills)
    (hcache : ∀ brokerOrderId rows, p'.existingByBrokerOrder brokerOrderId = some rows →
      ∀ fill, fill ∈ rows ↔ fill ∈ listByBrokerOrder p.fills brokerOrderId) :
    Reflects fills (candidate :: before) p' where
  owner := by
    intro brokerFillId hid
    rw [hfills, h.owner brokerFillId hid, ownerOf]
    split
    next hown => simpa [found, hown, foundById] using hfound
    next => rfl
  key := by
    intro other
    rw [hfills, h.key, foundByKey]
    cases hid : fillIdOf candidate.brokerFillId with
    | some brokerFillId =>
      have hskipped : skippedById fills before candidate = true := by
        simpa [found, hid, skippedById] using hfound
      simp [hskipped]
    | none =>
      have hbyKey : foundByKey fills candidate before = true := by
        simpa [found, hid] using hfound
      by_cases hsame : candidate.brokerOrderId = other.brokerOrderId ∧
          sameKey candidate other = true
      · simp [← foundByKey_congr fills hsame.1 hsame.2, hbyKey]
      · rcases not_and_or.mp hsame with hother | hother <;> simp [hother]
  cache := by
    rw [hfills]
    exact hcache

theorem Reflects.append (h : Reflects fills before p)
    (hfound : found fills before candidate = false) :
    Reflects fills (candidate :: before) ((p.withExisting candidate).append stamps candidate) where
  owner := by
    intro brokerFillId hid
    have hsaved : (fillEventOf stamps p.appended candidate).brokerFillId = some brokerFillId ↔
        fillIdOf candidate.brokerFillId = some brokerFillId := by
      rw [fillIdOf_eq_some, and_iff_left hid]
      rfl
    rw [ownerOf, ← h.owner brokerFillId hid]
    simp only [ApplyProgress.append, ApplyProgress.withExisting, getByBrokerFillId_append, hsaved]
    split
    · rfl
    · rfl
  key := by
    intro other
    have hskipped : skippedById fills before candidate = false := by
      cases hid : fillIdOf candidate.brokerFillId with
      | none => simp [skippedById, hid]
      | some brokerFillId => simpa [found, hid, skippedById] using hfound
    rw [foundByKey, ← h.key, hskipped]
    simp only [ApplyProgress.append, ApplyProgress.withExisting, listByBrokerOrder_append,
      List.any_append]
    rw [Bool.or_comm]
    congr 1
    by_cases hsame : candidate.brokerOrderId = other.brokerOrderId
    · simp [fillEventOf, hsame, compositeDedupMatches, sameKey]
    · simp [fillEventOf, hsame]
  cache := by
    intro brokerOrderId rows hrows fill
    have hbefore := withExisting_cache candidate h
    simp only [ApplyProgress.append, Function.update_apply] at hrows
    have hfills : ((p.withExisting candidate).append stamps candidate).fills =
        p.fills ++ [fillEventOf stamps p.appended candidate] := rfl
    rw [hfills, listByBrokerOrder_append]
    split at hrows
    next heq =>
      cases hrows
      have hread : (p.withExisting candidate).existingByBrokerOrder candidate.brokerOrderId =
          some ((p.existingByBrokerOrder candidate.brokerOrderId).getD
            (listByBrokerOrder p.fills candidate.brokerOrderId)) := by
        simp [ApplyProgress.withExisting]
      have hmem := hbefore _ _ hread fill
      rw [hread, heq, if_pos (show (fillEventOf stamps p.appended candidate).brokerOrderId =
        candidate.brokerOrderId from rfl), List.mem_append, List.mem_append, Option.getD_some, hmem]
      rfl
    next hne =>
      have hother : (fillEventOf stamps p.appended candidate).brokerOrderId ≠ brokerOrderId :=
        fun heq => hne heq.symm
      rw [if_neg hother, List.append_nil]
      exact hbefore _ _ hrows fill

theorem apply_found (h : Reflects fills before p) (hfound : found fills before candidate = true) :
    Reflects fills (candidate :: before) (p.apply stamps candidate) ∧
      (p.apply stamps candidate).fills = p.fills ∧
      (p.apply stamps candidate).appended = p.appended ∧
      (p.apply stamps candidate).lastAppended = p.lastAppended := by
  unfold ApplyProgress.apply
  cases hid : fillIdOf candidate.brokerFillId with
  | some brokerFillId =>
    have hknown : p.knownById candidate brokerFillId = true := by
      rw [knownById_eq candidate h hid]
      simpa [found, hid] using hfound
    simp only [if_pos hknown]
    exact ⟨h.skip candidate hfound rfl h.cache, rfl, rfl, rfl⟩
  | none =>
    have hknown : (p.withExisting candidate).knownByKey candidate = true := by
      rw [withExisting_knownByKey candidate h]
      simpa [found, hid] using hfound
    simp only [if_pos hknown]
    exact ⟨h.skip candidate hfound rfl (withExisting_cache candidate h), rfl, rfl, rfl⟩

theorem apply_new (h : Reflects fills before p) (hfound : found fills before candidate = false) :
    p.apply stamps candidate = (p.withExisting candidate).append stamps candidate := by
  unfold ApplyProgress.apply
  cases hid : fillIdOf candidate.brokerFillId with
  | some brokerFillId =>
    have hknown : ¬ p.knownById candidate brokerFillId = true := by
      rw [knownById_eq candidate h hid]
      simpa [found, hid] using hfound
    simp only [if_neg hknown]
  | none =>
    have hknown : ¬ (p.withExisting candidate).knownByKey candidate = true := by
      rw [withExisting_knownByKey candidate h]
      simpa [found, hid] using hfound
    simp only [if_neg hknown]

theorem apply_reflects (h : Reflects fills before p) :
    Reflects fills (candidate :: before) (p.apply stamps candidate) := by
  cases hfound : found fills before candidate with
  | true => exact (apply_found stamps candidate h hfound).1
  | false =>
    rw [apply_new stamps candidate h hfound]
    exact h.append stamps candidate hfound

/-- The quantity of a broker order's increments. -/
def plannedQuantity (brokerOrderId : UUID) (candidates : List SyntheticFillCandidate) : ℚ :=
  ((candidates.filter (·.brokerOrderId = brokerOrderId)).map (·.fillQuantity)).sum

theorem storedQuantity_append (fills : List FillEventEntity) (fill : FillEventEntity)
    (brokerOrderId : UUID) :
    storedQuantity (fills ++ [fill]) brokerOrderId = storedQuantity fills brokerOrderId +
      if fill.brokerOrderId = brokerOrderId then fill.fillQuantity else 0 := by
  rw [storedQuantity, listByBrokerOrder_append, List.map_append, List.sum_append]
  split <;> simp [storedQuantity]

theorem apply_storedQuantity (h : Reflects fills before p) (brokerOrderId : UUID) :
    storedQuantity (p.apply stamps candidate).fills brokerOrderId +
        (if candidate.brokerOrderId = brokerOrderId ∧ found fills before candidate then
          candidate.fillQuantity else 0) =
      storedQuantity p.fills brokerOrderId +
        if candidate.brokerOrderId = brokerOrderId then candidate.fillQuantity else 0 := by
  cases hfound : found fills before candidate with
  | true => simp [(apply_found stamps candidate h hfound).2.1]
  | false =>
    rw [apply_new stamps candidate h hfound]
    simp only [ApplyProgress.append, ApplyProgress.withExisting, storedQuantity_append,
      Bool.false_eq_true, and_false, if_false, add_zero]
    rfl

/-- What is stored afterwards: what was stored, and the increments that were not found. -/
theorem applyAll_storedQuantity (candidates : List SyntheticFillCandidate)
    (h : Reflects fills before p) (brokerOrderId : UUID) :
    Reflects fills (candidates.reverse ++ before)
        (candidates.foldl (fun p candidate => p.apply stamps candidate) p) ∧
      storedQuantity (candidates.foldl (fun p candidate => p.apply stamps candidate) p).fills
          brokerOrderId + foundQuantity fills brokerOrderId before candidates =
        storedQuantity p.fills brokerOrderId + plannedQuantity brokerOrderId candidates := by
  induction candidates generalizing before p with
  | nil => exact ⟨h, by simp [foundQuantity, plannedQuantity]⟩
  | cons candidate candidates ih =>
    have hstep := apply_storedQuantity stamps candidate h brokerOrderId
    obtain ⟨hreflects, hrest⟩ := ih (apply_reflects stamps candidate h)
    constructor
    · rw [List.reverse_cons, List.append_assoc]
      exact hreflects
    · have hplanned : plannedQuantity brokerOrderId (candidate :: candidates) =
          (if candidate.brokerOrderId = brokerOrderId then candidate.fillQuantity else 0) +
            plannedQuantity brokerOrderId candidates := by
        by_cases hmine : candidate.brokerOrderId = brokerOrderId <;>
          simp [plannedQuantity, hmine]
      rw [List.foldl_cons, foundQuantity, hplanned]
      linarith

theorem applyCandidates_storedQuantity (fills : List FillEventEntity)
    (candidates : List SyntheticFillCandidate) (brokerOrderId : UUID) :
    storedQuantity (applyCandidates stamps fills candidates).fills brokerOrderId +
        foundQuantity fills brokerOrderId [] candidates =
      storedQuantity fills brokerOrderId + plannedQuantity brokerOrderId candidates :=
  (applyAll_storedQuantity stamps candidates (reflects_start fills) brokerOrderId).2

theorem applyCandidates_reflects (fills : List FillEventEntity)
    (candidates : List SyntheticFillCandidate) :
    Reflects fills candidates.reverse (applyCandidates stamps fills candidates) := by
  have h := (applyAll_storedQuantity stamps candidates (reflects_start fills) 0).1
  rwa [List.append_nil] at h

/-- The increment is found among the fills themselves. -/
def Present (fills : List FillEventEntity) (candidate : SyntheticFillCandidate) : Prop :=
  found fills [] candidate = true

theorem present_iff (h : Reflects fills before p) :
    Present p.fills candidate ↔ found fills before candidate = true := by
  unfold Present found
  cases hid : fillIdOf candidate.brokerFillId with
  | some brokerFillId =>
    have howner := h.owner brokerFillId ((fillIdOf_eq_some _ _).mp hid).2
    simp only [foundById, ownerOf, howner]
  | none => simp only [foundByKey, h.key]

theorem apply_extends : p.fills.length ≤ (p.apply stamps candidate).fills.length := by
  unfold ApplyProgress.apply
  split
  · split <;> simp [ApplyProgress.skip, ApplyProgress.append, ApplyProgress.withExisting]
  · split <;> simp [ApplyProgress.skip, ApplyProgress.append, ApplyProgress.withExisting]

theorem applyAll_extends (candidates : List SyntheticFillCandidate) (p : ApplyProgress) :
    p.fills.length ≤
      (candidates.foldl (fun p candidate => p.apply stamps candidate) p).fills.length := by
  induction candidates generalizing p with
  | nil => exact le_rfl
  | cons candidate candidates ih =>
    exact (apply_extends stamps candidate).trans (ih (p.apply stamps candidate))

theorem applyAll_fills_iff (candidates : List SyntheticFillCandidate)
    (h : Reflects fills before p) :
    (candidates.foldl (fun p candidate => p.apply stamps candidate) p).fills = p.fills ↔
      ∀ candidate ∈ candidates, Present p.fills candidate := by
  induction candidates generalizing before p with
  | nil => simp
  | cons candidate candidates ih =>
    rw [List.foldl_cons, List.forall_mem_cons, present_iff candidate h]
    cases hfound : found fills before candidate with
    | true =>
      obtain ⟨hreflects, hfills, -, -⟩ := apply_found stamps candidate h hfound
      have hrest := ih hreflects
      rw [hfills] at hrest
      simpa using hrest
    | false =>
      have hnext := applyAll_extends stamps candidates (p.apply stamps candidate)
      rw [apply_new stamps candidate h hfound] at hnext ⊢
      simp only [Bool.false_eq_true, false_and, iff_false]
      intro hsame
      rw [hsame] at hnext
      simp [ApplyProgress.append, ApplyProgress.withExisting] at hnext

theorem applyCandidates_fills_iff (fills : List FillEventEntity)
    (candidates : List SyntheticFillCandidate) :
    (applyCandidates stamps fills candidates).fills = fills ↔
      ∀ candidate ∈ candidates, Present fills candidate :=
  applyAll_fills_iff stamps candidates (reflects_start fills)

end

/-- No broker fill identifier is borne by increments of two broker orders. -/
def Unshared (candidates : List SyntheticFillCandidate) : Prop :=
  ∀ a ∈ candidates, ∀ b ∈ candidates, ∀ brokerFillId, fillIdOf a.brokerFillId = some brokerFillId →
    fillIdOf b.brokerFillId = some brokerFillId → a.brokerOrderId = b.brokerOrderId

theorem ownerOf_mem (fills : List FillEventEntity) {brokerFillId : String}
    {before : List SyntheticFillCandidate} {candidate : SyntheticFillCandidate}
    (hmem : candidate ∈ before) (hid : fillIdOf candidate.brokerFillId = some brokerFillId) :
    ∃ last ∈ before, fillIdOf last.brokerFillId = some brokerFillId ∧
      ownerOf fills brokerFillId before = some last.brokerOrderId := by
  induction before with
  | nil => cases hmem
  | cons first before ih =>
    rw [ownerOf]
    by_cases hfirst : fillIdOf first.brokerFillId = some brokerFillId
    · exact ⟨first, List.mem_cons_self, hfirst, if_pos hfirst⟩
    · rcases List.mem_cons.mp hmem with rfl | hmem
      · exact (hfirst hid).elim
      · obtain ⟨last, hlast, hlastId, howner⟩ := ih hmem
        exact ⟨last, List.mem_cons_of_mem _ hlast, hlastId, by rw [if_neg hfirst, howner]⟩

theorem foundByKey_mem (fills : List FillEventEntity) {candidate earlier : SyntheticFillCandidate}
    {before : List SyntheticFillCandidate} (hmem : earlier ∈ before)
    (hid : fillIdOf earlier.brokerFillId = none)
    (horder : earlier.brokerOrderId = candidate.brokerOrderId)
    (hkey : sameKey earlier candidate = true) : foundByKey fills candidate before = true := by
  induction before with
  | nil => cases hmem
  | cons first before ih =>
    rw [foundByKey]
    rcases List.mem_cons.mp hmem with rfl | hmem
    · simp [horder, hkey, skippedById, hid]
    · simp [ih hmem]

section
variable {fills : List FillEventEntity} {candidates : List SyntheticFillCandidate}
  (stamps : Stamps)

theorem present_again (hunshared : Unshared candidates) {applied candidate : SyntheticFillCandidate}
    (hmem : applied ∈ candidates) (horder : applied.brokerOrderId = candidate.brokerOrderId)
    (hid : applied.brokerFillId = candidate.brokerFillId)
    (hkey : fillIdOf applied.brokerFillId = none → sameKey applied candidate = true) :
    Present (applyCandidates stamps fills candidates).fills candidate := by
  rw [present_iff candidate (applyCandidates_reflects stamps fills candidates), found, ← hid]
  cases happlied : fillIdOf applied.brokerFillId with
  | none => exact foundByKey_mem fills (List.mem_reverse.mpr hmem) happlied horder (hkey happlied)
  | some brokerFillId =>
    obtain ⟨last, hlast, hlastId, howner⟩ :=
      ownerOf_mem fills (List.mem_reverse.mpr hmem) happlied
    have hsame := hunshared last (List.mem_reverse.mp hlast) applied hmem brokerFillId hlastId
      happlied
    simp [foundById, howner, hsame, horder]

theorem unshared_of_present
    (h : ∀ candidate ∈ candidates,
      Present (applyCandidates stamps fills candidates).fills candidate) :
    Unshared candidates := by
  have hreflects := applyCandidates_reflects stamps fills candidates
  intro a ha b hb brokerFillId haid hbid
  have hpa := (present_iff a hreflects).mp (h a ha)
  have hpb := (present_iff b hreflects).mp (h b hb)
  simp only [found, haid, foundById, decide_eq_true_eq] at hpa
  simp only [found, hbid, foundById, decide_eq_true_eq] at hpb
  exact Option.some.inj (hpa.symm.trans hpb)

end

theorem sameKey_refl (candidate : SyntheticFillCandidate) : sameKey candidate candidate = true := by
  simp [sameKey]

/-- A plan applied twice appends nothing the second time, if and only if no identifier is
shared. -/
theorem applyCandidates_twice_iff (stamps stamps' : Stamps) (fills : List FillEventEntity)
    (candidates : List SyntheticFillCandidate) :
    (applyCandidates stamps' (applyCandidates stamps fills candidates).fills candidates).fills =
        (applyCandidates stamps fills candidates).fills ↔ Unshared candidates := by
  rw [applyCandidates_fills_iff]
  constructor
  · exact unshared_of_present stamps
  · intro hunshared candidate hmem
    exact present_again stamps hunshared hmem rfl rfl fun _ => sameKey_refl candidate

section
variable {reads : BackfillReads} {call : BackfillCall}

theorem brokerOrderIdOf_mem {order : OrderRequestEntity} {brokerOrderId : UUID}
    (h : reads.brokerOrderIdOf order = some brokerOrderId) :
    ∃ brokerOrder ∈ reads.brokerOrders, brokerOrder.brokerOrderId = brokerOrderId ∧
      brokerOrder.orderRequestId = order.orderRequestId := by
  obtain ⟨lineage, hlineage, rfl⟩ := Option.map_eq_some_iff.mp h
  have hok := Library.toOption_eq_some.mp hlineage
  unfold BackfillReads.lineageOf at hok
  split at hok
  · split at hok
    next brokerOrder hfiltered =>
      cases hok
      have hmem := List.mem_singleton_self brokerOrder
      rw [← hfiltered] at hmem
      obtain ⟨hstored, hown⟩ := List.mem_filter.mp hmem
      simp only [decide_eq_true_eq] at hown
      exact ⟨brokerOrder, hstored, rfl, hown.1⟩
    next => cases hok
  · cases hok

theorem brokerOrderIdOf_inj {a b : OrderRequestEntity} {brokerOrderId : UUID}
    (ha : reads.brokerOrderIdOf a = some brokerOrderId)
    (hb : reads.brokerOrderIdOf b = some brokerOrderId) : a.orderRequestId = b.orderRequestId := by
  obtain ⟨brokerOrder, hmem, hid, horder⟩ := brokerOrderIdOf_mem ha
  obtain ⟨brokerOrder', hmem', hid', horder'⟩ := brokerOrderIdOf_mem hb
  have hsame := Library.Keyed.eq_of_key reads.brokerOrders_nodup hmem hmem' (hid.trans hid'.symm)
  rw [← horder, ← horder', hsame]

theorem windowOrders_nodup : ((reads.windowOrders call).map (·.orderRequestId)).Nodup := by
  have hsorted := List.perm_insertionSort createdBefore
    (reads.orders.filter fun order =>
      order.instrumentId = call.instrumentId ∧ order.status = .filled)
  refine List.Nodup.sublist (List.filter_sublist.map _) ?_
  rw [BackfillReads.allFilledOrders, (hsorted.map _).nodup_iff]
  exact reads.orders_nodup.sublist (List.filter_sublist.map _)

theorem plannedQuantity_append (brokerOrderId : UUID) (a b : List SyntheticFillCandidate) :
    plannedQuantity brokerOrderId (a ++ b) =
      plannedQuantity brokerOrderId a + plannedQuantity brokerOrderId b := by
  simp [plannedQuantity]

theorem plannedQuantity_own {brokerOrderId : UUID} {candidates : List SyntheticFillCandidate}
    (h : ∀ candidate ∈ candidates, candidate.brokerOrderId = brokerOrderId) :
    plannedQuantity brokerOrderId candidates = (candidates.map (·.fillQuantity)).sum := by
  rw [plannedQuantity, List.filter_eq_self.mpr (by simpa using h)]

theorem plannedQuantity_other {brokerOrderId : UUID} {candidates : List SyntheticFillCandidate}
    (h : ∀ candidate ∈ candidates, candidate.brokerOrderId ≠ brokerOrderId) :
    plannedQuantity brokerOrderId candidates = 0 := by
  rw [plannedQuantity, List.filter_eq_nil_iff.mpr (by simpa using h)]
  rfl

theorem Decoded.brokerOrder {order : OrderRequestEntity} {detail : OrderBackfillDetail}
    (h : Decoded reads call order detail) {brokerOrderId : UUID}
    (hid : reads.brokerOrderIdOf order = some brokerOrderId) :
    ∀ candidate ∈ detail.candidates, candidate.brokerOrderId = brokerOrderId := by
  intro candidate hmem
  obtain ⟨own, hown, hcandidates⟩ := h.lineage
  rw [(hcandidates candidate hmem).1]
  exact Option.some.inj (hown.symm.trans hid)

theorem plannedQuantity_eq {orders : List OrderRequestEntity} {details : List OrderBackfillDetail}
    (h : List.Forall₂ (Decoded reads call) orders details)
    (hnodup : (orders.map (·.orderRequestId)).Nodup) {brokerOrderId : UUID} :
    ∀ order ∈ orders, reads.brokerOrderIdOf order = some brokerOrderId →
      plannedQuantity brokerOrderId (details.flatMap (·.candidates)) = order.requestedQuantity := by
  have hothers : ∀ {orders : List OrderRequestEntity} {details : List OrderBackfillDetail},
      List.Forall₂ (Decoded reads call) orders details →
      (∀ order ∈ orders, reads.brokerOrderIdOf order ≠ some brokerOrderId) →
      plannedQuantity brokerOrderId (details.flatMap (·.candidates)) = 0 := by
    intro orders details hdecoded hnone
    induction hdecoded with
    | nil => rfl
    | cons hdetail _ ih =>
      obtain ⟨own, hown, hcandidates⟩ := hdetail.lineage
      have hother : own ≠ brokerOrderId := fun heq =>
        hnone _ List.mem_cons_self (by rw [hown, heq])
      rw [List.flatMap_cons, plannedQuantity_append,
        ih fun order hmem => hnone order (List.mem_cons_of_mem _ hmem),
        plannedQuantity_other fun candidate hmem => by rwa [(hcandidates candidate hmem).1],
        add_zero]
  induction h with
  | nil => simp
  | @cons first detail orders details hdetail hrest ih =>
    obtain ⟨hfirst, hnodup⟩ := List.nodup_cons.mp hnodup
    intro order hmem hid
    rw [List.flatMap_cons, plannedQuantity_append]
    rcases List.mem_cons.mp hmem with rfl | hmem
    · rw [plannedQuantity_own (hdetail.brokerOrder hid), hdetail.total, hothers hrest, add_zero]
      intro other hother hotherId
      exact hfirst (List.mem_map.mpr ⟨other, hother, brokerOrderIdOf_inj hotherId hid⟩)
    · rw [ih hnodup order hmem hid, plannedQuantity_other, zero_add]
      obtain ⟨own, hown, hcandidates⟩ := hdetail.lineage
      intro candidate hcandidate heq
      rw [(hcandidates candidate hcandidate).1] at heq
      rw [heq] at hown
      exact hfirst (List.mem_map.mpr ⟨order, hmem, brokerOrderIdOf_inj hid hown⟩)

end

/-! The plan rebuilt from the same orders, snapshots and positions. -/

/-- The reads at another time, under other fee and tax terms. -/
def BackfillReads.under (reads : BackfillReads) (terms : Option FeeTaxTerms) : BackfillReads :=
  { reads with feeTaxTerms := terms }

def BackfillCall.at (call : BackfillCall) (now : Time) : BackfillCall := { call with now := now }

section
variable {reads : BackfillReads} {call : BackfillCall}

theorem eligible_matches {plan : BackfillPlan} (hplan : buildBackfillPlan reads call = .ok plan)
    (heligible : plan.eligible = true) :
    List.Forall₂ (Matches reads.brokerOrderIdOf reads.feeTaxTerms call) plan.syntheticFills
      (reads.rises call) := by
  obtain ⟨first, others, anchor, details, horders, -, hdecoded, rfl⟩ :=
    eligible_parts hplan heligible
  rw [BackfillReads.rises, horders]
  exact matches_flatMap hdecoded

theorem decode_untaxed {terms : Option FeeTaxTerms} {lineage : OrderLineage} (call' : BackfillCall)
    {priorQty : ℚ} {priorPrice : Option ℚ} {snapshots : List BrokerFillSnapshotEntity}
    {candidates : List SyntheticFillCandidate} {final : ℚ}
    (h : decode terms call lineage priorQty priorPrice snapshots = .ok (candidates, final)) :
    ∃ candidates', decode none call' lineage priorQty priorPrice snapshots =
      .ok (candidates', final) := by
  induction snapshots generalizing priorQty priorPrice candidates with
  | nil =>
    cases h
    exact ⟨[], rfl⟩
  | cons snap rest ih =>
    have hcases := decode_cons h
    rw [decode] at h ⊢
    by_cases hcancelled : cancelled snap = true
    · rw [if_pos hcancelled] at h
      cases h
    rw [if_neg hcancelled]
    rcases hcases with ⟨hsame, hrest⟩ | ⟨hrise, price, candidate, found, hprice, -, hrest, -⟩
    · have hzero : snap.filledQuantity - priorQty = 0 := sub_eq_zero.mpr hsame
      rw [if_neg hzero.not_lt, if_pos hzero]
      exact ih hrest
    · have hpositive : 0 < snap.filledQuantity - priorQty := sub_pos.mpr hrise
      rw [if_neg hpositive.le.not_gt, if_neg hpositive.ne', hprice]
      obtain ⟨found', hfound'⟩ := ih hrest
      simp only [candidateOf, candidateCharges, hfound']
      exact ⟨_, rfl⟩

theorem orderDetail_untaxed (call' : BackfillCall) {order : OrderRequestEntity}
    {detail : OrderBackfillDetail} (h : reads.orderDetail call order = .ok detail) :
    ∃ detail', (reads.under none).orderDetail call' order = .ok detail' := by
  unfold BackfillReads.orderDetail at h ⊢
  by_cases hnone : reads.brokerFillSnapshots order.orderRequestId = []
  · rw [if_pos hnone] at h
    cases h
  rw [if_neg hnone] at h
  obtain ⟨lineage, hlineage, h⟩ := Library.bind_eq_ok.mp h
  obtain ⟨⟨candidates, finalQty⟩, hdecode, h⟩ := Library.bind_eq_ok.mp h
  obtain ⟨candidates', hdecode'⟩ := decode_untaxed call' hdecode
  have hnone' : ¬ (reads.under none).brokerFillSnapshots order.orderRequestId = [] := hnone
  have hlineage' : (reads.under none).lineageOf order = .ok lineage := hlineage
  have hdecoded : decode (reads.under none).feeTaxTerms call' lineage 0 none
      ((reads.under none).orderedSnapshots order) = .ok (candidates', finalQty) := hdecode'
  simp only at h
  by_cases hfinal : finalQty ≠ order.requestedQuantity
  · rw [if_pos hfinal] at h
    cases h
  · rw [if_neg hnone', hlineage']
    simp only [bind, Except.bind, hdecoded, if_neg hfinal]
    exact ⟨_, rfl⟩

theorem rebuilt_untaxed {plan : BackfillPlan} (hplan : buildBackfillPlan reads call = .ok plan)
    (heligible : plan.eligible = true) (now : Time) :
    ∃ plan', buildBackfillPlan (reads.under none) (call.at now) = .ok plan' ∧
      plan'.eligible = true := by
  unfold buildBackfillPlan at hplan ⊢
  have horders : (reads.under none).windowOrders (call.at now) = reads.windowOrders call := rfl
  have hanchors : ∀ first, (reads.under none).anchor (call.at now) first =
      reads.anchor call first := fun _ => rfl
  rw [horders]
  split at hplan
  · cases hplan
    cases heligible
  next first others hwindow =>
    simp only [hanchors]
    split at hplan
    · cases hplan
      cases heligible
    next anchor hanchor =>
      split at hplan
      · cases hplan
      · cases hplan
        cases heligible
      next details hdetails =>
        have hreturned : ∀ order ∈ first :: others,
            ∃ detail, (reads.under none).orderDetail (call.at now) order = .ok detail := by
          intro order horder
          obtain ⟨detail, -, hdetail⟩ :=
            Library.paired_left (Library.mapM_eq_ok hdetails) order horder
          exact orderDetail_untaxed (call.at now) hdetail
        obtain ⟨details', hdetails'⟩ := Library.mapM_returns hreturned
        rw [hdetails']
        exact ⟨_, rfl, rfl⟩

end

/-- Applying the plan leaves the fills as they are. -/
def Idle (fills : List FillEventEntity) (plan : BackfillPlan) : Prop :=
  ∀ n stamps ledger, (applyBackfillPlan n stamps plan fills ledger).2.1 = fills

/-- Each order of the plan has its requested quantity, and neither the plan nor one rebuilt
adds to it. -/
structure Completes (reads : BackfillReads) (call : BackfillCall) (plan : BackfillPlan)
    (fills : List FillEventEntity) : Prop where
  total : ∀ order ∈ reads.windowOrders call, ∀ brokerOrderId,
    reads.brokerOrderIdOf order = some brokerOrderId →
      storedQuantity fills brokerOrderId = order.requestedQuantity
  again : Idle fills plan
  rebuilt : ∀ terms now plan', buildBackfillPlan (reads.under terms) (call.at now) = .ok plan' →
    Idle fills plan'

/-- The quantity stored before is that of the increments found stored, no identifier is shared,
and a rise without one bears a time. -/
structure Recognised (reads : BackfillReads) (call : BackfillCall) (plan : BackfillPlan)
    (fills : List FillEventEntity) : Prop where
  counted : ∀ order ∈ reads.windowOrders call, ∀ brokerOrderId,
    reads.brokerOrderIdOf order = some brokerOrderId →
      storedQuantity fills brokerOrderId =
        foundQuantity fills brokerOrderId [] plan.syntheticFills
  unshared : Unshared plan.syntheticFills
  timed : ∀ rise ∈ reads.rises call, fillIdOf rise.snap.brokerFillId = none →
    (rise.snap.fillTimestamp.or rise.snap.updatedAt).isSome = true

theorem applyBackfillPlan_fills {plan : BackfillPlan} (heligible : plan.eligible = true)
    (n : Numerics) (stamps : Stamps) (fills : List FillEventEntity) (ledger : Ledger) :
    (applyBackfillPlan n stamps plan fills ledger).2.1 =
      (applyCandidates stamps fills plan.syntheticFills).fills := by
  unfold applyBackfillPlan
  rw [if_neg (not_not.mpr heligible)]
  simp only
  split
  · rfl
  · rfl

theorem idle_iff {plan : BackfillPlan} (heligible : plan.eligible = true)
    {fills : List FillEventEntity} :
    Idle fills plan ↔ ∀ candidate ∈ plan.syntheticFills, Present fills candidate := by
  constructor
  · intro h
    have hfills := h exact countedStamps Ledger.empty
    rw [applyBackfillPlan_fills heligible] at hfills
    exact (applyCandidates_fills_iff _ fills plan.syntheticFills).mp hfills
  · intro h n stamps ledger
    rw [applyBackfillPlan_fills heligible]
    exact (applyCandidates_fills_iff _ fills plan.syntheticFills).mpr h

theorem idle_ineligible {plan : BackfillPlan} (h : plan.eligible = false)
    (fills : List FillEventEntity) : Idle fills plan := by
  intro n stamps ledger
  simp [applyBackfillPlan, h]

section
variable {reads : BackfillReads} {call : BackfillCall} {plan : BackfillPlan}

theorem plannedQuantity_window (hplan : buildBackfillPlan reads call = .ok plan)
    (heligible : plan.eligible = true) {order : OrderRequestEntity}
    (horder : order ∈ reads.windowOrders call) {brokerOrderId : UUID}
    (hid : reads.brokerOrderIdOf order = some brokerOrderId) :
    plannedQuantity brokerOrderId plan.syntheticFills = order.requestedQuantity := by
  obtain ⟨first, others, anchor, details, horders, -, hdecoded, rfl⟩ :=
    eligible_parts hplan heligible
  have hnodup : ((reads.windowOrders call).map (·.orderRequestId)).Nodup := windowOrders_nodup
  rw [horders] at hnodup horder
  exact plannedQuantity_eq hdecoded hnodup order horder hid

/-- The quantity stored afterwards is the requested one just when what was stored was found. -/
theorem total_iff (hplan : buildBackfillPlan reads call = .ok plan)
    (heligible : plan.eligible = true) (stamps : Stamps) (fills : List FillEventEntity)
    {order : OrderRequestEntity} (horder : order ∈ reads.windowOrders call) {brokerOrderId : UUID}
    (hid : reads.brokerOrderIdOf order = some brokerOrderId) :
    storedQuantity (applyCandidates stamps fills plan.syntheticFills).fills brokerOrderId =
        order.requestedQuantity ↔
      storedQuantity fills brokerOrderId =
        foundQuantity fills brokerOrderId [] plan.syntheticFills := by
  have hstored := applyCandidates_storedQuantity stamps fills plan.syntheticFills brokerOrderId
  rw [plannedQuantity_window hplan heligible horder hid] at hstored
  constructor
  · intro h
    linarith
  · intro h
    linarith

theorem rebuilt_present (hplan : buildBackfillPlan reads call = .ok plan)
    (heligible : plan.eligible = true) (stamps : Stamps) (fills : List FillEventEntity)
    (h : Recognised reads call plan fills) {terms : Option FeeTaxTerms} {now : Time}
    {plan' : BackfillPlan}
    (hplan' : buildBackfillPlan (reads.under terms) (call.at now) = .ok plan')
    (heligible' : plan'.eligible = true) :
    ∀ candidate ∈ plan'.syntheticFills,
      Present (applyCandidates stamps fills plan.syntheticFills).fills candidate := by
  intro candidate hmem
  obtain ⟨rise, hrise, hmatches'⟩ :=
    Library.paired_left (eligible_matches hplan' heligible') candidate hmem
  have hrise : rise ∈ reads.rises call := hrise
  obtain ⟨applied, happlied, hmatches⟩ :=
    Library.paired_right (eligible_matches hplan heligible) rise hrise
  have horder : applied.brokerOrderId = candidate.brokerOrderId :=
    Option.some.inj (hmatches.brokerOrder.symm.trans hmatches'.brokerOrder)
  have hid : applied.brokerFillId = candidate.brokerFillId := by
    rw [hmatches.fillId, hmatches'.fillId]
  apply present_again stamps h.unshared happlied horder hid
  intro hnone
  rw [hmatches.fillId] at hnone
  obtain ⟨seen, hseen⟩ := Option.isSome_iff_exists.mp (h.timed rise hrise hnone)
  have hprice : applied.fillPrice = candidate.fillPrice :=
    Option.some.inj (hmatches.priced.symm.trans hmatches'.priced)
  have htime : applied.fillTimestamp = candidate.fillTimestamp := by
    rw [hmatches.time, hmatches'.time, fillTime, fillTime, hseen]
    rfl
  have hquantity : applied.fillQuantity = candidate.fillQuantity := by
    rw [hmatches.quantity, hmatches'.quantity]
  simp [sameKey, htime, hprice, hquantity]

theorem timed_of_rebuilt (hplan : buildBackfillPlan reads call = .ok plan)
    (heligible : plan.eligible = true) {fills : List FillEventEntity}
    (h : ∀ terms now plan', buildBackfillPlan (reads.under terms) (call.at now) = .ok plan' →
      Idle fills plan') {rise : Rise} (hrise : rise ∈ reads.rises call)
    (hid : fillIdOf rise.snap.brokerFillId = none) :
    (rise.snap.fillTimestamp.or rise.snap.updatedAt).isSome = true := by
  by_contra htime
  rw [Bool.not_eq_true, Option.isSome_eq_false_iff, Option.isNone_iff_eq_none] at htime
  obtain ⟨now, hnow⟩ := Infinite.exists_notMem_finset (fills.map (·.fillTimestamp)).toFinset
  obtain ⟨plan', hplan', heligible'⟩ := rebuilt_untaxed hplan heligible now
  obtain ⟨candidate, hmem, hmatches⟩ :=
    Library.paired_right (eligible_matches hplan' heligible') rise hrise
  have hpresent := (idle_iff heligible').mp (h none now plan' hplan') candidate hmem
  have hstamp : candidate.fillTimestamp = now := by
    rw [hmatches.time, fillTime, htime]
    rfl
  simp only [Present, found, hmatches.fillId, hid, foundByKey, List.any_eq_true] at hpresent
  obtain ⟨fill, hfill, hkey⟩ := hpresent
  apply hnow
  simp only [compositeDedupMatches, decide_eq_true_eq] at hkey
  simp only [List.mem_toFinset, List.mem_map]
  exact ⟨fill, (List.mem_filter.mp hfill).1, hkey.1.trans hstamp⟩

end

/-- An applied plan completes its orders, once, just when what was stored before is recognised. -/
theorem completes_iff (reads : BackfillReads) (call : BackfillCall) (plan : BackfillPlan)
    (hplan : buildBackfillPlan reads call = .ok plan) (heligible : plan.eligible = true)
    (n : Numerics) (stamps : Stamps) (fills : List FillEventEntity) (ledger : Ledger) :
    Completes reads call plan (applyBackfillPlan n stamps plan fills ledger).2.1 ↔
      Recognised reads call plan fills := by
  rw [applyBackfillPlan_fills heligible]
  constructor
  · intro h
    have hagain := (idle_iff heligible).mp h.again
    exact {
      counted := fun order horder brokerOrderId hid =>
        (total_iff hplan heligible stamps fills horder hid).mp
          (h.total order horder brokerOrderId hid)
      unshared := unshared_of_present stamps hagain
      timed := fun rise hrise hid => timed_of_rebuilt hplan heligible h.rebuilt hrise hid }
  · intro h
    have hpresent : ∀ candidate ∈ plan.syntheticFills,
        Present (applyCandidates stamps fills plan.syntheticFills).fills candidate :=
      fun candidate hmem => present_again stamps h.unshared hmem rfl rfl fun _ =>
        sameKey_refl candidate
    exact {
      total := fun order horder brokerOrderId hid =>
        (total_iff hplan heligible stamps fills horder hid).mpr
          (h.counted order horder brokerOrderId hid)
      again := (idle_iff heligible).mpr hpresent
      rebuilt := by
        intro terms now plan' hplan'
        cases heligible' : plan'.eligible with
        | false => exact idle_ineligible heligible' _
        | true =>
          exact (idle_iff heligible').mpr
            (rebuilt_present hplan heligible stamps fills h hplan' heligible') }

/-- The purchase and the sale are stored, each once. -/
theorem completes_boughtAndSold :
    Completes (boughtAndSold [] 1 200) sinceStart (planOf (boughtAndSold [] 1 200))
        (applyBackfillPlan exact countedStamps (planOf (boughtAndSold [] 1 200)) []
          Ledger.empty).2.1 ↔
      Recognised (boughtAndSold [] 1 200) sinceStart (planOf (boughtAndSold [] 1 200)) [] :=
  completes_iff _ _ _ (planOf_built (by decide +kernel)) (by decide +kernel) _ _ _ _

/-- Five and five again, executed in the same second at the same price. -/
def twiceFive : BackfillReads where
  orders := [boughtTen]
  positions := []
  brokerFillSnapshots := fun _ =>
    [{ seenAt 1 5 100 with fillTimestamp := some 50 },
      { seenAt 2 10 100 with fillTimestamp := some 50 }]
  brokerOrders := [brokerOrderOf 1]
  feeTaxTerms := none
  orders_nodup := by decide
  brokerOrders_nodup := by decide

/-- The second five pass for the first: of ten, five are stored. -/
theorem twiceFive_incomplete :
    buildBackfillPlan twiceFive sinceStart = .ok (planOf twiceFive) ∧
      (planOf twiceFive).eligible = true ∧
      ¬ Completes twiceFive sinceStart (planOf twiceFive)
        (applyBackfillPlan exact countedStamps (planOf twiceFive) [] Ledger.empty).2.1 := by
  have heligible : (planOf twiceFive).eligible = true := by decide +kernel
  refine ⟨planOf_built (by decide +kernel), heligible, ?_⟩
  intro h
  have htotal := h.total boughtTen (by decide +kernel) 11 (by decide +kernel)
  rw [applyBackfillPlan_fills heligible] at htotal
  have hstored : storedQuantity
      (applyCandidates countedStamps [] (planOf twiceFive).syntheticFills).fills 11 = 5 := by
    decide +kernel
  rw [hstored] at htotal
  exact absurd htotal (by decide)

end AgentTrading.Backfill

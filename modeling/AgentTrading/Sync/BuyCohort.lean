import Mathlib.Algebra.BigOperators.Group.List.Basic
import Mathlib.Algebra.Order.BigOperators.Group.List
import Mathlib.Tactic.Linarith
import AgentTrading.Orders.TransitionSafety
import AgentTrading.Sync.StoredReads

/-! Buys that share a rise of the position. A buy is taken for filled from the rise between
two snapshots; the others that may have caused it are looked for among the orders created
since this one was submitted. -/
namespace AgentTrading.Sync
open Domain RealizedPnl Library

/-- A buy among the stored orders. The schema refuses quantities that are not positive. -/
structure BuyProbe where
  tables : Tables
  order : OrderRequestEntity
  order_mem : order ∈ tables.trades.orders
  positive : ∀ o ∈ tables.trades.orders, 0 < o.requestedQuantity

def requantify (quantity : PositionSnapshotEntity → ℚ) (snap : PositionSnapshotEntity) :
    PositionSnapshotEntity :=
  { snap with quantity := quantity snap }

/-- The same snapshots with other quantities. -/
def Tables.requantified (tables : Tables) (quantity : PositionSnapshotEntity → ℚ) : Tables where
  trades := tables.trades
  positionSnapshots := tables.positionSnapshots.map (requantify quantity)

/-- The two snapshots compared for an order placed at this time. -/
def Tables.compared (tables : Tables) (order : OrderRequestEntity) :
    Option (Time × Option PositionSnapshotEntity × PositionSnapshotEntity) := do
  let placedAt ← orderTime order
  let post ← tables.earliestAfter order.accountId order.instrumentId placedAt
  return (placedAt, tables.latestBefore order.accountId order.instrumentId placedAt, post)

/-- The position starts at nothing where no earlier snapshot is stored. -/
def increase (pre : Option PositionSnapshotEntity) (post : PositionSnapshotEntity) : ℚ :=
  post.quantity - (pre.map (·.quantity)).getD 0

/-- The other buys of the account and instrument created after the first snapshot and not
later than the second. -/
def competing (tables : Tables) (order : OrderRequestEntity)
    (pre : Option PositionSnapshotEntity) (post : PositionSnapshotEntity) :
    List OrderRequestEntity :=
  tables.trades.orders.filter fun o =>
    o.orderRequestId ≠ order.orderRequestId ∧ o.accountId = order.accountId ∧
      o.instrumentId = order.instrumentId ∧ o.side = .buy ∧
      o.createdAt.any fun created =>
        created ≤ post.snapshotAt ∧ pre.all fun pre => pre.snapshotAt < created

/-- The order is taken for filled only if the rise covers it and its competitors. -/
def FilledCovers (cs : Nat → Choice) (s : State) (tables : Tables) (order : OrderRequestEntity) :
    Prop :=
  ((inferBuyOrderFillViaPositionSafe order).run (Program.drawing tables.exec) (cs, s)).1 =
      .ok (some .filled) →
    ∃ placedAt pre post, tables.compared order = some (placedAt, pre, post) ∧
      order.requestedQuantity + ((competing tables order pre post).map (·.requestedQuantity)).sum ≤
        increase pre post

/-- The orders the code looks through for competitors. -/
def overlappingQuery (order : OrderRequestEntity) (placedAt : Time)
    (post : PositionSnapshotEntity) : OrderQuery :=
  ⟨order.accountId, placedAt, post.snapshotAt, 100⟩

/-- No competitor, or the order and all of its competitors are among the orders listed. -/
def BuyProbe.cohortListed (probe : BuyProbe) : Prop :=
  probe.order.side = .buy →
  ∀ placedAt pre post, probe.tables.compared probe.order = some (placedAt, pre, post) →
    competing probe.tables probe.order pre post = [] ∨
    ∀ o ∈ probe.order :: competing probe.tables probe.order pre post,
      o ∈ probe.tables.listOrders (overlappingQuery probe.order placedAt post)

theorem compared_placed {tables : Tables} {order : OrderRequestEntity} {placedAt : Time}
    {pre : Option PositionSnapshotEntity} {post : PositionSnapshotEntity}
    (h : tables.compared order = some (placedAt, pre, post)) :
    orderTime order = some placedAt ∧
      tables.latestBefore order.accountId order.instrumentId placedAt = pre ∧
      tables.earliestAfter order.accountId order.instrumentId placedAt = some post := by
  simp only [Tables.compared, Option.bind_eq_bind, Option.pure_def, Option.bind_eq_some_iff,
    Option.some.injEq, Prod.mk.injEq] at h
  obtain ⟨placed, hplaced, snap, hsnap, rfl, rfl, rfl⟩ := h
  exact ⟨hplaced, rfl, hsnap⟩

/-- The result from stored tables. -/
def inferredBuy (tables : Tables) (order : OrderRequestEntity) : Option OrderStatus :=
  if order.side = .buy then
    match tables.compared order with
    | none => none
    | some (placedAt, pre, post) =>
      if increase pre post ≤ 0 then none
      else inferFromCohort order (buyCohort order placedAt
        (tables.listOrders (overlappingQuery order placedAt post))) (increase pre post)
  else none

theorem inferBuy_run (tables : Tables) (order : OrderRequestEntity)
    (cs : Nat → Choice) (s : State) :
    ((inferBuyOrderFillViaPositionSafe order).run (Program.drawing tables.exec) (cs, s)).1 =
      .ok (inferredBuy tables order) := by
  unfold inferBuyOrderFillViaPositionSafe inferredBuy
  by_cases hside : order.side = .buy
  · simp only [hside, ne_eq, not_true_eq_false, if_false, if_true, Tables.compared]
    cases hplaced : orderTime order with
    | none => rfl
    | some placedAt =>
      simp only [inferBuyAt, Program.bind_eq, Program.perform_bind, Program.run_call,
        Program.drawing, Tables.exec, Tables.choice, Tables.getLatestBefore, Sync.exec, orRaise,
        Program.ret_bind, Option.bind_eq_bind, Option.bind_some]
      cases hpost : tables.earliestAfter order.accountId order.instrumentId placedAt with
      | none => rfl
      | some post =>
        simp only [Program.run_call, Program.drawing, Tables.exec, Tables.choice, Sync.exec,
          Program.ret_bind, Option.bind_some, Option.pure_def, overlappingQuery]
        split
        · rename_i hrise
          rw [if_pos (show increase _ _ ≤ 0 from hrise)]
          rfl
        · rename_i hrise
          rw [if_neg (show ¬ increase _ _ ≤ 0 from hrise)]
          rfl
  · simp only [hside, ne_eq, not_false_eq_true, if_true, if_false]
    rfl

theorem inferredBuy_filled {tables : Tables} {order : OrderRequestEntity} :
    inferredBuy tables order = some .filled ↔ order.side = .buy ∧
      ∃ placedAt pre post, tables.compared order = some (placedAt, pre, post) ∧
        0 < increase pre post ∧
        inferFromCohort order (buyCohort order placedAt
          (tables.listOrders (overlappingQuery order placedAt post))) (increase pre post) =
            some .filled := by
  unfold inferredBuy
  by_cases hside : order.side = .buy
  · simp only [hside, if_true, true_and]
    cases hcompared : tables.compared order with
    | none => simp
    | some found =>
      obtain ⟨placedAt, pre, post⟩ := found
      by_cases hrise : increase pre post ≤ 0
      · simp [hrise, not_lt.mpr hrise]
      · simp [hrise, not_le.mp hrise]
  · simp [hside]

theorem inferFromCohort_many {order : OrderRequestEntity} {cohort : List OrderRequestEntity}
    {delta : ℚ} (h : 1 < cohort.length) :
    inferFromCohort order cohort delta = some .filled ↔
      delta = (cohort.map (·.requestedQuantity)).sum := by
  simp [inferFromCohort, h]

theorem inferFromCohort_few {order : OrderRequestEntity} {cohort : List OrderRequestEntity}
    {delta : ℚ} (h : ¬ 1 < cohort.length) :
    inferFromCohort order cohort delta = some .filled ↔ order.requestedQuantity ≤ delta := by
  simp [inferFromCohort, h, statusOfDelta]

theorem cohort_subset {tables : Tables} {order : OrderRequestEntity}
    (hmem : order ∈ tables.trades.orders) {placedAt : Time}
    {pre : Option PositionSnapshotEntity} {post : PositionSnapshotEntity}
    (h : tables.compared order = some (placedAt, pre, post)) :
    buyCohort order placedAt (tables.listOrders (overlappingQuery order placedAt post)) ⊆
      order :: competing tables order pre post := by
  intro o ho
  simp only [buyCohort, List.mem_filter, decide_eq_true_eq] at ho
  obtain ⟨hlisted, hinstrument, hbuy, -⟩ := ho
  obtain ⟨hstored, haccount, created, hcreated, hfrom, hto⟩ := Tables.mem_listOrders hlisted
  by_cases hid : o.orderRequestId = order.orderRequestId
  · rw [List.inj_on_of_nodup_map tables.trades.orders_nodup hstored hmem hid]
    exact List.mem_cons_self
  · apply List.mem_cons_of_mem
    have hpre : pre.all (fun pre => pre.snapshotAt < created) = true := by
      cases hsnap : pre with
      | none => rfl
      | some snap =>
        have hbefore := Tables.latestBefore_lt ((compared_placed h).2.1.trans hsnap)
        simpa using hbefore.trans_le hfrom
    simp only [competing, List.mem_filter, decide_eq_true_eq, hcreated, Option.any_some]
    exact ⟨hstored, hid, haccount, hinstrument, hbuy, hto, hpre⟩

theorem cohort_nodup (tables : Tables) (order : OrderRequestEntity) (placedAt : Time)
    (query : OrderQuery) : (buyCohort order placedAt (tables.listOrders query)).Nodup :=
  (Tables.listOrders_nodup tables query).filter _

theorem sharing_nodup (tables : Tables) (order : OrderRequestEntity)
    (pre : Option PositionSnapshotEntity) (post : PositionSnapshotEntity) :
    (order :: competing tables order pre post).Nodup := by
  refine List.nodup_cons.mpr ⟨fun h => ?_, ?_⟩
  · simp [competing] at h
  · exact (List.Nodup.of_map _ tables.trades.orders_nodup).filter _

theorem mem_cohort {tables : Tables} {order o : OrderRequestEntity} {placedAt : Time}
    {pre : Option PositionSnapshotEntity} {post : PositionSnapshotEntity}
    (hbuy : order.side = .buy) (ho : o ∈ order :: competing tables order pre post)
    (hlisted : o ∈ tables.listOrders (overlappingQuery order placedAt post)) :
    o ∈ buyCohort order placedAt (tables.listOrders (overlappingQuery order placedAt post)) := by
  obtain ⟨-, -, created, hcreated, hfrom, -⟩ := Tables.mem_listOrders hlisted
  have hsame : o.instrumentId = order.instrumentId ∧ o.side = .buy := by
    rcases List.mem_cons.mp ho with rfl | hcompeting
    · exact ⟨rfl, hbuy⟩
    · simp only [competing, List.mem_filter, decide_eq_true_eq] at hcompeting
      exact ⟨hcompeting.2.2.2.1, hcompeting.2.2.2.2.1⟩
  simp only [buyCohort, List.mem_filter, decide_eq_true_eq, hcreated, Option.any_some]
  exact ⟨hlisted, hsame.1, hsame.2, hfrom⟩

theorem sum_lt_of_missing {part whole : List OrderRequestEntity} (hpart : part.Nodup)
    (hwhole : whole.Nodup) (hsub : part ⊆ whole)
    (hpos : ∀ o ∈ whole, 0 < o.requestedQuantity) {missing : OrderRequestEntity}
    (hmem : missing ∈ whole) (hmissing : missing ∉ part) :
    (part.map (·.requestedQuantity)).sum < (whole.map (·.requestedQuantity)).sum := by
  have hsplit := List.sum_map_filter_add_sum_map_filter_not (· ∈ part)
    (fun o : OrderRequestEntity => o.requestedQuantity) whole
  have hperm : (whole.filter (· ∈ part)).Perm part := by
    refine (List.perm_ext_iff_of_nodup (hwhole.filter _) hpart).mpr fun o => ?_
    simp only [List.mem_filter, decide_eq_true_eq]
    exact ⟨fun ho => ho.2, fun ho => ⟨hsub ho, ho⟩⟩
  have hrest : 0 < ((whole.filter fun o => ¬ o ∈ part).map (·.requestedQuantity)).sum := by
    apply List.sum_pos
    · intro q hq
      obtain ⟨o, ho, rfl⟩ := List.mem_map.mp hq
      exact hpos o (List.mem_filter.mp ho).1
    · intro hnil
      have hin : missing ∈ whole.filter fun o => ¬ o ∈ part := by
        simp only [List.mem_filter, decide_eq_true_eq]
        exact ⟨hmem, hmissing⟩
      rw [List.map_eq_nil_iff.mp hnil] at hin
      cases hin
  rw [(hperm.map _).sum_eq] at hsplit
  linarith

theorem sharing_positive (probe : BuyProbe) (pre : Option PositionSnapshotEntity)
    (post : PositionSnapshotEntity) :
    ∀ o ∈ probe.order :: competing probe.tables probe.order pre post, 0 < o.requestedQuantity := by
  intro o ho
  rcases List.mem_cons.mp ho with rfl | hcompeting
  · exact probe.positive _ probe.order_mem
  · exact probe.positive o (List.mem_of_mem_filter hcompeting)

/-! Other quantities under the same snapshots. -/

theorem requantified_compared (tables : Tables) (quantity : PositionSnapshotEntity → ℚ)
    (order : OrderRequestEntity) :
    (tables.requantified quantity).compared order =
      (tables.compared order).map fun (placedAt, pre, post) =>
        (placedAt, pre.map (requantify quantity),
          (requantify quantity post)) := by
  have hof : (tables.requantified quantity).snapshotsOf order.accountId order.instrumentId =
      (tables.snapshotsOf order.accountId order.instrumentId).map (requantify quantity) := by
    simp only [Tables.snapshotsOf, Tables.requantified, List.filter_map]
    rfl
  have hbefore : ∀ t, (tables.requantified quantity).latestBefore order.accountId
      order.instrumentId t = (tables.latestBefore order.accountId order.instrumentId t).map
        (requantify quantity) := by
    intro t
    simp only [Tables.latestBefore, hof, List.filter_map, ← List.head?_map]
    rw [List.map_insertionSort snapshotAfter snapshotAfter (requantify quantity) _
      fun _ _ _ _ => Iff.rfl]
    rfl
  have hafter : ∀ t, (tables.requantified quantity).earliestAfter order.accountId
      order.instrumentId t = (tables.earliestAfter order.accountId order.instrumentId t).map
        (requantify quantity) := by
    intro t
    simp only [Tables.earliestAfter, hof, List.filter_map, ← List.head?_map]
    rw [List.map_insertionSort snapshotBefore snapshotBefore (requantify quantity) _
      fun _ _ _ _ => Iff.rfl]
    rfl
  simp only [Tables.compared, hbefore, hafter, Option.bind_eq_bind, Option.pure_def]
  cases orderTime order with
  | none => rfl
  | some placedAt =>
    simp only [Option.bind_some]
    cases tables.earliestAfter order.accountId order.instrumentId placedAt <;> rfl

theorem requantified_competing (tables : Tables) (quantity : PositionSnapshotEntity → ℚ)
    (order : OrderRequestEntity) (pre : Option PositionSnapshotEntity)
    (post : PositionSnapshotEntity) :
    competing (tables.requantified quantity) order (pre.map (requantify quantity))
      (requantify quantity post) = competing tables order pre post := by
  cases pre <;> rfl

theorem exists_increase {tables : Tables} {order : OrderRequestEntity} {placedAt : Time}
    {pre : Option PositionSnapshotEntity} {post : PositionSnapshotEntity}
    (h : tables.compared order = some (placedAt, pre, post)) (delta : ℚ) :
    ∃ quantity : PositionSnapshotEntity → ℚ,
      increase (pre.map (requantify quantity))
        (requantify quantity post) = delta := by
  refine ⟨fun snap => if snap = post then delta else 0, ?_⟩
  obtain ⟨-, hpre, hpost⟩ := compared_placed h
  cases hsnap : pre with
  | none => simp [increase, requantify]
  | some snap =>
    have hbefore := Tables.latestBefore_lt (hpre.trans hsnap)
    have hafter := Tables.lt_earliestAfter hpost
    have hne : snap ≠ post := by
      rintro rfl
      exact lt_asymm hbefore hafter
    simp [increase, requantify, hne]

theorem requantified_filled {tables : Tables} {order : OrderRequestEntity} {placedAt : Time}
    {pre : Option PositionSnapshotEntity} {post : PositionSnapshotEntity}
    (h : tables.compared order = some (placedAt, pre, post)) (hbuy : order.side = .buy)
    (quantity : PositionSnapshotEntity → ℚ) :
    inferredBuy (tables.requantified quantity) order = some .filled ↔
      0 < increase (pre.map (requantify quantity))
          (requantify quantity post) ∧
        inferFromCohort order (buyCohort order placedAt
          (tables.listOrders (overlappingQuery order placedAt post)))
          (increase (pre.map (requantify quantity))
            (requantify quantity post)) = some .filled := by
  have hcompared := requantified_compared tables quantity order
  rw [h, Option.map_some] at hcompared
  rw [inferredBuy_filled, hcompared]
  constructor
  · rintro ⟨-, placed, pre', post', heq, hrise, hfilled⟩
    simp only [Option.some.injEq, Prod.mk.injEq] at heq
    obtain ⟨rfl, rfl, rfl⟩ := heq
    exact ⟨hrise, hfilled⟩
  · rintro ⟨hrise, hfilled⟩
    exact ⟨hbuy, placedAt, _, _, rfl, hrise, hfilled⟩

theorem requantified_covers {tables : Tables} {order : OrderRequestEntity} {placedAt : Time}
    {pre : Option PositionSnapshotEntity} {post : PositionSnapshotEntity}
    (h : tables.compared order = some (placedAt, pre, post)) {cs : Nat → Choice} {s : State}
    (quantity : PositionSnapshotEntity → ℚ)
    (hcovers : FilledCovers cs s (tables.requantified quantity) order)
    (hfilled : inferredBuy (tables.requantified quantity) order = some .filled) :
    order.requestedQuantity + ((competing tables order pre post).map (·.requestedQuantity)).sum ≤
      increase (pre.map (requantify quantity))
        (requantify quantity post) := by
  have hrun := inferBuy_run (tables.requantified quantity) order cs s
  rw [hfilled] at hrun
  obtain ⟨placed, pre', post', hcompared, hle⟩ := hcovers hrun
  rw [requantified_compared, h] at hcompared
  simp only [Option.map_some, Option.some.injEq, Prod.mk.injEq] at hcompared
  obtain ⟨rfl, rfl, rfl⟩ := hcompared
  rwa [requantified_competing] at hle

theorem cohort_short {tables : Tables} {order : OrderRequestEntity}
    (hmem : order ∈ tables.trades.orders) {placedAt : Time}
    {pre : Option PositionSnapshotEntity} {post : PositionSnapshotEntity}
    (h : tables.compared order = some (placedAt, pre, post))
    (halone : competing tables order pre post = []) :
    ¬ 1 < (buyCohort order placedAt
      (tables.listOrders (overlappingQuery order placedAt post))).length := by
  have hsub := cohort_subset hmem h
  rw [halone] at hsub
  have hle := (List.subperm_of_subset (cohort_nodup tables order placedAt _) hsub).length_le
  simpa using hle

theorem cohort_perm {tables : Tables} {order : OrderRequestEntity}
    (hmem : order ∈ tables.trades.orders) (hbuy : order.side = .buy) {placedAt : Time}
    {pre : Option PositionSnapshotEntity} {post : PositionSnapshotEntity}
    (h : tables.compared order = some (placedAt, pre, post))
    (hlisted : ∀ o ∈ order :: competing tables order pre post,
      o ∈ tables.listOrders (overlappingQuery order placedAt post)) :
    (buyCohort order placedAt (tables.listOrders (overlappingQuery order placedAt post))).Perm
      (order :: competing tables order pre post) := by
  refine (List.perm_ext_iff_of_nodup (cohort_nodup ..) (sharing_nodup ..)).mpr fun o => ?_
  exact ⟨fun ho => cohort_subset hmem h ho, fun ho => mem_cohort hbuy ho (hlisted o ho)⟩

theorem covers_of_listed (probe : BuyProbe) (cs : Nat → Choice) (s : State)
    (h : probe.cohortListed) (quantity : PositionSnapshotEntity → ℚ) :
    FilledCovers cs s (probe.tables.requantified quantity) probe.order := by
  intro hrun
  rw [inferBuy_run, Except.ok.injEq] at hrun
  obtain ⟨hbuy, placed, pre', post', hcompared', -, -⟩ := inferredBuy_filled.mp hrun
  have hcompared := hcompared'
  rw [requantified_compared, Option.map_eq_some_iff] at hcompared
  obtain ⟨⟨placedAt, pre, post⟩, hfound, heq⟩ := hcompared
  simp only [Prod.mk.injEq] at heq
  obtain ⟨rfl, rfl, rfl⟩ := heq
  obtain ⟨hrise, hfilled⟩ := (requantified_filled hfound hbuy quantity).mp hrun
  refine ⟨placedAt, _, _, hcompared', ?_⟩
  rw [requantified_competing]
  rcases h hbuy placedAt pre post hfound with halone | hlisted
  · rw [inferFromCohort_few (cohort_short probe.order_mem hfound halone)] at hfilled
    rw [halone]
    simpa using hfilled
  · have hperm := cohort_perm probe.order_mem hbuy hfound hlisted
    by_cases halone : competing probe.tables probe.order pre post = []
    · rw [inferFromCohort_few (cohort_short probe.order_mem hfound halone)] at hfilled
      rw [halone]
      simpa using hfilled
    · have hmany : 1 < (probe.order :: competing probe.tables probe.order pre post).length := by
        have hpos := List.length_pos_iff.mpr halone
        simpa using hpos
      rw [inferFromCohort_many (by rwa [hperm.length_eq]), (hperm.map _).sum_eq, List.map_cons,
        List.sum_cons] at hfilled
      exact hfilled.ge

/-- A rise the code takes for a filled order although it does not cover the competitors. -/
theorem exists_uncovered (probe : BuyProbe) {placedAt : Time}
    {pre : Option PositionSnapshotEntity} {post : PositionSnapshotEntity}
    (h : probe.tables.compared probe.order = some (placedAt, pre, post))
    (hcompeting : competing probe.tables probe.order pre post ≠ [])
    {missing : OrderRequestEntity}
    (hmem : missing ∈ probe.order :: competing probe.tables probe.order pre post)
    (hmissing : missing ∉ probe.tables.listOrders (overlappingQuery probe.order placedAt post)) :
    ∃ delta, 0 < delta ∧
      inferFromCohort probe.order (buyCohort probe.order placedAt (probe.tables.listOrders
        (overlappingQuery probe.order placedAt post))) delta = some .filled ∧
      delta < probe.order.requestedQuantity +
        ((competing probe.tables probe.order pre post).map (·.requestedQuantity)).sum := by
  have hpos := sharing_positive probe pre post
  by_cases hmany : 1 < (buyCohort probe.order placedAt
      (probe.tables.listOrders (overlappingQuery probe.order placedAt post))).length
  · have hsub := cohort_subset probe.order_mem h
    refine ⟨_, ?_, (inferFromCohort_many hmany).mpr rfl, ?_⟩
    · apply List.sum_pos
      · intro q hq
        obtain ⟨o, ho, rfl⟩ := List.mem_map.mp hq
        exact hpos o (hsub ho)
      · intro hnil
        rw [List.map_eq_nil_iff.mp hnil] at hmany
        simp at hmany
    · have hlt := sum_lt_of_missing (cohort_nodup ..) (sharing_nodup ..) hsub hpos hmem
        fun hin => hmissing (List.mem_of_mem_filter hin)
      simpa only [List.map_cons, List.sum_cons] using hlt
  · refine ⟨probe.order.requestedQuantity, hpos _ List.mem_cons_self,
      (inferFromCohort_few hmany).mpr le_rfl, ?_⟩
    have hrest : 0 < ((competing probe.tables probe.order pre post).map
        (·.requestedQuantity)).sum := by
      apply List.sum_pos
      · intro q hq
        obtain ⟨o, ho, rfl⟩ := List.mem_map.mp hq
        exact hpos o (List.mem_cons_of_mem _ ho)
      · simpa using hcompeting
    linarith

/-- Whatever the quantities, a buy is taken for filled only when the rise covers it with its
competitors, exactly when it has none or all of them and itself are listed. -/
theorem filledCovers_iff (probe : BuyProbe) (cs : Nat → Choice) (s : State) :
    (∀ quantity, FilledCovers cs s (probe.tables.requantified quantity) probe.order) ↔
      probe.cohortListed := by
  constructor
  · intro hcovers hbuy placedAt pre post h
    by_contra hneither
    simp only [not_or, not_forall] at hneither
    obtain ⟨hcompeting, missing, hmem, hmissing⟩ := hneither
    obtain ⟨delta, hpos, hfilled, hlt⟩ :=
      exists_uncovered probe h hcompeting hmem hmissing
    obtain ⟨quantity, hquantity⟩ := exists_increase h delta
    have hinferred : inferredBuy (probe.tables.requantified quantity) probe.order =
        some .filled := by
      rw [requantified_filled h hbuy, hquantity]
      exact ⟨hpos, hfilled⟩
    have hle := requantified_covers h quantity (hcovers quantity) hinferred
    rw [hquantity] at hle
    exact absurd hlt (not_lt.mpr hle)
  · exact covers_of_listed probe cs s

/-- Two buys of ten shares each. The first was submitted a second after it was created, and
the second was created between that and the next snapshot. -/
def twoBuys : BuyProbe where
  tables :=
    { trades :=
        { orders := [
            { Orders.sampleOrder .submitted with
              createdAt := some 1000000
              submittedAt := some 2000000 },
            { Orders.sampleOrder .submitted with
              orderRequestId := 9
              createdAt := some 3000000
              submittedAt := some 4000000 }]
          brokerOrders := []
          fillEvents := []
          orders_nodup := List.nodup_cons.mpr ⟨by decide, List.nodup_singleton _⟩
          brokerOrders_nodup := List.nodup_nil
          fillEvents_nodup := List.nodup_nil }
      positionSnapshots := [⟨2, 3, 0, 500000⟩, ⟨2, 3, 10, 5000000⟩] }
  order :=
    { Orders.sampleOrder .submitted with
      createdAt := some 1000000
      submittedAt := some 2000000 }
  order_mem := List.mem_cons_self
  positive := by decide +kernel

def twoBuysStored : State where
  store := Repositories.Store.holding twoBuys.order 6000000
  appendEnabled := false

/-- Ten shares more are taken for the first buy, although two buys of ten were under way. -/
theorem twoBuys_uncovered :
    ((inferBuyOrderFillViaPositionSafe twoBuys.order).run
      (Program.drawing twoBuys.tables.exec) (fun _ => unanswered, twoBuysStored)).1 =
        .ok (some .filled) ∧
    ¬ FilledCovers (fun _ => unanswered) twoBuysStored twoBuys.tables twoBuys.order := by
  have hinferred : inferredBuy twoBuys.tables twoBuys.order = some .filled := by decide +kernel
  have hrun := inferBuy_run twoBuys.tables twoBuys.order (fun _ => unanswered) twoBuysStored
  rw [hinferred] at hrun
  refine ⟨hrun, fun hcovers => ?_⟩
  obtain ⟨placedAt, pre, post, hcompared, hle⟩ := hcovers hrun
  have hfound : twoBuys.tables.compared twoBuys.order =
      some (2000000, some ⟨2, 3, 0, 500000⟩, ⟨2, 3, 10, 5000000⟩) := by
    decide +kernel
  rw [hfound] at hcompared
  simp only [Option.some.injEq, Prod.mk.injEq] at hcompared
  obtain ⟨rfl, rfl, rfl⟩ := hcompared
  revert hle
  decide +kernel

end AgentTrading.Sync

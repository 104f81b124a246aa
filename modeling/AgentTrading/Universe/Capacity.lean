import AgentTrading.Universe.Selection

/-! The daily cap in closed form. The loop over the sorted candidates keeps every held position
and the reserve of unsettled orders, and of the rest as many as the cap allows, the events and
the core symbols within limits of their own. -/
namespace AgentTrading.Universe
open Domain Kis Library.Keyed Library.Latest Library.Quota Library.Contest

/-- The entries of one source, in their order. -/
def ofSource (t : SourceType) (l : List SelectedSymbol) : List SelectedSymbol :=
  l.filter (·.sourceType = t)

theorem sourceType_of_mem {t : SourceType} {l : List SelectedSymbol} {s : SelectedSymbol}
    (h : s ∈ ofSource t l) : s.sourceType = t := by
  simpa using (List.mem_filter.mp h).2

theorem filter_priority (t : SourceType) (l : List SelectedSymbol) :
    l.filter (·.priority = t.priority) = ofSource t l := by
  apply List.filter_congr
  intro s _
  simp only [decide_eq_decide]
  constructor
  · exact SourceType.priority_injective
  · exact congrArg SourceType.priority

theorem eq_blocks_of_sorted {l : List SelectedSymbol}
    (h : l.Pairwise fun a b => a.priority ≤ b.priority) :
    l = ofSource .heldPosition l ++ (ofSource .reconciliationOverlay l ++
      (ofSource .eventOverlay l ++ (ofSource .marketOverlay l ++
        (ofSource .manual l ++ ofSource .core l)))) := by
  have hhigh : ∀ s ∈ l, s.priority < 0 + 6 := by
    intro s _
    unfold SelectedSymbol.priority
    cases s.sourceType <;> decide
  have hblocks := eq_flatMap_of_sorted h 0 6 (fun _ _ => Nat.zero_le _) hhigh
  simp only [List.range', List.flatMap_cons, List.flatMap_nil, List.append_nil] at hblocks
  simp only [← filter_priority]
  exact hblocks

section Loop

variable (ctx : CompositionContext)

theorem applyCapLoop_held (n : CapCounters) {l : List SelectedSymbol}
    (h : ∀ s ∈ l, s.sourceType = .heldPosition) (rest : List SelectedSymbol) :
    applyCapLoop ctx n (l ++ rest) = l ++ applyCapLoop ctx n rest := by
  induction l with
  | nil => rfl
  | cons s l ih =>
    rw [List.forall_mem_cons] at h
    rw [List.cons_append, applyCapLoop, if_pos h.1, ih h.2]
    rfl

/-- Counted towards the cap: neither held nor within the reserve. -/
def Counted (exempt : Nat) (s : SelectedSymbol) : Prop :=
  s.sourceType ≠ .heldPosition ∧ (s.sourceType = .reconciliationOverlay →
    reached ctx.reconciliationOverlayReserve exempt = true)

/-- The counted entries that the limits of their sources leave. -/
def eligible : Nat → Nat → List SelectedSymbol → List SelectedSymbol
  | _, _, [] => []
  | core, event, s :: rest =>
    if s.sourceType = .core then
      if reached ctx.coreCap core then eligible core event rest
      else s :: eligible (core + 1) event rest
    else if s.sourceType = .eventOverlay then
      if reached ctx.eventOverlayCap event then eligible core event rest
      else s :: eligible core (event + 1) rest
    else s :: eligible core event rest

theorem applyCapLoop_counted (n : CapCounters) {l : List SelectedSymbol}
    (h : ∀ s ∈ l, Counted ctx n.reconciliationExempt s) : applyCapLoop ctx n l =
      takeUpTo (left ctx.maxCap n.nonHeld) (eligible ctx n.core n.event l) := by
  induction l generalizing n with
  | nil => simp [applyCapLoop, eligible]
  | cons s l ih =>
    rw [List.forall_mem_cons] at h
    have hexempt : (decide (s.sourceType = .reconciliationOverlay) &&
        !reached ctx.reconciliationOverlayReserve n.reconciliationExempt) = false := by
      cases hsource : decide (s.sourceType = .reconciliationOverlay) with
      | false => rfl
      | true => simp [h.1.2 (of_decide_eq_true hsource)]
    rw [applyCapLoop, if_neg h.1.1, hexempt, if_neg Bool.false_ne_true]
    cases hmax : reached ctx.maxCap n.nonHeld with
    | true => rw [if_pos rfl, takeUpTo_left_reached hmax]
    | false =>
      rw [if_neg Bool.false_ne_true, eligible]
      by_cases hcore : s.sourceType = .core
      · cases hcap : reached ctx.coreCap n.core with
        | true => simp [hcore, ih n h.2]
        | false =>
          simp only [hcore, decide_true, Bool.true_and, Bool.false_eq_true, if_false, if_true,
            reduceCtorEq, decide_false, Bool.false_and]
          rw [takeUpTo_left_cons hmax,
            ih ⟨n.nonHeld + 1, n.core + 1, n.event, n.reconciliationExempt⟩ h.2]
      · by_cases hevent : s.sourceType = .eventOverlay
        · cases hcap : reached ctx.eventOverlayCap n.event with
          | true => simp [hevent, ih n h.2]
          | false =>
            simp only [hevent, decide_true, Bool.true_and, Bool.false_eq_true, if_false, if_true,
              reduceCtorEq, decide_false, Bool.false_and]
            rw [takeUpTo_left_cons hmax,
              ih ⟨n.nonHeld + 1, n.core, n.event + 1, n.reconciliationExempt⟩ h.2]
        · simp only [hcore, hevent, decide_false, Bool.false_and, Bool.false_eq_true, if_false]
          rw [takeUpTo_left_cons hmax,
            ih ⟨n.nonHeld + 1, n.core, n.event, n.reconciliationExempt⟩ h.2]

theorem applyCapLoop_unsettled (n : CapCounters) {l rest : List SelectedSymbol}
    (h : ∀ s ∈ l, s.sourceType = .reconciliationOverlay)
    (hrest : ∀ s ∈ rest, s.sourceType ≠ .heldPosition ∧ s.sourceType ≠ .reconciliationOverlay) :
    applyCapLoop ctx n (l ++ rest) =
      takeUpTo (left ctx.reconciliationOverlayReserve n.reconciliationExempt) l ++
        takeUpTo (left ctx.maxCap n.nonHeld) (eligible ctx n.core n.event
          (dropUpTo (left ctx.reconciliationOverlayReserve n.reconciliationExempt) l ++ rest)) := by
  induction l generalizing n with
  | nil =>
    have hcounted : ∀ s ∈ rest, Counted ctx n.reconciliationExempt s := fun s hs =>
      ⟨(hrest s hs).1, fun hrec => absurd hrec (hrest s hs).2⟩
    have hdrop : dropUpTo (left ctx.reconciliationOverlayReserve n.reconciliationExempt)
        ([] : List SelectedSymbol) = [] := by
      cases left ctx.reconciliationOverlayReserve n.reconciliationExempt <;> simp [dropUpTo]
    rw [List.nil_append, applyCapLoop_counted ctx n hcounted, takeUpTo_nil, List.nil_append, hdrop,
      List.nil_append]
  | cons s l ih =>
    cases hreserve : reached ctx.reconciliationOverlayReserve n.reconciliationExempt with
    | true =>
      have hcounted : ∀ r ∈ (s :: l) ++ rest, Counted ctx n.reconciliationExempt r := by
        intro r hr
        refine ⟨?_, fun _ => hreserve⟩
        rcases List.mem_append.mp hr with hr | hr
        · rw [h r hr]
          decide
        · exact (hrest r hr).1
      rw [applyCapLoop_counted ctx n hcounted, takeUpTo_left_reached hreserve,
        dropUpTo_left_reached hreserve, List.nil_append]
    | false =>
      rw [List.forall_mem_cons] at h
      rw [List.cons_append, applyCapLoop, if_neg (by simp [h.1]), if_pos (by simp [h.1, hreserve]),
        ih _ h.2, takeUpTo_left_cons hreserve, dropUpTo_left_cons hreserve]
      rfl

/-! The limits of the sources, block by block. -/

theorem eligible_free (core event : Nat) {l : List SelectedSymbol}
    (h : ∀ s ∈ l, s.sourceType ≠ .core ∧ s.sourceType ≠ .eventOverlay)
    (rest : List SelectedSymbol) :
    eligible ctx core event (l ++ rest) = l ++ eligible ctx core event rest := by
  induction l with
  | nil => rfl
  | cons s l ih =>
    rw [List.forall_mem_cons] at h
    rw [List.cons_append, eligible, if_neg h.1.1, if_neg h.1.2, ih h.2]
    rfl

theorem eligible_core (core event : Nat) {l : List SelectedSymbol}
    (h : ∀ s ∈ l, s.sourceType = .core) :
    eligible ctx core event l = takeUpTo (left ctx.coreCap core) l := by
  induction l generalizing core with
  | nil => simp [eligible]
  | cons s l ih =>
    rw [List.forall_mem_cons] at h
    rw [eligible, if_pos h.1]
    cases hcap : reached ctx.coreCap core with
    | true => rw [if_pos rfl, ih core h.2, takeUpTo_left_reached hcap, takeUpTo_left_reached hcap]
    | false => rw [if_neg Bool.false_ne_true, ih (core + 1) h.2, takeUpTo_left_cons hcap]

theorem eligible_past_events (core event : Nat) {l : List SelectedSymbol}
    (h : ∀ s ∈ l, s.sourceType ≠ .eventOverlay) :
    eligible ctx core event l = eligible ctx core 0 l := by
  induction l generalizing core with
  | nil => rfl
  | cons s l ih =>
    rw [List.forall_mem_cons] at h
    simp only [eligible, if_neg h.1, ih core h.2, ih (core + 1) h.2]

theorem eligible_event (core event : Nat) {l rest : List SelectedSymbol}
    (h : ∀ s ∈ l, s.sourceType = .eventOverlay)
    (hrest : ∀ s ∈ rest, s.sourceType ≠ .eventOverlay) :
    eligible ctx core event (l ++ rest) =
      takeUpTo (left ctx.eventOverlayCap event) l ++ eligible ctx core 0 rest := by
  induction l generalizing event with
  | nil => simp [eligible_past_events ctx core event hrest]
  | cons s l ih =>
    rw [List.forall_mem_cons] at h
    rw [List.cons_append, eligible, if_neg (by simp [h.1]), if_pos h.1]
    cases hcap : reached ctx.eventOverlayCap event with
    | true =>
      rw [if_pos rfl, ih event h.2, takeUpTo_left_reached hcap, takeUpTo_left_reached hcap]
    | false =>
      rw [if_neg Bool.false_ne_true, ih (event + 1) h.2, takeUpTo_left_cons hcap, List.cons_append]

end Loop

/-- The cut in closed form: held positions, the reserve, and up to the cap the other unsettled
orders, the events within their limit, the market overlay, the watchlist and the core symbols
within theirs. -/
def cut (ctx : CompositionContext)
    (held unsettled events market manual core : List SelectedSymbol) :
    List SelectedSymbol :=
  held ++ (takeUpTo ctx.reconciliationOverlayReserve unsettled ++
    takeUpTo ctx.maxCap (dropUpTo ctx.reconciliationOverlayReserve unsettled ++
      (takeUpTo ctx.eventOverlayCap events ++ (market ++ (manual ++ takeUpTo ctx.coreCap core)))))

theorem mem_of_mem_dropUpTo {α : Type} {limit : Option Nat} {l : List α} {a : α}
    (h : a ∈ dropUpTo limit l) : a ∈ l := by
  rw [← takeUpTo_append_dropUpTo limit l]
  exact List.mem_append_right _ h

theorem applyCap_eq_cut {ctx : CompositionContext} (hexclude : ctx.excludeHeldFromCap = true)
    {l : List SelectedSymbol} (h : l.Pairwise fun a b => a.priority ≤ b.priority) :
    applyCap ctx l = cut ctx (ofSource .heldPosition l) (ofSource .reconciliationOverlay l)
      (ofSource .eventOverlay l) (ofSource .marketOverlay l) (ofSource .manual l)
      (ofSource .core l) := by
  have hother : ∀ s ∈ ofSource .eventOverlay l ++ (ofSource .marketOverlay l ++
      (ofSource .manual l ++ ofSource .core l)),
      s.sourceType ≠ .heldPosition ∧ s.sourceType ≠ .reconciliationOverlay := by
    intro s hs
    simp only [List.mem_append] at hs
    rcases hs with hs | hs | hs | hs <;> rw [sourceType_of_mem hs] <;> decide
  have hdropped :
      ∀ s ∈ dropUpTo ctx.reconciliationOverlayReserve (ofSource .reconciliationOverlay l),
      s.sourceType ≠ .core ∧ s.sourceType ≠ .eventOverlay := by
    intro s hs
    rw [sourceType_of_mem (mem_of_mem_dropUpTo hs)]
    decide
  have hlater : ∀ s ∈ ofSource .marketOverlay l ++ (ofSource .manual l ++ ofSource .core l),
      s.sourceType ≠ .eventOverlay := by
    intro s hs
    simp only [List.mem_append] at hs
    rcases hs with hs | hs | hs <;> rw [sourceType_of_mem hs] <;> decide
  have hmarket : ∀ s ∈ ofSource .marketOverlay l, s.sourceType ≠ .core ∧
      s.sourceType ≠ .eventOverlay := by
    intro s hs
    rw [sourceType_of_mem hs]
    decide
  have hmanual : ∀ s ∈ ofSource .manual l, s.sourceType ≠ .core ∧ s.sourceType ≠ .eventOverlay := by
    intro s hs
    rw [sourceType_of_mem hs]
    decide
  unfold applyCap
  rw [if_pos hexclude]
  conv_lhs => rw [eq_blocks_of_sorted h]
  rw [applyCapLoop_held ctx {} fun _ => sourceType_of_mem,
    applyCapLoop_unsettled ctx {} (fun _ => sourceType_of_mem) hother]
  simp only [left_zero]
  rw [eligible_free ctx 0 0 hdropped, eligible_event ctx 0 0 (fun _ => sourceType_of_mem) hlater,
    eligible_free ctx 0 0 hmarket, eligible_free ctx 0 0 hmanual,
    eligible_core ctx 0 0 fun _ => sourceType_of_mem]
  simp only [left_zero]
  rfl

end AgentTrading.Universe

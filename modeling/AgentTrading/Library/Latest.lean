import Mathlib.Data.List.Sort

/-! The latest row of a history, read from a list sorted newest first: the first row that
satisfies a test, and the first row of each key. -/
namespace AgentTrading.Library.Latest

variable {α κ : Type}

section Filter

variable {r : α → α → Prop} [DecidableRel r]

theorem filter_orderedInsert [IsTrans α r] (p : α → Bool) (x : α) {l : List α}
    (hl : l.Pairwise r) : (l.orderedInsert r x).filter p =
      if p x then (l.filter p).orderedInsert r x else l.filter p := by
  induction l with
  | nil => cases hx : p x <;> simp [hx]
  | cons b l ih =>
    have htail := ih hl.tail
    by_cases hxb : r x b
    · rw [List.orderedInsert_cons_of_le _ _ hxb]
      cases hx : p x with
      | false => simp [hx]
      | true =>
        -- the new row stands before every later one as well
        have hall : ∀ c ∈ (b :: l).filter p, r x c := by
          intro c hc
          rcases List.mem_cons.mp (List.mem_filter.mp hc).1 with rfl | hc
          · exact hxb
          · exact IsTrans.trans _ _ _ hxb (List.rel_of_pairwise_cons hl hc)
        rw [List.filter_cons_of_pos hx, if_pos rfl]
        cases hf : (b :: l).filter p with
        | nil => simp
        | cons c rest =>
          rw [List.orderedInsert_cons_of_le _ _ (hall c (by simp [hf]))]
    · rw [List.orderedInsert_of_not_le _ _ hxb]
      cases hb : p b with
      | false => simpa [hb] using htail
      | true =>
        rw [List.filter_cons_of_pos hb, List.filter_cons_of_pos hb, htail]
        cases hx : p x with
        | false => simp
        | true => simp [List.orderedInsert_of_not_le _ _ hxb]

theorem filter_insertionSort [IsTrans α r] [Std.Total r] (p : α → Bool) (l : List α) :
    (l.insertionSort r).filter p = (l.filter p).insertionSort r := by
  induction l with
  | nil => rfl
  | cons x l ih =>
    rw [List.insertionSort_cons, filter_orderedInsert p x (List.pairwise_insertionSort r l), ih]
    cases hx : p x <;> simp [hx]

end Filter

/-! The latest of the rows that satisfy a test. -/

section Latest

variable {τ : Type} [LinearOrder τ] (time : α → τ)

/-- What `row` is when it is the latest row of the history with `p`, or absent with them. -/
def IsLatest (p : α → Prop) (history : List α) : Option α → Prop
  | none => ∀ x ∈ history, ¬ p x
  | some row => row ∈ history ∧ p row ∧ ∀ x ∈ history, p x → time x ≤ time row

def newer (a b : α) : Prop := time b ≤ time a

instance : DecidableRel (newer time) := fun a b => inferInstanceAs (Decidable (time b ≤ time a))

instance : IsTrans α (newer time) where
  trans _ _ _ hab hbc := le_trans hbc hab

instance : Std.Total (newer time) where
  total a b := le_total (time b) (time a)

def newestFirst (history : List α) : List α := history.insertionSort (newer time)

variable {time} {history rows : List α}

theorem mem_newestFirst {x : α} : x ∈ newestFirst time history ↔ x ∈ history :=
  List.mem_insertionSort _

/-- In a list whose rows with `p` stand newest first, the first of them is the latest. -/
theorem isLatest_find? (rows history : List α) (p : α → Bool)
    (hmem : ∀ x, p x → (x ∈ rows ↔ x ∈ history))
    (hsorted : (rows.filter p).Pairwise (newer time)) :
    IsLatest time (fun x => p x = true) history (rows.find? p) := by
  rw [← List.head?_filter]
  cases hrows : rows.filter p with
  | nil =>
    intro x hx hp
    have hfilter : x ∈ rows.filter p := List.mem_filter.mpr ⟨(hmem x hp).mpr hx, hp⟩
    rw [hrows] at hfilter
    exact absurd hfilter List.not_mem_nil
  | cons row rest =>
    have hrow : row ∈ rows.filter p := by simp [hrows]
    obtain ⟨hin, hp⟩ := List.mem_filter.mp hrow
    refine ⟨(hmem row hp).mp hin, hp, fun x hx hpx => ?_⟩
    have hfilter : x ∈ rows.filter p := List.mem_filter.mpr ⟨(hmem x hpx).mpr hx, hpx⟩
    rw [hrows] at hsorted hfilter
    rcases List.mem_cons.mp hfilter with rfl | hlater
    · exact le_rfl
    · exact List.rel_of_pairwise_cons hsorted hlater

theorem isLatest_newestFirst (history : List α) (p : α → Bool) :
    IsLatest time (fun x => p x = true) history ((newestFirst time history).find? p) := by
  apply isLatest_find? _ _ _ fun x _ => mem_newestFirst
  exact (List.pairwise_insertionSort (newer time) history).sublist List.filter_sublist

/-- Only the rows with `p` matter. -/
theorem IsLatest.congr {p : α → Prop} {history' : List α} {row : Option α}
    (hmem : ∀ x, p x → (x ∈ history ↔ x ∈ history')) (h : IsLatest time p history row) :
    IsLatest time p history' row := by
  cases row with
  | none => exact fun x hx hp => h x ((hmem x hp).mpr hx) hp
  | some row =>
    obtain ⟨hrow, hp, hbound⟩ := h
    exact ⟨(hmem row hp).mp hrow, hp, fun x hx hpx => hbound x ((hmem x hpx).mpr hx) hpx⟩

end Latest

section First

variable [DecidableEq κ] (key : α → κ)

def keepFirst (kept : List α) (x : α) : List α :=
  if ∀ y ∈ kept, key y ≠ key x then kept ++ [x] else kept

def firsts (rows : List α) : List α := rows.foldl (keepFirst key) []

variable {key} {kept rows : List α}

theorem find?_foldl_keepFirst (k : κ) :
    (rows.foldl (keepFirst key) kept).find? (key · = k) = (kept ++ rows).find? (key · = k) := by
  induction rows generalizing kept with
  | nil => simp
  | cons x rows ih =>
    rw [List.foldl_cons, ih]
    unfold keepFirst
    split
    next => rw [List.append_assoc, List.singleton_append]
    next hkept =>
      obtain ⟨y, hy, hyx⟩ : ∃ y ∈ kept, key y = key x := by simpa using hkept
      simp only [List.find?_append, List.find?_cons]
      by_cases hx : key x = k
      · -- an earlier row has the key
        have hsome : (kept.find? (key · = k)).isSome := by
          rw [List.find?_isSome]
          exact ⟨y, hy, decide_eq_true (hyx.trans hx)⟩
        obtain ⟨z, hz⟩ := Option.isSome_iff_exists.mp hsome
        simp [hz]
      · simp [hx]

theorem find?_firsts (k : κ) : (firsts key rows).find? (key · = k) = rows.find? (key · = k) :=
  find?_foldl_keepFirst k

theorem find?_and_of_nodup (h : (rows.map key).Nodup) (k : κ) (p : α → Prop) [DecidablePred p] :
    rows.find? (fun x => key x = k ∧ p x) =
      (rows.find? (key · = k)).filter fun x => p x := by
  induction rows with
  | nil => rfl
  | cons x rows ih =>
    rw [List.map_cons, List.nodup_cons] at h
    by_cases hx : key x = k
    · have hlater : rows.find? (fun y => key y = k ∧ p y) = none := by
        apply List.find?_eq_none.mpr
        intro y hy hyk
        have hkey := (of_decide_eq_true hyk).1
        exact h.1 (List.mem_map.mpr ⟨y, hy, hkey.trans hx.symm⟩)
      by_cases hp : p x
      · simp [Option.filter_some, hx, hp]
      · simp only [List.find?_cons, hx, hp, and_false, decide_false, hlater, decide_true,
          Option.filter_some, Bool.false_eq_true, if_false]
    · simp only [List.find?_cons, hx, false_and, decide_false]
      exact ih h.2

theorem nodup_foldl_keepFirst (hkept : (kept.map key).Nodup) :
    ((rows.foldl (keepFirst key) kept).map key).Nodup := by
  induction rows generalizing kept with
  | nil => exact hkept
  | cons x rows ih =>
    rw [List.foldl_cons]
    apply ih
    unfold keepFirst
    split
    next hnew =>
      rw [List.map_append, List.map_singleton, List.nodup_append]
      refine ⟨hkept, List.nodup_singleton _, fun k hk k' hk' => ?_⟩
      obtain ⟨y, hy, rfl⟩ := List.mem_map.mp hk
      rw [List.mem_singleton.mp hk']
      exact hnew y hy
    next => exact hkept

theorem nodup_firsts : ((firsts key rows).map key).Nodup := nodup_foldl_keepFirst List.nodup_nil

theorem foldl_keepFirst_of_nodup (h : ((kept ++ rows).map key).Nodup) :
    rows.foldl (keepFirst key) kept = kept ++ rows := by
  induction rows generalizing kept with
  | nil => simp
  | cons x rows ih =>
    have hnew : ∀ y ∈ kept, key y ≠ key x := by
      intro y hy
      rw [List.map_append, List.nodup_append] at h
      exact h.2.2 _ (List.mem_map_of_mem hy) _ (by simp)
    rw [List.foldl_cons, keepFirst, if_pos hnew]
    rw [ih (by simpa using h), List.append_assoc, List.singleton_append]

theorem firsts_of_nodup (h : (rows.map key).Nodup) : firsts key rows = rows :=
  foldl_keepFirst_of_nodup (by simpa using h)

theorem filter_foldl_keepFirst {p : α → Bool}
    (hp : ∀ x ∈ kept ++ rows, ∀ y ∈ kept ++ rows, key x = key y → p x = p y) :
    (rows.foldl (keepFirst key) kept).filter p =
      (rows.filter p).foldl (keepFirst key) (kept.filter p) := by
  induction rows generalizing kept with
  | nil => rfl
  | cons x rows ih =>
    rw [List.foldl_cons]
    have hstep : ∀ y ∈ keepFirst key kept x ++ rows, y ∈ kept ++ x :: rows := by
      intro y hy
      unfold keepFirst at hy
      split at hy
      next => simpa using hy
      next =>
        rcases List.mem_append.mp hy with hy | hy
        · simp [hy]
        · simp [hy]
    rw [ih fun y hy z hz => hp y (hstep y hy) z (hstep z hz)]
    cases hx : p x with
    | false =>
      have hfilter : (keepFirst key kept x).filter p = kept.filter p := by
        unfold keepFirst
        split
        next => simp [hx]
        next => rfl
      rw [hfilter, List.filter_cons_of_neg (by simp [hx])]
    | true =>
      have hkeep : (keepFirst key kept x).filter p = keepFirst key (kept.filter p) x := by
        have hiff : (∀ y ∈ kept, key y ≠ key x) ↔ ∀ y ∈ kept.filter p, key y ≠ key x := by
          constructor
          · intro h y hy
            exact h y (List.mem_filter.mp hy).1
          · intro h y hy hyx
            have hpy : p y = true := (hp y (by simp [hy]) x (by simp) hyx).trans hx
            exact h y (List.mem_filter.mpr ⟨hy, hpy⟩) hyx
        unfold keepFirst
        by_cases h : ∀ y ∈ kept, key y ≠ key x
        · rw [if_pos h, if_pos (hiff.mp h)]
          simp [hx]
        · rw [if_neg h, if_neg fun h' => h (hiff.mpr h')]
      rw [hkeep, List.filter_cons_of_pos hx, List.foldl_cons]

theorem filter_firsts {p : α → Bool}
    (hp : ∀ x ∈ rows, ∀ y ∈ rows, key x = key y → p x = p y) :
    (firsts key rows).filter p = firsts key (rows.filter p) :=
  filter_foldl_keepFirst (by simpa using hp)

end First

end AgentTrading.Library.Latest

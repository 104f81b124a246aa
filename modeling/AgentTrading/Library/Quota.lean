import AgentTrading.Library.Latest

/-! Limits on lists: the first so many entries, with `none` for no limit, and the entries of
each rank in a list sorted by rank. -/
namespace AgentTrading.Library.Quota
open Latest

variable {α : Type}

def takeUpTo : Option Nat → List α → List α
  | none, l => l
  | some n, l => l.take n

def dropUpTo : Option Nat → List α → List α
  | none, _ => []
  | some n, l => l.drop n

theorem takeUpTo_append_dropUpTo (limit : Option Nat) (l : List α) :
    takeUpTo limit l ++ dropUpTo limit l = l := by
  cases limit with
  | none => exact List.append_nil l
  | some n => exact List.take_append_drop n l

theorem takeUpTo_sublist (limit : Option Nat) (l : List α) : (takeUpTo limit l).Sublist l := by
  cases limit with
  | none => exact List.Sublist.refl l
  | some n => exact List.take_sublist n l

@[simp] theorem takeUpTo_nil (limit : Option Nat) : takeUpTo limit ([] : List α) = [] := by
  cases limit <;> simp [takeUpTo]

section Ranks

variable {ρ : Type} [LinearOrder ρ] (rank : α → ρ)

theorem filter_rank_insertionSort (p : α → Bool) (l : List α) :
    (l.insertionSort fun a b => rank a ≤ rank b).filter p =
      (l.filter p).insertionSort fun a b => rank a ≤ rank b := by
  have : IsTrans α fun a b => rank a ≤ rank b := ⟨fun _ _ _ => le_trans⟩
  have : Std.Total fun a b : α => rank a ≤ rank b := ⟨fun a b => le_total (rank a) (rank b)⟩
  exact filter_insertionSort p l

theorem filter_insertionSort_of_rank_eq {p : α → Bool} {l : List α}
    (h : ∀ a ∈ l.filter p, ∀ b ∈ l.filter p, rank a = rank b) :
    (l.insertionSort fun a b => rank a ≤ rank b).filter p = l.filter p := by
  rw [filter_rank_insertionSort]
  have : IsTrans α fun a b => rank a ≤ rank b := ⟨fun _ _ _ => le_trans⟩
  have : Std.Total fun a b : α => rank a ≤ rank b := ⟨fun a b => le_total (rank a) (rank b)⟩
  exact List.Pairwise.insertionSort_eq
    (List.pairwise_of_forall_mem_list fun a ha b hb => (h a ha b hb).le)

variable {rank}

theorem eq_filter_append_of_sorted {l : List α} (h : l.Pairwise fun a b => rank a ≤ rank b) {k : ρ}
    (hk : ∀ a ∈ l, k ≤ rank a) : l = l.filter (rank · = k) ++ l.filter (rank · ≠ k) := by
  induction l with
  | nil => rfl
  | cons a l ih =>
    rw [List.pairwise_cons] at h
    rw [List.forall_mem_cons] at hk
    by_cases ha : rank a = k
    · rw [List.filter_cons_of_pos (by simpa using ha), List.filter_cons_of_neg (by simpa using ha),
        List.cons_append, ← ih h.2 hk.2]
    · -- nothing behind has the lowest rank either
      have hnone : ∀ b ∈ a :: l, rank b ≠ k := by
        rintro b hb rfl
        rcases List.mem_cons.mp hb with rfl | hb
        · exact ha rfl
        · exact ha (le_antisymm (h.1 b hb) hk.1)
      rw [List.filter_eq_nil_iff.mpr (by simpa using hnone),
        List.filter_eq_self.mpr (by simpa using hnone), List.nil_append]

end Ranks

theorem eq_flatMap_of_sorted {rank : α → Nat} {l : List α}
    (h : l.Pairwise fun a b => rank a ≤ rank b) (low n : Nat)
    (hlow : ∀ a ∈ l, low ≤ rank a) (hhigh : ∀ a ∈ l, rank a < low + n) :
    l = (List.range' low n).flatMap fun k => l.filter (rank · = k) := by
  induction n generalizing low l with
  | zero =>
    cases l with
    | nil => rfl
    | cons a l =>
      have hl := hlow a List.mem_cons_self
      have hh := hhigh a List.mem_cons_self
      omega
  | succ n ih =>
    have hrest : ∀ a ∈ l.filter (rank · ≠ low), low + 1 ≤ rank a ∧ rank a < low + 1 + n := by
      intro a ha
      rw [List.mem_filter, decide_eq_true_eq] at ha
      have hl := hlow a ha.1
      have hh := hhigh a ha.1
      omega
    have hblocks := ih (h.filter _) (low + 1) (fun a ha => (hrest a ha).1)
      (fun a ha => (hrest a ha).2)
    rw [List.range'_succ, List.flatMap_cons]
    conv_lhs => rw [eq_filter_append_of_sorted h hlow, hblocks]
    congr 1
    apply List.flatMap_congr
    intro k hk
    rw [List.mem_range'_1] at hk
    rw [List.filter_filter]
    apply List.filter_congr
    intro a _
    by_cases hak : rank a = k
    · have hne : rank a ≠ low := by omega
      simp [hak, hak ▸ hne]
    · simp [hak]

/-! Sorting by another order that agrees on the entries of the list. -/

section Sorting

variable {r r' : α → α → Prop} [DecidableRel r] [DecidableRel r']

theorem insertionSort_congr {l : List α} (h : ∀ a ∈ l, ∀ b ∈ l, r a b ↔ r' a b) :
    l.insertionSort r = l.insertionSort r' := by
  have hinsert : ∀ (a : α) (m : List α), (∀ b ∈ m, r a b ↔ r' a b) →
      m.orderedInsert r a = m.orderedInsert r' a := by
    intro a m hm
    induction m with
    | nil => rfl
    | cons b m ih =>
      rw [List.forall_mem_cons] at hm
      simp only [List.orderedInsert_cons, hm.1, ih hm.2]
  induction l with
  | nil => rfl
  | cons a l ih =>
    have htail : ∀ b ∈ l, ∀ c ∈ l, r b c ↔ r' b c := fun b hb c hc =>
      h b (List.mem_cons_of_mem a hb) c (List.mem_cons_of_mem a hc)
    rw [List.insertionSort_cons, List.insertionSort_cons, ih htail]
    apply hinsert
    intro b hb
    rw [List.mem_insertionSort] at hb
    exact h a List.mem_cons_self b (List.mem_cons_of_mem a hb)

end Sorting

theorem rel_of_idxOf_le [DecidableEq α] {r : α → α → Prop} [Std.Refl r] {l : List α}
    (h : l.Pairwise r) {a b : α}
    (ha : a ∈ l) (hb : b ∈ l) (hab : l.idxOf a ≤ l.idxOf b) : r a b := by
  rcases Nat.eq_or_lt_of_le hab with heq | hlt
  · rw [(List.idxOf_inj ha).mp heq]
    exact Std.Refl.refl b
  · have hlength := List.idxOf_lt_length_iff.mpr hb
    have hpair := List.pairwise_iff_getElem.mp h _ _ (hlt.trans hlength) hlength hlt
    rwa [List.getElem_idxOf, List.getElem_idxOf] at hpair

/-- What is left of a limit. -/
def left (limit : Option Nat) (used : Nat) : Option Nat := limit.map (· - used)

@[simp] theorem left_zero (limit : Option Nat) : left limit 0 = limit := by
  cases limit <;> rfl

theorem takeUpTo_left_cons {limit : Option Nat} {used : Nat} (h : limit.any (· ≤ used) = false)
    (a : α) (l : List α) :
    takeUpTo (left limit used) (a :: l) = a :: takeUpTo (left limit (used + 1)) l := by
  cases limit with
  | none => rfl
  | some n =>
    have hlt : used < n := by simpa using h
    have hstep : n - used = n - (used + 1) + 1 := by omega
    simp only [left, takeUpTo, Option.map_some, hstep, List.take_succ_cons]

theorem takeUpTo_left_reached {limit : Option Nat} {used : Nat} (h : limit.any (· ≤ used) = true)
    (l : List α) : takeUpTo (left limit used) l = [] := by
  cases limit with
  | none => cases h
  | some n =>
    have hle : n ≤ used := by simpa using h
    simp [left, takeUpTo, Nat.sub_eq_zero_of_le hle]

theorem dropUpTo_left_cons {limit : Option Nat} {used : Nat} (h : limit.any (· ≤ used) = false)
    (a : α) (l : List α) :
    dropUpTo (left limit used) (a :: l) = dropUpTo (left limit (used + 1)) l := by
  cases limit with
  | none => rfl
  | some n =>
    have hlt : used < n := by simpa using h
    have hstep : n - used = n - (used + 1) + 1 := by omega
    simp only [left, dropUpTo, Option.map_some, hstep, List.drop_succ_cons]

theorem dropUpTo_left_reached {limit : Option Nat} {used : Nat} (h : limit.any (· ≤ used) = true)
    (l : List α) : dropUpTo (left limit used) l = l := by
  cases limit with
  | none => cases h
  | some n =>
    have hle : n ≤ used := by simpa using h
    simp [left, dropUpTo, Nat.sub_eq_zero_of_le hle]

end AgentTrading.Library.Quota

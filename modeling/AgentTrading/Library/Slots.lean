import Mathlib.Data.List.Nodup

/-! Results that are written into their places. -/
namespace AgentTrading.Library.Slots

variable {β : Type}

def fill (writes : List (Nat × β)) (slots : List β) : List β :=
  writes.foldl (fun slots w => slots.set w.1 w.2) slots

@[simp] theorem fill_nil (slots : List β) : fill [] slots = slots := rfl

@[simp] theorem fill_cons (w : Nat × β) (writes : List (Nat × β)) (slots : List β) :
    fill (w :: writes) slots = fill writes (slots.set w.1 w.2) := rfl

theorem fill_append (writes later : List (Nat × β)) (slots : List β) :
    fill (writes ++ later) slots = fill later (fill writes slots) := List.foldl_append

@[simp] theorem length_fill (writes : List (Nat × β)) (slots : List β) :
    (fill writes slots).length = slots.length := by
  induction writes generalizing slots with
  | nil => rfl
  | cons w writes ih => rw [fill_cons, ih, List.length_set]

theorem getElem?_fill_of_notMem {writes : List (Nat × β)} {i : Nat} (h : i ∉ writes.map Prod.fst)
    (slots : List β) : (fill writes slots)[i]? = slots[i]? := by
  induction writes generalizing slots with
  | nil => rfl
  | cons w writes ih =>
    rw [List.map_cons, List.mem_cons, not_or] at h
    rw [fill_cons, ih h.2, List.getElem?_set_ne (Ne.symm h.1)]

theorem getElem?_fill {writes : List (Nat × β)} (h : (writes.map Prod.fst).Nodup) {i : Nat} {v : β}
    (hw : (i, v) ∈ writes) {slots : List β} (hi : i < slots.length) :
    (fill writes slots)[i]? = some v := by
  induction writes generalizing slots with
  | nil => cases hw
  | cons w writes ih =>
    rw [List.map_cons, List.nodup_cons] at h
    rw [fill_cons]
    rcases List.mem_cons.mp hw with rfl | hw
    · rw [getElem?_fill_of_notMem h.1, List.getElem?_set_self hi]
    · exact ih h.2 hw (by rwa [List.length_set])

theorem fill_perm {writes writes' : List (Nat × β)} (h : (writes.map Prod.fst).Nodup)
    (hperm : writes.Perm writes') (slots : List β) : fill writes slots = fill writes' slots := by
  have h' : (writes'.map Prod.fst).Nodup := (hperm.map Prod.fst).nodup_iff.mp h
  apply List.ext_getElem?
  intro i
  by_cases hi : i ∈ writes.map Prod.fst
  · obtain ⟨⟨j, v⟩, hw, rfl⟩ := List.mem_map.mp hi
    by_cases hlt : j < slots.length
    · rw [getElem?_fill h hw hlt, getElem?_fill h' (hperm.mem_iff.mp hw) hlt]
    · have hle : slots.length ≤ j := Nat.le_of_not_lt hlt
      rw [List.getElem?_eq_none (by rwa [length_fill]),
        List.getElem?_eq_none (by rwa [length_fill])]
  · have hi' : i ∉ writes'.map Prod.fst := fun hmem => hi ((hperm.map Prod.fst).mem_iff.mpr hmem)
    rw [getElem?_fill_of_notMem hi, getElem?_fill_of_notMem hi']

end AgentTrading.Library.Slots

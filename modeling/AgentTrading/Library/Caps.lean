import Mathlib.Data.List.Forall2
import Mathlib.Order.MinMax
import Mathlib.Order.Lattice

/-! A quantity passed through a list of upper bounds, and its positive part. -/
namespace AgentTrading.Library.Caps

variable {α β : Type} [LinearOrder α] [LinearOrder β]

/-- The quantity under every cap. -/
def capped (caps : List α) (q : α) : α := caps.foldr min q

@[simp] theorem capped_nil (q : α) : capped [] q = q := rfl

@[simp] theorem capped_cons (c : α) (caps : List α) (q : α) :
    capped (c :: caps) q = min c (capped caps q) := rfl

theorem capped_append (caps more : List α) (q : α) :
    capped (caps ++ more) q = capped caps (capped more q) := List.foldr_append

theorem le_capped_iff (caps : List α) (q x : α) :
    x ≤ capped caps q ↔ x ≤ q ∧ ∀ c ∈ caps, x ≤ c := by
  induction caps with
  | nil => simp
  | cons c caps ih =>
    rw [capped_cons, le_min_iff, ih, List.forall_mem_cons]
    tauto

theorem capped_le_iff (caps : List α) (q x : α) :
    capped caps q ≤ x ↔ q ≤ x ∨ ∃ c ∈ caps, c ≤ x := by
  induction caps with
  | nil => simp
  | cons c caps ih =>
    rw [capped_cons, min_le_iff, ih, List.exists_mem_cons_iff]
    tauto

theorem capped_le (caps : List α) (q : α) : capped caps q ≤ q :=
  ((le_capped_iff caps q _).mp le_rfl).1

theorem capped_le_of_mem {caps : List α} {c : α} (hc : c ∈ caps) (q : α) : capped caps q ≤ c :=
  ((le_capped_iff caps q _).mp le_rfl).2 c hc

theorem capped_append_comm (caps more : List α) (q : α) :
    capped caps (capped more q) = capped (more ++ caps) q := by
  apply le_antisymm
  · rw [le_capped_iff]
    constructor
    · exact (capped_le _ _).trans (capped_le _ _)
    · intro c hc
      rcases List.mem_append.mp hc with hmore | hcaps
      · exact (capped_le _ _).trans (capped_le_of_mem hmore _)
      · exact capped_le_of_mem hcaps _
  · rw [le_capped_iff, le_capped_iff]
    exact ⟨⟨capped_le _ _, fun c hc => capped_le_of_mem (List.mem_append_left _ hc) _⟩,
      fun c hc => capped_le_of_mem (List.mem_append_right _ hc) _⟩

theorem map_capped {f : α → β} (hf : Monotone f) (caps : List α) (q : α) :
    f (capped caps q) = capped (caps.map f) (f q) := by
  induction caps with
  | nil => rfl
  | cons c caps ih => rw [List.map_cons, capped_cons, capped_cons, hf.map_min, ih]

theorem capped_mono {caps looser : List α} (h : List.Forall₂ (· ≤ ·) caps looser) {q q' : α}
    (hq : q ≤ q') : capped caps q ≤ capped looser q' := by
  induction h with
  | nil => exact hq
  | cons hc _ ih => exact min_le_min hc ih

section Positive

variable [Zero α]

theorem max_zero_capped (caps : List α) (q : α) :
    max 0 (capped caps q) = capped (caps.map (max 0)) (max 0 q) :=
  map_capped (fun _ _ h => max_le_max le_rfl h) caps q

/-- Being at most another positive part survives every map that keeps the order and zero. -/
theorem map_le_max_zero {f : α → α} (hf : Monotone f) (hzero : f 0 = 0) {x y : α}
    (h : x ≤ max 0 y) : f x ≤ max 0 (f y) := by
  have hmono := hf h
  rwa [hf.map_max, hzero] at hmono

theorem capped_le_max_zero {caps looser : List α}
    (h : List.Forall₂ (fun c c' => c ≤ max 0 c') caps looser) {q q' : α} (hq : q ≤ max 0 q') :
    capped caps q ≤ max 0 (capped looser q') := by
  rw [max_zero_capped]
  apply capped_mono _ hq
  induction h with
  | nil => exact .nil
  | cons hc _ ih => exact .cons hc ih

end Positive

end AgentTrading.Library.Caps

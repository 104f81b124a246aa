import Mathlib.Data.List.Nodup
import Mathlib.Data.List.Perm.Basic

/-! Tables as lists of entries no two of which share a key, and the join of two tables on a
column of the second that holds keys of the first. -/
namespace AgentTrading.Library.Keyed

variable {α β κ ι : Type}

theorem eq_of_key {key : α → κ} {l : List α} (h : (l.map key).Nodup) {a b : α}
    (ha : a ∈ l) (hb : b ∈ l) (hab : key a = key b) : a = b :=
  List.inj_on_of_nodup_map h ha hb hab

theorem nodup_numbered {key : β → Nat} (l : List α) (entry : α × Nat → β)
    (hkey : ∀ p, key (entry p) = p.2) : ((l.zipIdx.map entry).map key).Nodup := by
  rw [List.map_map, show key ∘ entry = Prod.snd from funext hkey, List.zipIdx_map_snd]
  exact List.nodup_range'

theorem sublist_numbered {f : α × Nat → Option β} {entry : β → α}
    (hf : ∀ {a i b}, f (a, i) = some b → entry b = a) (l : List α) (i : Nat) :
    (((l.zipIdx i).filterMap f).map entry).Sublist l := by
  induction l generalizing i with
  | nil => exact List.Sublist.slnil
  | cons a l ih =>
    rw [List.zipIdx_cons]
    cases hkept : f (a, i) with
    | none =>
      rw [List.filterMap_cons_none hkept]
      exact (ih (i + 1)).cons a
    | some b =>
      rw [List.filterMap_cons_some hkept, List.map_cons, hf hkept]
      exact (ih (i + 1)).cons_cons a

variable [DecidableEq κ]

theorem find?_key {key : α → κ} {l : List α} (h : (l.map key).Nodup) (k : κ) (a : α) :
    l.find? (key · = k) = some a ↔ a ∈ l ∧ key a = k := by
  constructor
  · intro hfind
    have hkey := List.find?_some hfind
    exact ⟨List.mem_of_find?_eq_some hfind, of_decide_eq_true hkey⟩
  · rintro ⟨hmem, hkey⟩
    cases hfind : l.find? (key · = k) with
    | none =>
      have := List.find?_eq_none.mp hfind a hmem
      exact absurd (decide_eq_true hkey) this
    | some b =>
      have hb := List.find?_some hfind
      simp only [decide_eq_true_eq] at hb
      rw [eq_of_key h (List.mem_of_find?_eq_some hfind) hmem (hb.trans hkey.symm)]

theorem find?_reverse {key : α → κ} {l : List α} (h : (l.map key).Nodup) (k : κ) :
    l.reverse.find? (key · = k) = l.find? (key · = k) := by
  have hreverse : (l.reverse.map key).Nodup := by
    rwa [List.map_reverse, List.nodup_reverse]
  apply Option.ext
  intro a
  rw [find?_key hreverse, find?_key h, List.mem_reverse]

/-! Replacing the entry of a key, or adding it behind the others. -/

def upsert (key : α → κ) (x : α) : List α → List α
  | [] => [x]
  | y :: l => if key y = key x then x :: l else y :: upsert key x l

theorem map_key_upsert (key : α → κ) (x : α) (l : List α) : (upsert key x l).map key =
    if key x ∈ l.map key then l.map key else l.map key ++ [key x] := by
  induction l with
  | nil => simp [upsert]
  | cons y l ih =>
    by_cases hxy : key y = key x
    · simp [upsert, hxy]
    · have hne : key x ≠ key y := Ne.symm hxy
      rw [upsert, if_neg hxy, List.map_cons, ih]
      by_cases hmem : key x ∈ l.map key <;> simp [hne, hmem]

theorem nodup_upsert {key : α → κ} {l : List α} (h : (l.map key).Nodup) (x : α) :
    ((upsert key x l).map key).Nodup := by
  rw [map_key_upsert]
  split
  next => exact h
  next hnew =>
    apply List.Nodup.append h (List.nodup_singleton _)
    intro k hk hx
    rw [List.mem_singleton.mp hx] at hk
    exact hnew hk

theorem upsert_eq_map {key : α → κ} {l : List α} (h : (l.map key).Nodup) {x : α}
    (hx : key x ∈ l.map key) :
    upsert key x l = l.map fun y => if key y = key x then x else y := by
  induction l with
  | nil => cases hx
  | cons y l ih =>
    rw [List.map_cons, List.nodup_cons] at h
    by_cases hxy : key y = key x
    · -- no later entry has the key
      have hlater : ∀ z ∈ l, key z ≠ key x := by
        intro z hz hzx
        apply h.1
        rw [hxy, ← hzx]
        exact List.mem_map_of_mem hz
      rw [upsert, if_pos hxy, List.map_cons, if_pos hxy]
      apply congrArg (x :: ·)
      rw [List.map_congr_left fun z hz => if_neg (hlater z hz), List.map_id']
    · have htail : key x ∈ l.map key := by
        rw [List.map_cons, List.mem_cons] at hx
        exact hx.resolve_left (Ne.symm hxy)
      rw [upsert, if_neg hxy, List.map_cons, if_neg hxy, ih h.2 htail]

theorem upsert_new {key : α → κ} {x : α} {l : List α} (hx : key x ∉ l.map key) :
    upsert key x l = l ++ [x] := by
  induction l with
  | nil => rfl
  | cons y l ih =>
    rw [List.map_cons, List.mem_cons, not_or] at hx
    rw [upsert, if_neg (Ne.symm hx.1), ih hx.2]
    rfl

theorem foldl_upsert {key : α → κ} {l xs : List α} (h : ((l ++ xs).map key).Nodup) :
    xs.foldl (fun l x => upsert key x l) l = l ++ xs := by
  induction xs generalizing l with
  | nil => exact (List.append_nil l).symm
  | cons x xs ih =>
    rw [List.append_cons] at h ⊢
    have hx : key x ∉ l.map key := by
      rw [List.map_append, List.map_append, List.append_assoc] at h
      intro hmem
      exact List.disjoint_of_nodup_append h hmem List.mem_cons_self
    rw [List.foldl_cons, upsert_new hx]
    exact ih h

/-- The entries of `m` whose column `col` holds a key of `l`, grouped by the entries of `l`. -/
def join (key : α → κ) (col : β → κ) (l : List α) (m : List β) : List β :=
  l.flatMap fun a => m.filter (col · = key a)

theorem mem_join {key : α → κ} {col : β → κ} {l : List α} {m : List β} {b : β} :
    b ∈ join key col l m ↔ b ∈ m ∧ ∃ a ∈ l, col b = key a := by
  simp only [join, List.mem_flatMap, List.mem_filter, decide_eq_true_eq]
  constructor
  · rintro ⟨a, ha, hb, hk⟩
    exact ⟨hb, a, ha, hk⟩
  · rintro ⟨hb, a, ha, hk⟩
    exact ⟨a, ha, hb, hk⟩

theorem nodup_join {key : α → κ} {id : β → ι} {l : List α} {m : List β} (col : β → κ)
    (hl : (l.map key).Nodup) (hm : (m.map id).Nodup) : ((join key col l m).map id).Nodup := by
  have hjoin : (join key col l m).Nodup := by
    refine List.nodup_flatMap.mpr ⟨fun a _ => (List.Nodup.of_map id hm).filter _, ?_⟩
    refine (List.pairwise_map.mp hl).imp fun hab => ?_
    intro b hb hb'
    simp only [List.mem_filter, decide_eq_true_eq] at hb hb'
    exact hab (hb.2.symm.trans hb'.2)
  refine List.Nodup.map_on (fun b hb c hc hbc => ?_) hjoin
  exact eq_of_key hm (mem_join.mp hb).1 (mem_join.mp hc).1 hbc

end AgentTrading.Library.Keyed

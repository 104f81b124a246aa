import Mathlib.Order.Lattice
import AgentTrading.Library.Keyed

/-! A table with one place for each key. An entry of a new key is added behind the others, and
an entry of a taken key competes with the holder: it is put in its place when it beats it. -/
namespace AgentTrading.Library.Contest
open Keyed

variable {α κ : Type} (beats : α → α → Bool)

/-- Who holds a place after `x` has competed for it. -/
def duel : Option α → α → Option α
  | none, x => some x
  | some a, x => some (if beats x a then x else a)

section Table

variable [DecidableEq κ] (key : α → κ)

def enter (table : List α) (x : α) : List α :=
  match table.find? (key · = key x) with
  | none => upsert key x table
  | some a => if beats x a then upsert key x table else table

theorem find?_upsert (x : α) (table : List α) (k : κ) :
    (upsert key x table).find? (key · = k) =
      if key x = k then some x else table.find? (key · = k) := by
  induction table with
  | nil => by_cases hk : key x = k <;> simp [upsert, hk]
  | cons y l ih =>
    by_cases hxy : key y = key x
    · rw [upsert, if_pos hxy]
      by_cases hk : key x = k <;> simp [hk, hxy]
    · rw [upsert, if_neg hxy, List.find?_cons, List.find?_cons, ih]
      by_cases hy : key y = k
      · have hx : key x ≠ k := fun hx => hxy (hy.trans hx.symm)
        simp [hy, hx]
      · simp [hy]

theorem nodup_enter {table : List α} (h : (table.map key).Nodup) (x : α) :
    ((enter beats key table x).map key).Nodup := by
  unfold enter
  split
  · exact nodup_upsert h x
  · split
    · exact nodup_upsert h x
    · exact h

theorem nodup_foldl_enter {table : List α} (h : (table.map key).Nodup) (xs : List α) :
    ((xs.foldl (enter beats key) table).map key).Nodup := by
  induction xs generalizing table with
  | nil => exact h
  | cons x xs ih => exact ih (nodup_enter beats key h x)

theorem find?_enter (table : List α) (x : α) (k : κ) :
    (enter beats key table x).find? (key · = k) =
      if key x = k then duel beats (table.find? (key · = k)) x
      else table.find? (key · = k) := by
  unfold enter
  by_cases hk : key x = k
  · subst hk
    rw [if_pos rfl]
    cases hold : table.find? (key · = key x) with
    | none => simp [duel, find?_upsert]
    | some a =>
      cases hbeats : beats x a with
      | true => simp [duel, hbeats, find?_upsert]
      | false => simp [duel, hbeats, hold]
  · rw [if_neg hk]
    split
    · rw [find?_upsert, if_neg hk]
    · split
      · rw [find?_upsert, if_neg hk]
      · rfl

/-- The places are independent: who holds one is decided among the entries of its key, in
their order. -/
theorem find?_foldl_enter (xs table : List α) (k : κ) :
    (xs.foldl (enter beats key) table).find? (key · = k) =
      (xs.filter (key · = k)).foldl (duel beats) (table.find? (key · = k)) := by
  induction xs generalizing table with
  | nil => rfl
  | cons x xs ih =>
    rw [List.foldl_cons, ih, find?_enter]
    by_cases hk : key x = k <;> simp [hk]

/-- Who is left without a place when `x` competes. -/
def loser (table : List α) (x : α) : Option α :=
  (table.find? (key · = key x)).map fun a => if beats x a then a else x

variable {key}

theorem enter_new {table : List α} {x : α} (h : table.find? (key · = key x) = none) :
    enter beats key table x = upsert key x table ∧ loser beats key table x = none := by
  simp only [enter, loser, h, Option.map_none, and_self]

theorem enter_held {table : List α} {x a : α} (h : table.find? (key · = key x) = some a) :
    enter beats key table x = (if beats x a then upsert key x table else table) ∧
      loser beats key table x = some (if beats x a then a else x) := by
  simp only [enter, loser, h, Option.map_some, and_self]

variable (key)

/-- Everybody who is left without a place, in the order in which they lose it. -/
def losers : List α → List α → List α
  | _, [] => []
  | table, x :: xs => (loser beats key table x).toList ++ losers (enter beats key table x) xs

theorem perm_upsert {table : List α} {x a : α} (h : table.find? (key · = key x) = some a) :
    (upsert key x table ++ [a]).Perm (x :: table) := by
  induction table with
  | nil => cases h
  | cons y table ih =>
    by_cases hy : key y = key x
    · rw [List.find?_cons_of_pos (by simpa using hy)] at h
      obtain rfl := Option.some.inj h
      rw [upsert, if_pos hy, List.cons_append]
      exact (List.perm_append_singleton y table).cons x
    · rw [List.find?_cons_of_neg (by simpa using hy)] at h
      rw [upsert, if_neg hy, List.cons_append]
      exact ((ih h).cons y).trans (List.Perm.swap x y table)

theorem perm_enter (table : List α) (x : α) :
    (enter beats key table x ++ (loser beats key table x).toList).Perm (x :: table) := by
  unfold enter loser
  cases hold : table.find? (key · = key x) with
  | none =>
    have hnew : key x ∉ table.map key := by
      simpa [List.find?_eq_none] using hold
    rw [upsert_new hnew]
    simp
  | some a =>
    cases hbeats : beats x a with
    | true => simpa [hbeats] using perm_upsert key hold
    | false => simp [hbeats]

open scoped List in
theorem perm_losers (table xs : List α) :
    (xs.foldl (enter beats key) table ++ losers beats key table xs).Perm (table ++ xs) := by
  induction xs generalizing table with
  | nil => simp [losers]
  | cons x xs ih =>
    have hstep := perm_enter beats key table x
    have hrest := ih (enter beats key table x)
    rw [List.foldl_cons, losers]
    calc xs.foldl (enter beats key) (enter beats key table x) ++
          ((loser beats key table x).toList ++ losers beats key (enter beats key table x) xs)
        ~ (loser beats key table x).toList ++
          (xs.foldl (enter beats key) (enter beats key table x) ++
          losers beats key (enter beats key table x) xs) := List.perm_append_comm_assoc _ _ _
      _ ~ (loser beats key table x).toList ++ (enter beats key table x ++ xs) := hrest.append_left _
      _ ~ enter beats key table x ++ (loser beats key table x).toList ++ xs := by
        rw [← List.append_assoc]
        exact List.perm_append_comm.append_right xs
      _ ~ x :: table ++ xs := hstep.append_right xs
      _ ~ table ++ x :: xs := List.perm_middle.symm

end Table

variable {ρ : Type} [LinearOrder ρ]

/-- A lower rank wins, and nobody is beaten by a higher one. Among equals the rule is free. -/
structure Ranked (rank : α → ρ) : Prop where
  wins : ∀ {x a}, rank x < rank a → beats x a = true
  keeps : ∀ {x a}, beats x a = true → rank x ≤ rank a

variable {beats} {rank : α → ρ}

theorem Ranked.le_of_holds (hr : Ranked beats rank) {x a : α} (h : beats x a = false) :
    rank a ≤ rank x := by
  by_contra hlt
  have hbeats := hr.wins (lt_of_not_ge hlt)
  rw [h] at hbeats
  cases hbeats

theorem Ranked.duel_le (hr : Ranked beats rank) (x a : α) :
    rank (if beats x a then x else a) ≤ rank a ∧ rank (if beats x a then x else a) ≤ rank x := by
  cases hbeats : beats x a with
  | true => simpa using hr.keeps hbeats
  | false => simpa using hr.le_of_holds hbeats

theorem foldl_duel_some (a : α) (xs : List α) : ∃ w, xs.foldl (duel beats) (some a) = some w := by
  induction xs generalizing a with
  | nil => exact ⟨a, rfl⟩
  | cons x xs ih => exact ih _

theorem foldl_duel_mem {a w : α} {xs : List α} (h : xs.foldl (duel beats) (some a) = some w) :
    w ∈ a :: xs := by
  induction xs generalizing a with
  | nil =>
    obtain rfl : a = w := Option.some.inj h
    exact List.mem_cons_self
  | cons x xs ih =>
    have hw := ih h
    rw [List.mem_cons] at hw
    rcases hw with rfl | hw
    · split <;> simp
    · simp [hw]

theorem Ranked.foldl_duel_le (hr : Ranked beats rank) {a w : α} {xs : List α}
    (h : xs.foldl (duel beats) (some a) = some w) : ∀ x ∈ a :: xs, rank w ≤ rank x := by
  induction xs generalizing a with
  | nil =>
    obtain rfl : a = w := Option.some.inj h
    simp
  | cons x xs ih =>
    have hrest := ih h
    rw [List.forall_mem_cons] at hrest
    have hduel := hr.duel_le x a
    rw [List.forall_mem_cons, List.forall_mem_cons]
    exact ⟨le_trans hrest.1 hduel.1, le_trans hrest.1 hduel.2, hrest.2⟩

/-- The holder at the end is the first of the best, unless holders of its rank may be beaten by
their equals. -/
theorem Ranked.foldl_duel_first (hr : Ranked beats rank) {a w : α} {xs : List α}
    (h : xs.foldl (duel beats) (some a) = some w)
    (hfirm : ∀ x b, rank b = rank w → rank x = rank b → beats x b = false) :
    (a :: xs).find? (rank · = rank w) = some w := by
  induction xs generalizing a with
  | nil =>
    obtain rfl : a = w := Option.some.inj h
    simp
  | cons x xs ih =>
    have hle := hr.foldl_duel_le h
    rw [List.forall_mem_cons, List.forall_mem_cons] at hle
    have hfind := ih h
    cases hbeats : beats x a with
    | true =>
      rw [hbeats, if_pos rfl] at hfind
      have hne : rank a ≠ rank w := by
        intro heq
        have hxa : rank x = rank a := by
          apply le_antisymm (hr.keeps hbeats)
          rw [heq]
          exact hle.2.1
        rw [hfirm x a heq hxa] at hbeats
        cases hbeats
      rw [List.find?_cons_of_neg (by simpa using hne)]
      exact hfind
    | false =>
      rw [hbeats, if_neg Bool.false_ne_true] at hfind
      by_cases ha : rank a = rank w
      · rw [List.find?_cons_of_pos (by simpa using ha)] at hfind ⊢
        exact hfind
      · have hwa : rank w < rank a := lt_of_le_of_ne hle.1 (Ne.symm ha)
        have hx : rank x ≠ rank w := by
          intro hx
          have hwins := hr.wins (x := x) (a := a) (by rwa [hx])
          rw [hbeats] at hwins
          cases hwins
        rw [List.find?_cons_of_neg (by simpa using ha)] at hfind ⊢
        rw [List.find?_cons_of_neg (by simpa using hx)]
        exact hfind

section Holders

variable [DecidableEq κ] {key : α → κ}

theorem nodup_holders (beats : α → α → Bool) (key : α → κ) (xs : List α) :
    ((xs.foldl (enter beats key) []).map key).Nodup := by
  have hnil : (([] : List α).map key).Nodup := List.nodup_nil
  exact nodup_foldl_enter beats key hnil xs

theorem Ranked.holder (hr : Ranked beats rank) {xs : List α} {w : α}
    (hw : w ∈ xs.foldl (enter beats key) []) :
    w ∈ xs ∧ ∀ x ∈ xs, key x = key w → rank w ≤ rank x := by
  have hfind := (find?_key (nodup_holders beats key xs) (key w) w).mpr ⟨hw, rfl⟩
  rw [find?_foldl_enter] at hfind
  cases hentries : xs.filter (key · = key w) with
  | nil =>
    rw [hentries] at hfind
    cases hfind
  | cons a rest =>
    rw [hentries] at hfind
    have hmem : ∀ x, x ∈ a :: rest ↔ x ∈ xs ∧ key x = key w := by
      intro x
      rw [← hentries, List.mem_filter, decide_eq_true_eq]
    refine ⟨((hmem w).mp (foldl_duel_mem hfind)).1, fun x hx hkey => ?_⟩
    exact hr.foldl_duel_le hfind x ((hmem x).mpr ⟨hx, hkey⟩)

theorem exists_holder (beats : α → α → Bool) (key : α → κ) {xs : List α} {x : α} (hx : x ∈ xs) :
    ∃ w ∈ xs.foldl (enter beats key) [], key w = key x := by
  have hfind : ∃ w, (xs.foldl (enter beats key) []).find? (key · = key x) = some w := by
    rw [find?_foldl_enter]
    cases hentries : xs.filter (key · = key x) with
    | nil =>
      have hmem : x ∈ xs.filter (key · = key x) := by simpa using hx
      rw [hentries] at hmem
      cases hmem
    | cons a rest => exact foldl_duel_some a rest
  obtain ⟨w, hw⟩ := hfind
  have hkey := List.find?_some hw
  exact ⟨w, List.mem_of_find?_eq_some hw, of_decide_eq_true hkey⟩

end Holders

end AgentTrading.Library.Contest

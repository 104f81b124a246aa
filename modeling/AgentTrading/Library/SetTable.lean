import Mathlib.Data.Finset.Sigma
import Mathlib.Data.List.AList

/-! Tables of finite sets. A set is opened with its first element and dropped with its last, and
what the table holds is the set of its pairs of a key and an element. -/
namespace AgentTrading.Library

/-- A table with at most one set under each key. -/
abbrev SetTable (α β : Type) := AList fun _ : α => Finset β

namespace SetTable

variable {α β : Type} [DecidableEq α]

/-- The set under a key; one that is not there is empty. -/
def get (t : SetTable α β) (a : α) : Finset β := (t.lookup a).getD ∅

def pairs (t : SetTable α β) : Finset (Σ _ : α, β) := t.keys.toFinset.sigma t.get

/-- The pairs as one meets them going through the table, key by key. -/
def listed (t : SetTable α β) : Multiset (Σ _ : α, β) :=
  Multiset.sigma (t.keys : Multiset α) fun a => (t.get a).val

theorem get_of_not_mem {t : SetTable α β} {a : α} (h : a ∉ t) : t.get a = ∅ := by
  simp only [get, AList.lookup_eq_none.mpr h, Option.getD_none]

@[simp] theorem get_insert_self (t : SetTable α β) (a : α) (s : Finset β) :
    SetTable.get (t.insert a s) a = s := by
  simp only [get, AList.lookup_insert, Option.getD_some]

@[simp] theorem get_insert_of_ne (t : SetTable α β) {a a' : α} (s : Finset β) (h : a' ≠ a) :
    SetTable.get (t.insert a s) a' = t.get a' := by
  simp only [get, AList.lookup_insert_ne h]

@[simp] theorem get_erase_self (t : SetTable α β) (a : α) : SetTable.get (t.erase a) a = ∅ := by
  simp only [get, AList.lookup_erase, Option.getD_none]

@[simp] theorem get_erase_of_ne (t : SetTable α β) {a a' : α} (h : a' ≠ a) :
    SetTable.get (t.erase a) a' = t.get a' := by
  simp only [get, AList.lookup_erase_ne h]

theorem mem_pairs {t : SetTable α β} {p : Σ _ : α, β} : p ∈ t.pairs ↔ p.2 ∈ t.get p.1 := by
  simp only [pairs, Finset.mem_sigma, List.mem_toFinset]
  constructor
  · exact And.right
  · intro h
    refine ⟨?_, h⟩
    by_contra hkey
    rw [get_of_not_mem hkey] at h
    exact Finset.notMem_empty _ h

theorem card_listed (t : SetTable α β) : Multiset.card t.listed = t.pairs.card := by
  have hkeys : (t.keys : Multiset α) = t.keys.toFinset.val := by
    rw [List.toFinset_val, t.keys_nodup.dedup]
  unfold listed pairs
  rw [hkeys]
  rfl

variable [DecidableEq β]

def add (t : SetTable α β) (a : α) (b : β) : SetTable α β := t.insert a (insert b (t.get a))

def discard (t : SetTable α β) (a : α) (b : β) : SetTable α β :=
  if a ∈ t then
    let kept := (t.get a).erase b
    if kept = ∅ then t.erase a else t.insert a kept
  else t

theorem pairs_add (t : SetTable α β) (a : α) (b : β) :
    (t.add a b).pairs = insert ⟨a, b⟩ t.pairs := by
  ext ⟨a', b'⟩
  rw [Finset.mem_insert, mem_pairs, mem_pairs, add]
  by_cases ha : a' = a
  · subst ha
    simp
  · simp [ha]

theorem pairs_discard (t : SetTable α β) (a : α) (b : β) :
    (t.discard a b).pairs = t.pairs.erase ⟨a, b⟩ := by
  ext ⟨a', b'⟩
  rw [Finset.mem_erase, mem_pairs, mem_pairs]
  have hget : (t.discard a b).get a' = if a' = a then (t.get a).erase b else t.get a' := by
    unfold discard
    by_cases ha : a' = a
    · subst ha
      split
      · dsimp only
        split
        · next hkept => simp [hkept]
        · simp
      · next hkey => simp [get_of_not_mem hkey]
    · split
      · dsimp only
        split <;> simp [ha]
      · rfl
  rw [hget]
  by_cases ha : a' = a
  · subst ha
    simp
  · simp [ha]

end SetTable

end AgentTrading.Library

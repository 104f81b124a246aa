import Mathlib.Data.List.Perm.Subperm
import Mathlib.Data.List.Dedup

/-! A receiver that acts on the first message under each key and on no later one, and that
remembers the key of a message it turns away at a closed gate as well. -/
namespace AgentTrading.Library.Inbox

variable {Message Key : Type*} [DecidableEq Key] (key : Message → Key)

/-- The messages acted on; each arrives with the state of the gate, and `seen` are the keys known
before. -/
def accepted (seen : List Key) : List (Message × Bool) → List Message
  | [] => []
  | (m, gate) :: rest =>
    if key m ∈ seen then accepted seen rest
    else if gate then m :: accepted (key m :: seen) rest
    else accepted (key m :: seen) rest

variable {key} {seen : List Key} {arrivals : List (Message × Bool)} {m : Message}

@[simp] theorem accepted_nil : accepted key seen [] = [] := rfl

theorem accepted_seen {gate : Bool} (h : key m ∈ seen) :
    accepted key seen ((m, gate) :: arrivals) = accepted key seen arrivals := by
  simp only [accepted, if_pos h]

theorem accepted_closed (h : key m ∉ seen) :
    accepted key seen ((m, false) :: arrivals) = accepted key (key m :: seen) arrivals := by
  simp only [accepted, if_neg h, Bool.false_eq_true, if_false]

theorem accepted_open (h : key m ∉ seen) :
    accepted key seen ((m, true) :: arrivals) = m :: accepted key (key m :: seen) arrivals := by
  simp only [accepted, if_neg h, if_true]

theorem accepted_congr {seen' : List Key} (h : ∀ m, key m ∈ seen ↔ key m ∈ seen') :
    accepted key seen arrivals = accepted key seen' arrivals := by
  induction arrivals generalizing seen seen' with
  | nil => rfl
  | cons head rest ih =>
    have hmore : ∀ m, key m ∈ key head.1 :: seen ↔ key m ∈ key head.1 :: seen' := by
      intro m
      rw [List.mem_cons, List.mem_cons, h]
    simp only [accepted, h, ih h, ih hmore]

theorem mem_accepted : m ∈ accepted key seen arrivals ↔ key m ∉ seen ∧
    ∃ earlier later, arrivals = earlier ++ (m, true) :: later ∧
      ∀ a ∈ earlier, key a.1 ≠ key m := by
  induction arrivals generalizing seen with
  | nil => simp
  | cons head rest ih =>
    obtain ⟨x, gate⟩ := head
    -- a later message is first under its key unless it shares the key of the head
    have hlater : (∃ earlier later, (x, gate) :: rest = earlier ++ (m, true) :: later ∧
        ∀ a ∈ earlier, key a.1 ≠ key m) ↔
        (x = m ∧ gate = true) ∨ (key x ≠ key m ∧ ∃ earlier later,
          rest = earlier ++ (m, true) :: later ∧ ∀ a ∈ earlier, key a.1 ≠ key m) := by
      constructor
      · rintro ⟨_ | ⟨head, earlier⟩, later, heq, hkeys⟩
        · simp only [List.nil_append, List.cons.injEq, Prod.mk.injEq] at heq
          exact Or.inl heq.1
        · simp only [List.cons_append, List.cons.injEq] at heq
          obtain ⟨rfl, hrest⟩ := heq
          simp only [List.mem_cons, forall_eq_or_imp] at hkeys
          exact Or.inr ⟨hkeys.1, earlier, later, hrest, hkeys.2⟩
      · rintro (⟨rfl, rfl⟩ | ⟨hne, earlier, later, hrest, hkeys⟩)
        · exact ⟨[], rest, rfl, by simp⟩
        · refine ⟨(x, gate) :: earlier, later, by rw [hrest]; rfl, ?_⟩
          simp only [List.mem_cons, forall_eq_or_imp]
          exact ⟨hne, hkeys⟩
    rw [hlater]
    by_cases hseen : key x ∈ seen
    · rw [accepted_seen hseen, ih]
      grind
    · cases gate with
      | false =>
        rw [accepted_closed hseen, ih]
        grind
      | true =>
        rw [accepted_open hseen, List.mem_cons, ih]
        grind

theorem accepted_new : ∀ x ∈ accepted key seen arrivals, key x ∉ seen :=
  fun _ h => (mem_accepted.mp h).1

theorem accepted_arrived (h : m ∈ accepted key seen arrivals) : m ∈ arrivals.map Prod.fst := by
  obtain ⟨-, earlier, later, rfl, -⟩ := mem_accepted.mp h
  simp

theorem accepted_keys : ((accepted key seen arrivals).map key).Nodup := by
  induction arrivals generalizing seen with
  | nil => exact List.nodup_nil
  | cons head rest ih =>
    obtain ⟨x, gate⟩ := head
    by_cases hseen : key x ∈ seen
    · rw [accepted_seen hseen]
      exact ih
    · cases gate with
      | false =>
        rw [accepted_closed hseen]
        exact ih
      | true =>
        rw [accepted_open hseen, List.map_cons, List.nodup_cons]
        refine ⟨fun h => ?_, ih⟩
        obtain ⟨y, hy, hkey⟩ := List.mem_map.mp h
        exact accepted_new y hy (by rw [hkey]; exact List.mem_cons_self)

theorem accepted_nodup : (accepted key seen arrivals).Nodup := accepted_keys.of_map

theorem accepted_groups {Group Value : Type*} [DecidableEq Message] [DecidableEq Group]
    (group : Message → Group) (value : Message → Value) :
    (∀ g, (((accepted key seen arrivals).filter fun m => group m = g).map value).Perm
        ((((arrivals.map Prod.fst).dedup).filter fun m => group m = g).map value)) ↔
      ∀ m ∈ arrivals.map Prod.fst, m ∈ accepted key seen arrivals := by
  constructor
  · intro hperm m hm
    have hlength := (hperm (group m)).length_eq
    simp only [List.length_map] at hlength
    have hsub : ((accepted key seen arrivals).filter fun x => group x = group m) ⊆
        ((arrivals.map Prod.fst).dedup).filter fun x => group x = group m := by
      intro x hx
      simp only [List.mem_filter, List.mem_dedup] at hx ⊢
      exact ⟨accepted_arrived hx.1, hx.2⟩
    have hsame := (List.subperm_of_subset (accepted_nodup.filter _) hsub).perm_of_length_le
      (Nat.le_of_eq hlength.symm)
    have hmem : m ∈ ((arrivals.map Prod.fst).dedup).filter fun x => group x = group m := by
      simp only [List.mem_filter, List.mem_dedup, decide_true, and_true]
      exact hm
    exact (List.mem_filter.mp (hsame.symm.subset hmem)).1
  · intro hall g
    refine ((List.Perm.filter _ ?_).map value)
    refine (List.perm_ext_iff_of_nodup accepted_nodup (List.nodup_dedup _)).mpr fun m => ?_
    rw [List.mem_dedup]
    exact ⟨accepted_arrived, hall m⟩

end AgentTrading.Library.Inbox

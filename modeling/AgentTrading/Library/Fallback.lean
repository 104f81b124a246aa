import Mathlib.Data.Option.Basic

/-! A record looked up with `a or b or c`, against the first of the values that is a record. -/
namespace AgentTrading.Library.Fallback

variable {α β : Type} (truthy : α → Bool) (read : α → Option β)

/-- `v or w or …`: the first truthy value, or the last one. -/
def orElse : α → List α → α
  | v, [] => v
  | v, w :: rest => if truthy v then v else orElse w rest

def firstRecord (v : α) (rest : List α) : Option β := (v :: rest).findSome? read

/-- The lookup passes over no record: no truthy value that is none stands before one, and where
it skips a falsy record, what it finds instead covers it. -/
def Heeded (covers : β → β → Prop) : α → List α → Prop
  | _, [] => True
  | v, w :: rest =>
    match truthy v, read v with
    | true, some _ => True
    | true, none => firstRecord read w rest = none
    | false, none => Heeded covers w rest
    | false, some r => ∃ f ∈ read (orElse truthy w rest), covers f r

variable {truthy read} {covers : β → β → Prop}

theorem orElse_of_truthy {v : α} (h : truthy v = true) (rest : List α) :
    orElse truthy v rest = v := by
  cases rest with
  | nil => rfl
  | cons w rest => rw [orElse, if_pos h]

theorem orElse_of_falsy {v : α} (h : truthy v = false) (w : α) (rest : List α) :
    orElse truthy v (w :: rest) = orElse truthy w rest := by
  simp only [orElse, h, Bool.false_eq_true, if_false]

theorem firstRecord_of_read {v : α} {r : β} (h : read v = some r) (rest : List α) :
    firstRecord read v rest = some r := by
  simp only [firstRecord, List.findSome?_cons, h]

theorem firstRecord_of_none {v : α} (h : read v = none) (w : α) (rest : List α) :
    firstRecord read v (w :: rest) = firstRecord read w rest := by
  simp only [firstRecord, List.findSome?_cons, h]

/-- What the lookup finds covers the first record exactly where no record is passed over. -/
theorem heeded_iff (hrefl : ∀ r, covers r r) (v : α) (rest : List α) :
    Heeded truthy read covers v rest ↔
      ∀ r ∈ firstRecord read v rest, ∃ f ∈ read (orElse truthy v rest), covers f r := by
  induction rest generalizing v with
  | nil =>
    apply iff_of_true trivial
    intro r hr
    cases hread : read v with
    | none => simp [firstRecord, hread] at hr
    | some f =>
      rw [firstRecord_of_read hread, Option.mem_some_iff] at hr
      exact ⟨f, hread, hr ▸ hrefl f⟩
  | cons w rest ih =>
    cases htruthy : truthy v <;> cases hread : read v <;> simp only [Heeded, htruthy, hread]
    case false.none =>
      rw [ih, firstRecord_of_none hread, orElse_of_falsy htruthy]
    case false.some r =>
      simp [firstRecord_of_read hread, orElse_of_falsy htruthy]
    case true.none =>
      -- the truthy value is looked up and is no record
      simp [firstRecord_of_none hread, orElse_of_truthy htruthy, hread,
        Option.eq_none_iff_forall_not_mem]
    case true.some r =>
      simp [firstRecord_of_read hread, orElse_of_truthy htruthy, hread, hrefl]

/-- A lookup over values that are truthy exactly where they are records passes over none. -/
theorem heeded_of_read (v : α) (rest : List α)
    (h : ∀ u ∈ v :: rest, truthy u = (read u).isSome) : Heeded truthy read covers v rest := by
  induction rest generalizing v with
  | nil => trivial
  | cons w rest ih =>
    have hv := h v List.mem_cons_self
    have htail := ih w fun u hu => h u (List.mem_cons_of_mem v hu)
    cases hread : read v with
    | none => simpa only [Heeded, hv, hread, Option.isSome_none] using htail
    | some r => simp only [Heeded, hv, hread, Option.isSome_some]

end AgentTrading.Library.Fallback

import AgentTrading.Library.History

/-! A queue whose entries take their turns one after the other. An entry is tried while there is
room for it and refused otherwise, and the result of each turn is recorded in the state that
decides about the next one. -/
namespace AgentTrading.Library.Turns
open Program

variable {Op : Type} {Reply : Op → Type} {ε α β σ : Type}

structure Turn (Op : Type) (Reply : Op → Type) (α β : Type) where
  entry : α
  result : β
  steps : History Op Reply

variable (room : σ → Bool) (attempt refuse : α → Program Op Reply ε β) (record : σ → α → β → σ)

def serve : List α → σ → Program Op Reply ε σ
  | [], s => .ret s
  | a :: queue, s =>
    (if room s then attempt a else refuse a).bind fun b => serve queue (record s a b)

/-- The state that some turns leave. -/
def after (s : σ) (turns : List (Turn Op Reply α β)) : σ :=
  turns.foldl (fun s t => record s t.entry t.result) s

@[simp] theorem after_nil (s : σ) : after record s ([] : List (Turn Op Reply α β)) = s := rfl

@[simp] theorem after_cons (s : σ) (t : Turn Op Reply α β) (turns : List (Turn Op Reply α β)) :
    after record s (t :: turns) = after record (record s t.entry t.result) turns := rfl

theorem after_append (s : σ) (turns later : List (Turn Op Reply α β)) :
    after record s (turns ++ later) = after record (after record s turns) later :=
  List.foldl_append

/-- The entry has been tried. -/
def Tried (t : Turn Op Reply α β) : Prop := (attempt t.entry).Performs t.steps (.ok t.result)

/-- These turns can be taken in this order from the state on. -/
inductive Took : σ → List (Turn Op Reply α β) → Prop where
  | nil (s : σ) : Took s []
  | cons {s : σ} {t : Turn Op Reply α β} {turns : List (Turn Op Reply α β)}
      (head : Tried (if room s then attempt else refuse) t)
      (tail : Took (record s t.entry t.result) turns) : Took s (t :: turns)

variable {room attempt refuse record}

theorem serve_performs (hattempt : ∀ a steps e, ¬(attempt a).Performs steps (.error e))
    (hrefuse : ∀ a steps e, ¬(refuse a).Performs steps (.error e)) {queue : List α} {s : σ}
    {steps : History Op Reply} {out : Except ε σ}
    (h : (serve room attempt refuse record queue s).Performs steps out) :
    ∃ turns, Took room attempt refuse record s turns ∧ turns.map (·.entry) = queue ∧
      steps = turns.flatMap (·.steps) ∧ out = .ok (after record s turns) := by
  induction queue generalizing s steps with
  | nil =>
    cases h
    exact ⟨[], .nil s, rfl, rfl, rfl⟩
  | cons a queue ih =>
    rcases performs_bind h with ⟨e, hraised, -⟩ | ⟨b, first, rest, rfl, hfirst, hrest⟩
    · split at hraised
      · exact (hattempt a steps e hraised).elim
      · exact (hrefuse a steps e hraised).elim
    · obtain ⟨turns, htook, rfl, rfl, rfl⟩ := ih hrest
      have hhead : Tried (if room s then attempt else refuse) ⟨a, b, first⟩ := by
        unfold Tried
        rw [ite_apply]
        exact hfirst
      exact ⟨⟨a, b, first⟩ :: turns, .cons hhead htook, rfl, rfl, rfl⟩

theorem Took.refused {s : σ} {turns : List (Turn Op Reply α β)}
    (h : Took room attempt refuse record s turns)
    (hshut : ∀ s (t : Turn Op Reply α β), Tried refuse t → room s = false →
      room (record s t.entry t.result) = false) (hs : room s = false) :
    ∀ t ∈ turns, Tried refuse t := by
  induction h with
  | nil s => simp
  | cons head tail ih =>
    rw [hs, if_neg Bool.false_ne_true] at head
    exact List.forall_mem_cons.mpr ⟨head, ih (hshut _ _ head hs)⟩

/-- Once an entry has been refused every later one is, so that the turns are those of a first part
of the queue, which is tried, and of the rest, which is refused. -/
theorem Took.split {s : σ} {turns : List (Turn Op Reply α β)}
    (h : Took room attempt refuse record s turns)
    (hshut : ∀ s (t : Turn Op Reply α β), Tried refuse t → room s = false →
      room (record s t.entry t.result) = false) :
    ∃ tried refused, turns = tried ++ refused ∧ (∀ t ∈ tried, Tried attempt t) ∧
      (∀ t ∈ refused, Tried refuse t) ∧
      (∀ before t later, tried = before ++ t :: later → room (after record s before) = true) ∧
      (refused ≠ [] → room (after record s tried) = false) := by
  induction h with
  | nil s => exact ⟨[], [], rfl, by simp, by simp, by simp, by simp⟩
  | @cons s t turns head tail ih =>
    cases hroom : room s with
    | true =>
      rw [hroom, if_pos rfl] at head
      obtain ⟨tried, refused, rfl, htried, hrefused, hopen, hclosed⟩ := ih
      refine ⟨t :: tried, refused, rfl, List.forall_mem_cons.mpr ⟨head, htried⟩, hrefused, ?_,
        hclosed⟩
      intro before u later hsplit
      cases before with
      | nil => exact hroom
      | cons first before =>
        obtain ⟨rfl, hrest⟩ := List.cons.inj hsplit
        exact hopen before u later hrest
    | false =>
      have hall := (Took.cons head tail).refused hshut hroom
      exact ⟨[], t :: turns, rfl, by simp, hall, by simp, fun _ => hroom⟩

/-! A budget of which some results use one unit. -/

section Budget

variable (used : σ → Int) {uses : β → Bool}

theorem used_after
    (hused : ∀ s a b, used (record s a b) = used s + if uses b then 1 else 0) (s : σ)
    (turns : List (Turn Op Reply α β)) :
    used (after record s turns) = used s + turns.countP (uses ·.result) := by
  induction turns generalizing s with
  | nil => simp
  | cons t turns ih =>
    rw [after_cons, ih, hused, List.countP_cons]
    cases uses t.result with
    | true => simp; omega
    | false => simp

/-- The budget is never overdrawn, as only who finds some of it left is tried. -/
theorem within_budget {limit : Int}
    (hused : ∀ s a b, used (record s a b) = used s + if uses b then 1 else 0) {s : σ}
    (hs : used s ≤ limit) {tried : List (Turn Op Reply α β)}
    (hopen : ∀ before t later, tried = before ++ t :: later →
      used (after record s before) < limit) : used (after record s tried) ≤ limit := by
  rcases List.eq_nil_or_concat tried with rfl | ⟨before, t, rfl⟩
  · exact hs
  · have hlast := hopen before t [] List.concat_eq_append
    rw [List.concat_eq_append, after_append, after_cons, after_nil, hused]
    split <;> omega

end Budget

end AgentTrading.Library.Turns

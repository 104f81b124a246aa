import AgentTrading.Library.Runs

/-! Waiting lines. A step takes members out and lets newcomers in at the end, so that of two
members that stay the one ahead stays ahead. A member may leave and come back as a newcomer. -/
namespace AgentTrading.Library.WaitingLine
open Runs

variable {α : Type}

/-- Some members leave, and who comes in stands behind those that stay. -/
def Advances (before after : List α) : Prop :=
  ∃ (stays : α → Bool) (newcomers : List α), after = before.filter stays ++ newcomers ∧
    ∀ x ∈ newcomers, x ∉ before

theorem advances_filter (before : List α) (stays : α → Bool) :
    Advances before (before.filter stays) :=
  ⟨stays, [], (List.append_nil _).symm, fun _ h => (List.not_mem_nil h).elim⟩

theorem Advances.of_sublist [DecidableEq α] {before kept newcomers : List α}
    (hnodup : before.Nodup) (hkept : kept.Sublist before) (hnew : ∀ x ∈ newcomers, x ∉ before) :
    Advances before (kept ++ newcomers) := by
  refine ⟨fun x => x ∈ kept, newcomers, congrArg (· ++ newcomers) ?_, hnew⟩
  clear hnew
  induction hkept with
  | slnil => rfl
  | cons x hkept ih =>
    rw [List.nodup_cons] at hnodup
    have hx : x ∉ _ := fun hmem => hnodup.1 (hkept.subset hmem)
    rw [List.filter_cons_of_neg (by simpa using hx)]
    exact ih hnodup.2
  | cons_cons x hkept ih =>
    rw [List.nodup_cons] at hnodup
    rw [List.filter_cons_of_pos (by simp)]
    refine congrArg (x :: ·) ((ih hnodup.2).trans (List.filter_congr fun y hy => ?_))
    have hne : y ≠ x := fun heq => hnodup.1 (heq ▸ hy)
    simp [hne]

/-- `b` is not in the line, or `a` is ahead of it. -/
def Behind (a b : α) (line : List α) : Prop := b ∉ line ∨ [a, b].Sublist line

section

variable {before after : List α} {a b : α}

theorem ahead_asymm {line : List α} (hnodup : line.Nodup) (hab : [a, b].Sublist line)
    (hba : [b, a].Sublist line) : False := by
  induction line with
  | nil => cases hab
  | cons x line ih =>
    rw [List.nodup_cons] at hnodup
    cases hab with
    | cons _ hab =>
      cases hba with
      | cons _ hba => exact ih hnodup.2 hab hba
      | cons_cons _ _ => exact hnodup.1 (hab.subset (by simp))
    | cons_cons _ hb =>
      cases hba with
      | cons _ hba => exact hnodup.1 (hba.subset (by simp))
      | cons_cons _ _ => exact hnodup.1 (hb.subset (by simp))

theorem Advances.order (h : Advances before after) (hab : [a, b].Sublist before)
    (ha : a ∈ after) (hb : b ∈ after) : [a, b].Sublist after := by
  obtain ⟨stays, newcomers, rfl, hnew⟩ := h
  have hstays : ∀ x ∈ before, x ∈ before.filter stays ++ newcomers → stays x = true := by
    intro x hx hmem
    rcases List.mem_append.mp hmem with hkept | hnewcomer
    · exact (List.mem_filter.mp hkept).2
    · exact (hnew x hnewcomer hx).elim
  have hkept := hab.filter stays
  simp only [List.filter_cons, List.filter_nil, hstays a (hab.subset (by simp)) ha,
    hstays b (hab.subset (by simp)) hb, if_true] at hkept
  exact hkept.trans (List.sublist_append_left _ _)

theorem Advances.behind (h : Advances before after) (hbehind : Behind a b before)
    (ha : a ∈ before) (ha' : a ∈ after) : Behind a b after := by
  by_cases hb : b ∈ after
  · refine Or.inr ?_
    rcases hbehind with hout | hab
    · obtain ⟨stays, newcomers, rfl, hnew⟩ := h
      have hfirst : [a].Sublist (before.filter stays) := by
        rw [List.singleton_sublist]
        exact (List.mem_append.mp ha').resolve_right fun hmem => hnew a hmem ha
      have hsecond : [b].Sublist newcomers := by
        rw [List.singleton_sublist]
        exact (List.mem_append.mp hb).resolve_left fun hmem => hout (List.mem_filter.mp hmem).1
      exact hfirst.append hsecond
    · exact h.order hab ha' hb
  · exact Or.inl hb

end

section

variable {σ ε : Type} {step : σ → ε → σ} {line : σ → List α} {I : σ → Prop}
  (hkeeps : ∀ s e, I s → I (step s e))
  (hadvances : ∀ s e, I s → Advances (line s) (line (step s e))) {a b : α}
include hkeeps hadvances

theorem run_order (s : σ) (es : List ε) (hs : I s) (hab : [a, b].Sublist (line s))
    (hstay : Throughout step (fun t => a ∈ line t ∧ b ∈ line t) s es) :
    [a, b].Sublist (line (run step s es)) := by
  induction es generalizing s with
  | nil => exact hab
  | cons e es ih =>
    have hnext := hstay.2.start
    exact ih (step s e) (hkeeps s e hs) ((hadvances s e hs).order hab hnext.1 hnext.2) hstay.2

theorem run_behind (s : σ) (es : List ε) (hs : I s) (hbehind : Behind a b (line s))
    (hstay : Throughout step (fun t => a ∈ line t) s es) :
    Throughout step (fun t => Behind a b (line t)) s es := by
  induction es generalizing s with
  | nil => exact hbehind
  | cons e es ih =>
    refine ⟨hbehind, ih (step s e) (hkeeps s e hs) ?_ hstay.2⟩
    exact (hadvances s e hs).behind hbehind hstay.1 hstay.2.start

end

end AgentTrading.Library.WaitingLine

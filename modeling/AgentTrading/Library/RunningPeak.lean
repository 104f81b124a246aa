import Mathlib.Order.Bounds.Basic
import Mathlib.Order.MinMax

/-! A pass over a series that keeps the peak so far and the worst loss from it, and the pairs
of the series it looks at without forming them. -/
namespace AgentTrading.Library.RunningPeak

variable {α β γ : Type}

/-- The losses from an entry with `P` to an entry at or after it. -/
def losses (loss : α → α → β) (P : α → Prop) (xs : List α) : Set β :=
  {d | ∃ (i j : Nat) (a b : α), i ≤ j ∧ xs[i]? = some a ∧ xs[j]? = some b ∧ P a ∧ d = loss a b}

variable {loss : α → α → β} {P Q : α → Prop} {a x : α} {xs : List α} {d w : β}

theorem mem_losses_cons : d ∈ losses loss P (a :: xs) ↔
    (P a ∧ ∃ b ∈ a :: xs, d = loss a b) ∨ d ∈ losses loss P xs := by
  constructor
  · rintro ⟨i, j, a', b, hij, ha, hb, hP, rfl⟩
    cases i with
    | zero =>
      rw [List.getElem?_cons_zero, Option.some.injEq] at ha
      subst ha
      exact .inl ⟨hP, b, List.mem_of_getElem? hb, rfl⟩
    | succ i =>
      cases j with
      | zero => omega
      | succ j => exact .inr ⟨i, j, a', b, by omega, by simpa using ha, by simpa using hb, hP, rfl⟩
  · rintro (⟨hP, b, hb, rfl⟩ | ⟨i, j, a', b, hij, ha, hb, hP, rfl⟩)
    · obtain ⟨j, hj⟩ := List.getElem?_of_mem hb
      exact ⟨0, j, a, b, Nat.zero_le j, rfl, hj, hP, rfl⟩
    · exact ⟨i + 1, j + 1, a', b, by omega, by simpa using ha, by simpa using hb, hP, rfl⟩

theorem losses_cons_subset : losses loss P xs ⊆ losses loss P (a :: xs) :=
  fun _ hd => mem_losses_cons.mpr (.inr hd)

variable [LinearOrder α] [LinearOrder β] [LinearOrder γ] {state : α × β}

def step (loss : α → α → β) (state : α × β) (x : α) : α × β :=
  (max state.1 x, max state.2 (loss (max state.1 x) x))

def pass (loss : α → α → β) (state : α × β) (xs : List α) : α × β := xs.foldl (step loss) state

@[simp] theorem pass_nil : pass loss state [] = state := rfl

@[simp] theorem pass_cons : pass loss state (x :: xs) = pass loss (step loss state x) xs := rfl

theorem pass_peak (state : α × β) (xs : List α) :
    IsGreatest {y | y ∈ state.1 :: xs} (pass loss state xs).1 := by
  induction xs generalizing state with
  | nil =>
    constructor
    · simp
    · simp [upperBounds]
  | cons x xs ih =>
    obtain ⟨hmem, hbound⟩ := ih (step loss state x)
    have hmax : max state.1 x ≤ (pass loss (step loss state x) xs).1 := hbound (by simp [step])
    constructor
    · rcases List.mem_cons.mp hmem with hpeak | hlater
      · rw [pass_cons, hpeak]
        change max state.1 x ∈ state.1 :: x :: xs
        rcases max_choice state.1 x with hold | hnew
        · simp [hold]
        · simp [hnew]
      · simp [hlater]
    · intro y hy
      rcases List.mem_cons.mp hy with rfl | hy
      · exact (le_max_left _ _).trans hmax
      · rcases List.mem_cons.mp hy with rfl | hy
        · exact (le_max_right _ _).trans hmax
        · exact hbound (List.mem_cons_of_mem _ hy)

/-- What makes a loss from a higher peak the greater one: `P` holds of every entry above one
it holds of, and entries with `Q` lose more from a higher peak. -/
structure Monotonic (loss : α → α → β) (P Q : α → Prop) : Prop where
  upward : ∀ a a', P a → a ≤ a' → P a'
  mono : ∀ a a' b, P a → a ≤ a' → Q b → loss a b ≤ loss a' b

theorem losses_of_step (h : Monotonic loss P Q) (hP : P a)
    (hd : d ∈ insert (step loss (a, w) x).2 (losses loss P ((step loss (a, w) x).1 :: xs))) :
    d ∈ insert w (losses loss P (a :: x :: xs)) := by
  have hpeak : P (max a x) := h.upward _ _ hP (le_max_left a x)
  change d ∈ insert (max w (loss (max a x) x)) (losses loss P (max a x :: xs)) at hd
  rcases max_choice a x with hold | hnew
  · rw [hold] at hd
    rcases hd with rfl | hd
    · rcases max_choice w (loss a x) with hw | hloss
      · rw [hw]
        exact Set.mem_insert _ _
      · rw [hloss]
        exact Set.mem_insert_of_mem _ (mem_losses_cons.mpr (.inl ⟨hP, x, by simp, rfl⟩))
    · apply Set.mem_insert_of_mem
      rcases mem_losses_cons.mp hd with ⟨-, b, hb, rfl⟩ | hd
      · refine mem_losses_cons.mpr (.inl ⟨hP, b, ?_, rfl⟩)
        rcases List.mem_cons.mp hb with rfl | hb
        · simp
        · simp [hb]
      · exact losses_cons_subset (losses_cons_subset hd)
  · rw [hnew] at hd hpeak
    rcases hd with rfl | hd
    · rcases max_choice w (loss x x) with hw | hloss
      · rw [hw]
        exact Set.mem_insert _ _
      · rw [hloss]
        apply Set.mem_insert_of_mem
        exact losses_cons_subset (mem_losses_cons.mpr (.inl ⟨hpeak, x, by simp, rfl⟩))
    · exact Set.mem_insert_of_mem _ (losses_cons_subset hd)

theorem le_losses_of_step (h : Monotonic loss P Q) (hP : P a) (hself : loss a a ≤ w)
    (hQ : ∀ b ∈ a :: x :: xs, Q b) (hd : d ∈ insert w (losses loss P (a :: x :: xs))) :
    ∃ e ∈ insert (step loss (a, w) x).2 (losses loss P ((step loss (a, w) x).1 :: xs)), d ≤ e := by
  have hpeak : P (max a x) := h.upward _ _ hP (le_max_left a x)
  change ∃ e ∈ insert (max w (loss (max a x) x)) (losses loss P (max a x :: xs)), d ≤ e
  have hfrom : ∀ c, P c → c ≤ max a x → ∀ b ∈ x :: xs,
      ∃ e ∈ insert (max w (loss (max a x) x)) (losses loss P (max a x :: xs)), loss c b ≤ e := by
    intro c hc hle b hb
    have hmono := h.mono _ _ b hc hle (hQ b (List.mem_cons_of_mem _ hb))
    rcases List.mem_cons.mp hb with rfl | hlater
    · exact ⟨_, Set.mem_insert _ _, hmono.trans (le_max_right _ _)⟩
    · refine ⟨_, Set.mem_insert_of_mem _ ?_, hmono⟩
      exact mem_losses_cons.mpr (.inl ⟨hpeak, b, by simp [hlater], rfl⟩)
  rcases hd with rfl | hd
  · exact ⟨_, Set.mem_insert _ _, le_max_left _ _⟩
  · rcases mem_losses_cons.mp hd with ⟨-, b, hb, rfl⟩ | hd
    · rcases List.mem_cons.mp hb with rfl | hb
      · exact ⟨_, Set.mem_insert _ _, hself.trans (le_max_left _ _)⟩
      · exact hfrom a hP (le_max_left a x) b hb
    · rcases mem_losses_cons.mp hd with ⟨hPx, b, hb, rfl⟩ | hd
      · exact hfrom x hPx (le_max_right a x) b hb
      · exact ⟨d, Set.mem_insert_of_mem _ (losses_cons_subset hd), le_rfl⟩

theorem self_step (hself : loss a a ≤ w) :
    loss (step loss (a, w) x).1 (step loss (a, w) x).1 ≤ (step loss (a, w) x).2 := by
  change loss (max a x) (max a x) ≤ max w (loss (max a x) x)
  rcases max_choice a x with hold | hnew
  · rw [hold]
    exact hself.trans (le_max_left _ _)
  · rw [hnew]
    exact le_max_right _ _

theorem pass_worst (h : Monotonic loss P Q) (hP : P a) (hself : loss a a ≤ w)
    (hQ : ∀ b ∈ a :: xs, Q b) :
    IsGreatest (insert w (losses loss P (a :: xs))) (pass loss (a, w) xs).2 := by
  induction xs generalizing a w with
  | nil =>
    constructor
    · exact Set.mem_insert _ _
    · rintro d (rfl | hd)
      · exact le_rfl
      · rcases mem_losses_cons.mp hd with ⟨-, b, hb, rfl⟩ | ⟨i, j, _, _, _, hi, _⟩
        · rw [List.mem_singleton] at hb
          rwa [hb]
        · simp at hi
  | cons x xs ih =>
    have hpeak : P (step loss (a, w) x).1 := h.upward _ _ hP (le_max_left a x)
    have hQstep : ∀ b ∈ (step loss (a, w) x).1 :: xs, Q b := by
      intro b hb
      rcases List.mem_cons.mp hb with rfl | hb
      · rcases max_choice a x with hold | hnew
        · exact hQ _ (by simp [step, hold])
        · exact hQ _ (by simp [step, hnew])
      · exact hQ b (by simp [hb])
    obtain ⟨hmem, hbound⟩ := ih hpeak (self_step hself) hQstep
    constructor
    · exact losses_of_step h hP hmem
    · intro d hd
      obtain ⟨e, he, hle⟩ := le_losses_of_step h hP hself hQ hd
      exact hle.trans (hbound he)

/-- Two losses the pass compares along: at a peak and an entry not above it. -/
theorem pass_le {loss' : α → α → γ} {f : β → γ} (hf : Monotone f)
    (hup : ∀ a a', P a → a ≤ a' → P a') (hP : P a) (hQ : ∀ b ∈ xs, Q b)
    (hloss : ∀ a b, P a → Q b → b ≤ a → loss' a b ≤ f (loss a b)) {w' : γ} (hw : w' ≤ f w) :
    (pass loss' (a, w') xs).2 ≤ f (pass loss (a, w) xs).2 := by
  induction xs generalizing a w w' with
  | nil => exact hw
  | cons x xs ih =>
    have hpeak := hup _ _ hP (le_max_left a x)
    refine ih hpeak (fun b hb => hQ b (List.mem_cons_of_mem _ hb)) (max_le ?_ ?_)
    · exact hw.trans (hf (le_max_left _ _))
    · exact (hloss _ _ hpeak (hQ x (by simp)) (le_max_right a x)).trans (hf (le_max_right _ _))

theorem le_pass {loss' : α → α → γ} {f : β → γ} (hf : Monotone f)
    (hup : ∀ a a', P a → a ≤ a' → P a') (hP : P a) (hQ : ∀ b ∈ xs, Q b)
    (hloss : ∀ a b, P a → Q b → b ≤ a → f (loss a b) ≤ loss' a b) {w' : γ} (hw : f w ≤ w') :
    f (pass loss (a, w) xs).2 ≤ (pass loss' (a, w') xs).2 := by
  induction xs generalizing a w w' with
  | nil => exact hw
  | cons x xs ih =>
    have hpeak := hup _ _ hP (le_max_left a x)
    refine ih hpeak (fun b hb => hQ b (List.mem_cons_of_mem _ hb)) ?_
    change f (max w (loss (max a x) x)) ≤ max w' (loss' (max a x) x)
    rw [hf.map_max]
    apply max_le_max hw
    exact hloss _ _ hpeak (hQ x (by simp)) (le_max_right a x)

theorem last_le_pass (state : α × β) (hx : x ∈ xs.getLast?) :
    loss (pass loss state xs).1 x ≤ (pass loss state xs).2 := by
  obtain ⟨front, rfl⟩ := List.getLast?_eq_some_iff.mp hx
  simp only [pass, List.foldl_append, List.foldl_cons, List.foldl_nil]
  exact le_max_right _ _

end AgentTrading.Library.RunningPeak

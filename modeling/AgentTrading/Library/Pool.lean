import AgentTrading.Library.Program
import AgentTrading.Library.Runs
import Mathlib.Logic.Function.Basic

/-! Interleaved runs of programs over one shared state. Each event starts a job or
lets one started job perform one operation. The rely of a job is what the other jobs
may do to the shared state between two of its operations. -/
namespace AgentTrading.Library

namespace Program

variable {Op : Type} {Reply : Op → Type} {ε α β σ χ : Type}
variable (exec : χ → (op : Op) → σ → Reply op × σ)

/-- From `s` on, whatever the others do between its operations and as long as its own
operations meet `may`, each operation of the program is `good` and it ends in `post`. -/
def Safe (rely : σ → σ → Prop) (may good : χ → Op → σ → Prop) (post : Except ε α → σ → Prop) :
    Program Op Reply ε α → σ → Prop
  | ret a, s => ∀ s', rely s s' → post (.ok a) s'
  | raise e, s => ∀ s', rely s s' → post (.error e) s'
  | call op k, s => ∀ s' c, rely s s' → may c op s' →
      good c op s' ∧ Safe rely may good post (k (exec c op s').1) (exec c op s').2

variable {exec} {rely : σ → σ → Prop} {may good : χ → Op → σ → Prop}

theorem Safe.mono_rely (trans : ∀ a b c, rely a b → rely b c → rely a c)
    {post : Except ε α → σ → Prop} {p : Program Op Reply ε α} {s s' : σ}
    (h : Safe exec rely may good post p s) (hs : rely s s') :
    Safe exec rely may good post p s' := by
  cases p with
  | ret a => exact fun t ht => h t (trans _ _ _ hs ht)
  | raise e => exact fun t ht => h t (trans _ _ _ hs ht)
  | call op k => exact fun t c ht => h t c (trans _ _ _ hs ht)

theorem Safe.bind {mid : Except ε α → σ → Prop} {post : Except ε β → σ → Prop}
    {p : Program Op Reply ε α} {f : α → Program Op Reply ε β} {s : σ}
    (refl : ∀ s, rely s s)
    (hp : Safe exec rely may good mid p s)
    (hf : ∀ a s', mid (.ok a) s' → Safe exec rely may good post (f a) s')
    (he : ∀ e s', mid (.error e) s' → post (.error e) s') :
    Safe exec rely may good post (p.bind f) s := by
  induction p generalizing s with
  | ret a => exact hf a s (hp s (refl s))
  | raise e => exact fun s' hs => he e s' (hp s' hs)
  | call op k ih =>
    intro s' c hs hm
    exact ⟨(hp s' c hs hm).1, ih _ (hp s' c hs hm).2⟩

theorem Safe.handle {mid post : Except ε α → σ → Prop}
    {p : Program Op Reply ε α} {f : ε → Program Op Reply ε α} {s : σ}
    (refl : ∀ s, rely s s)
    (hp : Safe exec rely may good mid p s)
    (ho : ∀ a s', mid (.ok a) s' → post (.ok a) s')
    (hf : ∀ e s', mid (.error e) s' → Safe exec rely may good post (f e) s') :
    Safe exec rely may good post (p.handle f) s := by
  induction p generalizing s with
  | ret a => exact fun s' hs => ho a s' (hp s' hs)
  | raise e => exact hf e s (hp s (refl s))
  | call op k ih =>
    intro s' c hs hm
    exact ⟨(hp s' c hs hm).1, ih _ (hp s' c hs hm).2⟩

theorem Safe.lift {Op' : Type} {Reply' : Op' → Type} {χ' σ' : Type}
    {exec' : χ' → (op : Op') → σ' → Reply' op × σ'} {f : Op → Op'}
    {g : ∀ op, Reply' (f op) → Reply op} {may' good' : χ' → Op' → σ' → Prop}
    (choose : χ' → χ) (part : σ' → σ)
    (hexec : ∀ c op s, exec (choose c) op (part s) =
      (g op (exec' c (f op) s).1, part (exec' c (f op) s).2))
    (hmay : ∀ c op s, may' c (f op) s → may (choose c) op (part s))
    (hgood : ∀ c op s, good (choose c) op (part s) → good' c (f op) s)
    {post : Except ε α → σ → Prop} {p : Program Op Reply ε α} {s : σ'}
    (hp : Safe exec rely may good post p (part s)) :
    Safe exec' (fun s t => rely (part s) (part t)) may' good' (fun r s => post r (part s))
      (p.lift f g) s := by
  induction p generalizing s with
  | ret a => exact fun t ht => hp (part t) ht
  | raise e => exact fun t ht => hp (part t) ht
  | call op k ih =>
    intro t c ht hm
    obtain ⟨hop, hrest⟩ := hp (part t) (choose c) ht (hmay c op t hm)
    refine ⟨hgood c op t hop, ?_⟩
    rw [hexec] at hrest
    exact ih _ hrest

/-- Safety in every state of `K`, for a `K` that the rely and the program's own good
operations keep. -/
def SafeIn (exec : χ → (op : Op) → σ → Reply op × σ) (rely : σ → σ → Prop)
    (may good : χ → Op → σ → Prop) (K : σ → Prop) (p : Program Op Reply ε α) : Prop :=
  ∀ s, K s → Safe exec rely may good (fun _ _ => True) p s

section Stable

variable {K : σ → Prop} (stable : ∀ s s', rely s s' → K s → K s')
variable (within : ∀ c op s, K s → good c op s → rely s (exec c op s).2)

theorem safeIn_ret (a : α) :
    SafeIn exec rely may good K (ret a : Program Op Reply ε α) :=
  fun _ _ _ _ => trivial

theorem safeIn_raise (e : ε) :
    SafeIn exec rely may good K (raise e : Program Op Reply ε α) :=
  fun _ _ _ _ => trivial

include stable within

theorem safeIn_call {op : Op} {k : Reply op → Program Op Reply ε α}
    (hgood : ∀ c s, K s → may c op s → good c op s)
    (hk : ∀ c s, K s → may c op s → K (exec c op s).2 →
      Safe exec rely may good (fun _ _ => True) (k (exec c op s).1) (exec c op s).2) :
    SafeIn exec rely may good K (call op k) := by
  intro s hs s' c hrely hmay
  have hs' := stable s s' hrely hs
  have hg := hgood c s' hs' hmay
  exact ⟨hg, hk c s' hs' hmay (stable _ _ (within c op s' hs' hg) hs')⟩

/-- Operations that are good in every state of `K` can come first. -/
theorem safeIn_bind {P : Op → Prop} {Q : Except ε α → Prop} {p : Program Op Reply ε α}
    {f : α → Program Op Reply ε β} (hp : p.Only P Q)
    (hP : ∀ op, P op → ∀ c s, K s → good c op s)
    (hf : ∀ a, Q (.ok a) → SafeIn exec rely may good K (f a)) :
    SafeIn exec rely may good K (p.bind f) := by
  induction p with
  | ret a => exact hf a hp
  | raise e => exact safeIn_raise e
  | call op k ih =>
    exact safeIn_call stable within (fun c s hs _ => hP op hp.1 c s hs)
      fun c s _ _ hs => ih _ (hp.2 _) _ hs

theorem safeIn_only {P : Op → Prop} {Q : Except ε α → Prop} {p : Program Op Reply ε α}
    (hp : p.Only P Q) (hP : ∀ op, P op → ∀ c s, K s → good c op s) :
    SafeIn exec rely may good K p := by
  induction p with
  | ret a => exact safeIn_ret a
  | raise e => exact safeIn_raise e
  | call op k ih =>
    exact safeIn_call stable within (fun c s hs _ => hP op hp.1 c s hs)
      fun c s _ _ hs => ih _ (hp.2 _) _ hs

theorem Safe.keeps {p : Program Op Reply ε α} {s : σ}
    (hp : Safe exec rely may good (fun _ _ => True) p s) (hs : K s) :
    Safe exec rely may good (fun _ t => K t) p s := by
  induction p generalizing s with
  | ret a => exact fun t ht => stable s t ht hs
  | raise e => exact fun t ht => stable s t ht hs
  | call op k ih =>
    intro t c ht hmay
    obtain ⟨hgood, hrest⟩ := hp t c ht hmay
    have hkept : K t := stable s t ht hs
    exact ⟨hgood, ih _ hrest (stable _ _ (within c op t hkept hgood) hkept)⟩

theorem safeIn_seq {p : Program Op Reply ε α} {f : α → Program Op Reply ε β}
    (refl : ∀ s, rely s s) (hp : SafeIn exec rely may good K p)
    (hf : ∀ a, SafeIn exec rely may good K (f a)) : SafeIn exec rely may good K (p.bind f) := by
  intro s hs
  apply (Safe.keeps stable within (hp s hs) hs).bind refl
  · exact fun a t ht => hf a t ht
  · exact fun _ _ _ => trivial

theorem safeIn_handle {p : Program Op Reply ε α} {f : ε → Program Op Reply ε α}
    (refl : ∀ s, rely s s) (hp : SafeIn exec rely may good K p)
    (hf : ∀ e, SafeIn exec rely may good K (f e)) : SafeIn exec rely may good K (p.handle f) := by
  intro s hs
  apply (Safe.keeps stable within (hp s hs) hs).handle refl
  · exact fun _ _ _ => trivial
  · exact fun e t ht => hf e t ht

end Stable

end Program

/-- Shared state and the jobs started on it, each with the program it has left. -/
structure Pool (Op : Type) (Reply : Op → Type) (ε α κ σ : Type) where
  shared : σ
  threads : Nat → Option (κ × Program Op Reply ε α)

namespace Pool

variable {Op : Type} {Reply : Op → Type} {ε α κ σ χ : Type}

inductive Event (κ χ : Type) where
  | start (t : Nat) (job : κ)
  | step (t : Nat) (c : χ)

/-- A state no job has been started on. -/
def idle (s : σ) : Pool Op Reply ε α κ σ := ⟨s, fun _ => none⟩

/-- Every job that was started has returned or raised. -/
def Finished (w : Pool Op Reply ε α κ σ) : Prop :=
  ∀ t, (w.threads t).all fun x => x.2.ended

variable (exec : χ → (op : Op) → σ → Reply op × σ) (code : κ → Program Op Reply ε α)

def step (w : Pool Op Reply ε α κ σ) : Event κ χ → Pool Op Reply ε α κ σ
  | .start t job =>
    match w.threads t with
    | none => { w with threads := Function.update w.threads t (some (job, code job)) }
    | some _ => w
  | .step t c =>
    match w.threads t with
    | some (job, .call op k) =>
      { shared := (exec c op w.shared).2
        threads := Function.update w.threads t (some (job, k (exec c op w.shared).1)) }
    | _ => w

abbrev run (w : Pool Op Reply ε α κ σ) (es : List (Event κ χ)) : Pool Op Reply ε α κ σ :=
  Runs.run (step exec code) w es

theorem threads_unstarted (w : Pool Op Reply ε α κ σ) (t : Nat) (es : List (Event κ χ))
    (hw : w.threads t = none) (hes : ∀ job, .start t job ∉ es) :
    (run exec code w es).threads t = none := by
  induction es generalizing w with
  | nil => exact hw
  | cons e es ih =>
    simp only [List.mem_cons, not_or] at hes
    refine ih _ ?_ fun job => (hes job).2
    cases e with
    | start u job =>
      have hu : t ≠ u := by
        rintro rfl
        exact (hes job).1 rfl
      simp only [step]
      split
      · simp only [Function.update_of_ne hu, hw]
      · exact hw
    | step u c =>
      simp only [step]
      split
      · rename_i hthread
        have hu : t ≠ u := by
          rintro rfl
          rw [hw] at hthread
          cases hthread
        simp only [Function.update_of_ne hu, hw]
      · exact hw

/-- A condition on runs: `entry` of every job started, `may` of every operation performed. -/
def Allows (entry : κ → σ → Prop) (may : κ → χ → Op → σ → Prop)
    (w : Pool Op Reply ε α κ σ) : Event κ χ → Prop
  | .start t job => w.threads t = none → entry job w.shared
  | .step t c =>
    match w.threads t with
    | some (job, .call op _) => may job c op w.shared
    | _ => True

/-- Every event of the run meets the condition. -/
abbrev Meets (entry : κ → σ → Prop) (may : κ → χ → Op → σ → Prop)
    (w : Pool Op Reply ε α κ σ) (es : List (Event κ χ)) : Prop :=
  Runs.Meets (step exec code) (Allows entry may) w es

/-- The shared state is in `I` and every started job is safe from it on. -/
structure Guarded (rely : σ → σ → Prop) (may good : κ → χ → Op → σ → Prop)
    (I : σ → Prop) (w : Pool Op Reply ε α κ σ) : Prop where
  shared : I w.shared
  threads : ∀ t job p, w.threads t = some (job, p) →
    Program.Safe exec rely (may job) (good job) (fun _ _ => True) p w.shared

variable {exec code} {rely : σ → σ → Prop} {entry : κ → σ → Prop}
variable {may good : κ → χ → Op → σ → Prop} {I : σ → Prop}

theorem guarded_step (refl : ∀ s, rely s s)
    (trans : ∀ a b c, rely a b → rely b c → rely a c)
    (begins : ∀ job s, I s → entry job s →
      Program.Safe exec rely (may job) (good job) (fun _ _ => True) (code job) s)
    (keeps : ∀ job c op s, I s → good job c op s →
      I (exec c op s).2 ∧ rely s (exec c op s).2)
    (w : Pool Op Reply ε α κ σ) (e : Event κ χ)
    (hw : Guarded exec rely may good I w) (he : Allows entry may w e) :
    Guarded exec rely may good I (step exec code w e) := by
  cases e with
  | start t job =>
    cases ht : w.threads t with
    | some x => simpa only [step, ht] using hw
    | none =>
      simp only [step, ht]
      refine ⟨hw.shared, fun u j p hu => ?_⟩
      by_cases htu : u = t
      · subst htu
        simp only [Function.update_self, Option.some.injEq, Prod.mk.injEq] at hu
        obtain ⟨rfl, rfl⟩ := hu
        exact begins job w.shared hw.shared (he ht)
      · simp only [Function.update_of_ne htu] at hu
        exact hw.threads u j p hu
  | step t c =>
    simp only [step]
    split
    · rename_i job op k ht
      have hmay : may job c op w.shared := by simpa only [Allows, ht] using he
      have hsafe := hw.threads t job _ ht w.shared c (refl _) hmay
      have hkeeps := keeps job c op w.shared hw.shared hsafe.1
      refine ⟨hkeeps.1, fun u j p hu => ?_⟩
      by_cases htu : u = t
      · subst htu
        simp only [Function.update_self, Option.some.injEq, Prod.mk.injEq] at hu
        obtain ⟨rfl, rfl⟩ := hu
        exact hsafe.2
      · simp only [Function.update_of_ne htu] at hu
        exact (hw.threads u j p hu).mono_rely trans hkeeps.2
    · exact hw

theorem guarded_idle {s : σ} (hs : I s) :
    Guarded exec rely may good I (idle s : Pool Op Reply ε α κ σ) :=
  ⟨hs, fun t job p ht => by simp only [idle, reduceCtorEq] at ht⟩

section Rule

variable (good : κ → χ → Op → σ → Prop) (refl : ∀ s, rely s s)
variable (trans : ∀ a b c, rely a b → rely b c → rely a c)
variable (begins : ∀ job s, I s → entry job s →
  Program.Safe exec rely (may job) (good job) (fun _ _ => True) (code job) s)
variable (keeps : ∀ job c op s, I s → good job c op s →
  I (exec c op s).2 ∧ rely s (exec c op s).2)

include refl trans begins keeps

theorem run_keeps_guarded (w : Pool Op Reply ε α κ σ) (es : List (Event κ χ))
    (hw : Guarded exec rely may good I w) (hes : Meets exec code entry may w es) :
    Guarded exec rely may good I (run exec code w es) :=
  Runs.run_keeps (step exec code) (guarded_step refl trans begins keeps) w es hw hes

/-- The rely-guarantee rule: if every admitted job is safe from the state it starts in,
and every good operation keeps `I` and stays within the rely, then `I` holds after every
run that meets the condition. -/
theorem run_guarded (s : σ) (es : List (Event κ χ)) (hs : I s)
    (hes : Meets exec code entry may (idle s) es) :
    I (run exec code (idle s) es).shared :=
  (run_keeps_guarded good refl trans begins keeps _ es (guarded_idle hs) hes).shared

theorem run_rely (s : σ) (es fs : List (Event κ χ)) (hs : I s)
    (hes : Meets exec code entry may (idle s) (es ++ fs)) :
    rely (run exec code (idle s) es).shared (run exec code (idle s) (es ++ fs)).shared := by
  obtain ⟨hes, hfs⟩ := (Runs.meets_append ..).mp hes
  have hw := run_keeps_guarded good refl trans begins keeps _ es (guarded_idle hs) hes
  rw [run, run, Runs.run_append]
  rw [run] at hw
  generalize Runs.run (step exec code) (idle s) es = w at hw hfs
  -- from the middle on, `I` together with being reached within the rely is an invariant
  have hkeeps : ∀ job c op t, (I t ∧ rely w.shared t) → good job c op t →
      (I (exec c op t).2 ∧ rely w.shared (exec c op t).2) ∧ rely t (exec c op t).2 := by
    intro job c op t ht hgood
    obtain ⟨hI, hrely⟩ := keeps job c op t ht.1 hgood
    exact ⟨⟨hI, trans _ _ _ ht.2 hrely⟩, hrely⟩
  exact (run_keeps_guarded (I := fun t => I t ∧ rely w.shared t) good refl trans
    (fun job t ht => begins job t ht.1) hkeeps w fs ⟨⟨hw.shared, refl _⟩, hw.threads⟩
    hfs).shared.2

end Rule

end Pool

end AgentTrading.Library

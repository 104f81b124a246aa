import AgentTrading.Library.Pool

/-! Programs that run alone: nobody else writes between two operations. Such a program
is safe from one state at a time, and what is proved of it holds of its run under every
stream of choices. -/
namespace AgentTrading.Library

namespace Program

variable {Op : Type} {Reply : Op → Type} {ε α β σ χ : Type}
variable (exec : χ → (op : Op) → σ → Reply op × σ)

/-- As long as its operations meet `may`, each operation of the program is `good` and it
ends in `post`, when it starts from `s` and runs alone. -/
abbrev Alone (may good : χ → Op → σ → Prop) (post : Except ε α → σ → Prop)
    (p : Program Op Reply ε α) (s : σ) : Prop :=
  Safe exec Eq may good post p s

variable {exec} {may good : χ → Op → σ → Prop}

theorem alone_ret {post : Except ε α → σ → Prop} {a : α} {s : σ} (h : post (.ok a) s) :
    Alone exec may good post (ret a : Program Op Reply ε α) s := by
  rintro _ rfl
  exact h

theorem alone_raise {post : Except ε α → σ → Prop} {e : ε} {s : σ} (h : post (.error e) s) :
    Alone exec may good post (raise e : Program Op Reply ε α) s := by
  rintro _ rfl
  exact h

theorem alone_call {post : Except ε α → σ → Prop} {op : Op}
    {k : Reply op → Program Op Reply ε α} {s : σ}
    (h : ∀ c, may c op s → good c op s ∧
      Alone exec may good post (k (exec c op s).1) (exec c op s).2) :
    Alone exec may good post (call op k) s := by
  rintro _ c rfl hmay
  exact h c hmay

theorem Alone.bind {mid : Except ε α → σ → Prop} {post : Except ε β → σ → Prop}
    {p : Program Op Reply ε α} {f : α → Program Op Reply ε β} {s : σ}
    (hp : Alone exec may good mid p s)
    (hf : ∀ a s', mid (.ok a) s' → Alone exec may good post (f a) s')
    (he : ∀ e s', mid (.error e) s' → post (.error e) s') :
    Alone exec may good post (p.bind f) s :=
  Safe.bind (fun _ => rfl) hp hf he

theorem Alone.handle {mid post : Except ε α → σ → Prop} {p : Program Op Reply ε α}
    {f : ε → Program Op Reply ε α} {s : σ} (hp : Alone exec may good mid p s)
    (ho : ∀ a s', mid (.ok a) s' → post (.ok a) s')
    (hf : ∀ e s', mid (.error e) s' → Alone exec may good post (f e) s') :
    Alone exec may good post (p.handle f) s :=
  Safe.handle (fun _ => rfl) hp ho hf

theorem Alone.outcome {mid : Except ε α → σ → Prop} {p : Program Op Reply ε α} {s : σ}
    (hp : Alone exec may good mid p s) :
    Alone exec may good (fun r t => ∃ a, r = .ok a ∧ mid a t) p.outcome s := by
  induction p generalizing s with
  | ret a => exact alone_ret ⟨.ok a, rfl, hp s rfl⟩
  | raise e => exact alone_ret ⟨.error e, rfl, hp s rfl⟩
  | call op k ih =>
    intro t c ht hmay
    exact ⟨(hp t c ht hmay).1, ih _ (hp t c ht hmay).2⟩

theorem Alone.attempt {mid : Except ε α → σ → Prop} {p : Program Op Reply ε α} {s : σ}
    (hp : Alone exec may good mid p s) :
    Alone exec may good (fun r t => (∃ a, r = .ok (some a) ∧ mid (.ok a) t) ∨
      ∃ e, r = .ok none ∧ mid (.error e) t) p.attempt s := by
  induction p generalizing s with
  | ret a => exact alone_ret (Or.inl ⟨a, rfl, hp s rfl⟩)
  | raise e => exact alone_ret (Or.inr ⟨e, rfl, hp s rfl⟩)
  | call op k ih =>
    intro t c ht hmay
    exact ⟨(hp t c ht hmay).1, ih _ (hp t c ht hmay).2⟩

theorem Alone.and {post post' : Except ε α → σ → Prop} {p : Program Op Reply ε α} {s : σ}
    (hp : Alone exec may good post p s) (hp' : Alone exec may good post' p s) :
    Alone exec may good (fun r t => post r t ∧ post' r t) p s := by
  induction p generalizing s with
  | ret a => exact fun t ht => ⟨hp t ht, hp' t ht⟩
  | raise e => exact fun t ht => ⟨hp t ht, hp' t ht⟩
  | call op k ih =>
    intro t c ht hmay
    exact ⟨(hp t c ht hmay).1, ih _ (hp t c ht hmay).2 (hp' t c ht hmay).2⟩

theorem Alone.mono {mid post : Except ε α → σ → Prop} {p : Program Op Reply ε α} {s : σ}
    (hp : Alone exec may good mid p s) (h : ∀ r s', mid r s' → post r s') :
    Alone exec may good post p s := by
  induction p generalizing s with
  | ret a => exact fun t ht => h _ _ (hp t ht)
  | raise e => exact fun t ht => h _ _ (hp t ht)
  | call op k ih =>
    intro t c ht hmay
    exact ⟨(hp t c ht hmay).1, ih _ (hp t c ht hmay).2⟩

theorem alone_only {P : Op → Prop} {Q : Except ε α → Prop} {F : σ → σ → Prop}
    (refl : ∀ s, F s s) (trans : ∀ a b c, F a b → F b c → F a c)
    (step : ∀ c op s, P op → F s (exec c op s).2) {p : Program Op Reply ε α} {s : σ}
    (hp : p.Only P Q) (hgood : ∀ c op s', P op → F s s' → good c op s') :
    Alone exec may good (fun r s' => Q r ∧ F s s') p s := by
  have main : ∀ (q : Program Op Reply ε α) (t : σ), q.Only P Q → F s t →
      Alone exec may good (fun r s' => Q r ∧ F s s') q t := by
    intro q
    induction q with
    | ret a => exact fun t hq ht => alone_ret ⟨hq, ht⟩
    | raise e => exact fun t hq ht => alone_raise ⟨hq, ht⟩
    | call op k ih =>
      intro t hq ht
      refine alone_call fun c _ => ⟨hgood c op t hq.1 ht, ?_⟩
      exact ih _ _ (hq.2 _) (trans _ _ _ ht (step c op t hq.1))
  exact main p s hp (refl s)

/-- A program on a part of a larger state runs among more operations as it does on its own,
and leaves the rest of the state as it was. -/
theorem Alone.lift {Op' : Type} {Reply' : Op' → Type} {σ' χ' : Type} {f : Op → Op'}
    {g : ∀ op, Reply' (f op) → Reply op} {exec' : χ' → (op : Op') → σ' → Reply' op × σ'}
    {may' good' : χ' → Op' → σ' → Prop} (part : σ' → σ) (put : σ' → σ → σ')
    (choose : χ' → σ' → χ)
    (hreply : ∀ c op s, g op (exec' c (f op) s).1 = (exec (choose c s) op (part s)).1)
    (hstate : ∀ c op s, (exec' c (f op) s).2 = put s (exec (choose c s) op (part s)).2)
    (hpart : ∀ s a, part (put s a) = a) (hput : ∀ s a b, put (put s a) b = put s b)
    (hmay : ∀ c op s, may' c (f op) s → may (choose c s) op (part s))
    (hgood : ∀ c op s, good (choose c s) op (part s) → good' c (f op) s)
    {post : Except ε α → σ → Prop} {p : Program Op Reply ε α} {s : σ'} {a : σ}
    (hp : Alone exec may good post p a) :
    Alone exec' may' good' (fun r t => ∃ b, post r b ∧ t = put s b) (p.lift f g) (put s a) := by
  induction p generalizing a with
  | ret x => exact alone_ret ⟨a, hp a rfl, rfl⟩
  | raise e => exact alone_raise ⟨a, hp a rfl, rfl⟩
  | call op k ih =>
    refine alone_call fun c hc => ?_
    obtain ⟨hok, hrest⟩ :=
      hp (part (put s a)) (choose c (put s a)) (hpart s a).symm (hmay c op _ hc)
    refine ⟨hgood c op _ hok, ?_⟩
    rw [hreply, hstate, hput]
    exact ih _ hrest

/-- The run under a stream of choices, each of which meets `may` in every state. -/
theorem Alone.run {post : Except ε α → σ → Prop} {p : Program Op Reply ε α} {s : σ}
    {cs : Nat → χ} (hcs : ∀ n op s, may (cs n) op s) (hp : Alone exec may good post p s) :
    post (p.run (drawing exec) (cs, s)).1 (p.run (drawing exec) (cs, s)).2.2 := by
  induction p generalizing s cs with
  | ret a => exact hp s rfl
  | raise e => exact hp s rfl
  | call op k ih =>
    exact ih _ (fun n => hcs (n + 1)) (hp s (cs 0) rfl (hcs 0 op s)).2

variable (exec) in
/-- Some stream of choices leads the program to `post` when it runs alone. -/
def Can (post : Except ε α → σ → Prop) (p : Program Op Reply ε α) (s : σ) : Prop :=
  ∃ cs : Nat → χ, post (p.run (drawing exec) (cs, s)).1 (p.run (drawing exec) (cs, s)).2.2

theorem can_ret [Nonempty χ] {post : Except ε α → σ → Prop} {a : α} {s : σ}
    (h : post (.ok a) s) : Can exec post (ret a : Program Op Reply ε α) s :=
  (inferInstance : Nonempty χ).elim fun c => ⟨fun _ => c, h⟩

theorem can_call {post : Except ε α → σ → Prop} {op : Op} {k : Reply op → Program Op Reply ε α}
    {s : σ} (c : χ) (h : Can exec post (k (exec c op s).1) (exec c op s).2) :
    Can exec post (call op k) s := by
  obtain ⟨cs, hcs⟩ := h
  exact ⟨Nat.rec (motive := fun _ => χ) c fun n _ => cs n, hcs⟩

theorem Can.bind {mid : Except ε α → σ → Prop} {post : Except ε β → σ → Prop}
    {p : Program Op Reply ε α} {f : α → Program Op Reply ε β} {s : σ}
    (hp : Can exec mid p s) (hf : ∀ a t, mid (.ok a) t → Can exec post (f a) t)
    (he : ∀ e t, mid (.error e) t → post (.error e) t) : Can exec post (p.bind f) s := by
  obtain ⟨cs, hcs⟩ := hp
  induction p generalizing s cs with
  | ret a => exact hf a s hcs
  | raise e => exact ⟨cs, he e s hcs⟩
  | call op k ih => exact can_call (cs 0) (ih _ (fun n => cs (n + 1)) hcs)

theorem Can.handle {mid post : Except ε α → σ → Prop} {p : Program Op Reply ε α}
    {f : ε → Program Op Reply ε α} {s : σ} (hp : Can exec mid p s)
    (ho : ∀ a t, mid (.ok a) t → post (.ok a) t)
    (hf : ∀ e t, mid (.error e) t → Can exec post (f e) t) : Can exec post (p.handle f) s := by
  obtain ⟨cs, hcs⟩ := hp
  induction p generalizing s cs with
  | ret a => exact ⟨cs, ho a s hcs⟩
  | raise e => exact hf e s hcs
  | call op k ih => exact can_call (cs 0) (ih _ (fun n => cs (n + 1)) hcs)

theorem Can.mono {mid post : Except ε α → σ → Prop} {p : Program Op Reply ε α} {s : σ}
    (hp : Can exec mid p s) (h : ∀ r t, mid r t → post r t) : Can exec post p s :=
  hp.imp fun _ => h _ _

theorem Alone.can [Nonempty χ] {post : Except ε α → σ → Prop} {p : Program Op Reply ε α} {s : σ}
    (hp : Alone exec (fun _ _ _ => True) good post p s) : Can exec post p s :=
  (inferInstance : Nonempty χ).elim fun c => ⟨fun _ => c, hp.run fun _ _ _ => trivial⟩

end Program

namespace Pool

variable {Op : Type} {Reply : Op → Type} {ε α κ σ χ : Type}

/-- The job on `t` has operations left to perform. -/
def Busy (w : Pool Op Reply ε α κ σ) (t : Nat) : Prop :=
  ∃ job op k, w.threads t = some (job, .call op k)

/-- At most one job at a time is busy, it is safe on its own, and `J` holds whenever none
is. -/
structure Sole (exec : χ → (op : Op) → σ → Reply op × σ) (may good : χ → Op → σ → Prop)
    (I J : σ → Prop) (w : Pool Op Reply ε α κ σ) : Prop where
  shared : I w.shared
  one : ∀ t u, Busy w t → Busy w u → t = u
  safe : ∀ t job p, w.threads t = some (job, p) → Busy w t →
    Program.Alone exec may good (fun _ => J) p w.shared
  rest : (∀ t, ¬ Busy w t) → J w.shared

/-- A job starts only while no other is busy, and operations meet `may`. -/
def StartsAlone (entry : κ → σ → Prop) (may : χ → Op → σ → Prop)
    (w : Pool Op Reply ε α κ σ) : Event κ χ → Prop
  | .start t job => w.threads t = none → entry job w.shared ∧ ∀ u, ¬ Busy w u
  | .step t c =>
    match w.threads t with
    | some (_, .call op _) => may c op w.shared
    | _ => True

variable {exec : χ → (op : Op) → σ → Reply op × σ} {code : κ → Program Op Reply ε α}
variable {entry : κ → σ → Prop} {may good : χ → Op → σ → Prop} {I J : σ → Prop}

/-- The pool after the only job that can be busy has moved to `p`. -/
private theorem sole_update {w : Pool Op Reply ε α κ σ} {t : Nat} {job : κ}
    {p : Program Op Reply ε α} {s : σ} (hs : I s) (hidle : ∀ u, u ≠ t → ¬ Busy w u)
    (hsafe : Program.Alone exec may good (fun _ => J) p s) :
    Sole exec may good I J ⟨s, Function.update w.threads t (some (job, p))⟩ := by
  have hbusy : ∀ u, Busy (⟨s, Function.update w.threads t (some (job, p))⟩ :
      Pool Op Reply ε α κ σ) u → u = t := by
    intro u hu
    by_contra hne
    obtain ⟨j, op, k, hk⟩ := hu
    simp only [Function.update_of_ne hne] at hk
    exact hidle u hne ⟨j, op, k, hk⟩
  refine ⟨hs, fun u v hu hv => (hbusy u hu).trans (hbusy v hv).symm, ?_, fun hrest => ?_⟩
  · intro u j q hq hu
    obtain rfl := hbusy u hu
    simp only [Function.update_self, Option.some.injEq, Prod.mk.injEq] at hq
    obtain ⟨rfl, rfl⟩ := hq
    exact hsafe
  · cases p with
    | ret a => exact hsafe s rfl
    | raise e => exact hsafe s rfl
    | call op k => exact (hrest t ⟨job, op, k, Function.update_self ..⟩).elim

theorem sole_step
    (begins : ∀ job s, I s → J s → entry job s →
      Program.Alone exec may good (fun _ => J) (code job) s)
    (keeps : ∀ c op s, I s → good c op s → I (exec c op s).2)
    (w : Pool Op Reply ε α κ σ) (e : Event κ χ) (hw : Sole exec may good I J w)
    (he : StartsAlone entry may w e) : Sole exec may good I J (step exec code w e) := by
  cases e with
  | start t job =>
    cases ht : w.threads t with
    | some x => simpa only [step, ht] using hw
    | none =>
      simp only [step, ht]
      obtain ⟨hentry, hidle⟩ := he ht
      exact sole_update hw.shared (fun u _ => hidle u)
        (begins job w.shared hw.shared (hw.rest hidle) hentry)
  | step t c =>
    simp only [step]
    split
    · rename_i job op k ht
      have hbusy : Busy w t := ⟨job, op, k, ht⟩
      have hmay : may c op w.shared := by simpa only [StartsAlone, ht] using he
      have hsafe := hw.safe t job _ ht hbusy w.shared c rfl hmay
      exact sole_update (keeps c op w.shared hw.shared hsafe.1)
        (fun u hne hu => hne (hw.one u t hu hbusy)) hsafe.2
    · exact hw

theorem run_sole (good : χ → Op → σ → Prop)
    (begins : ∀ job s, I s → J s → entry job s →
      Program.Alone exec may good (fun _ => J) (code job) s)
    (keeps : ∀ c op s, I s → good c op s → I (exec c op s).2)
    (s : σ) (es : List (Event κ χ)) (hI : I s) (hJ : J s)
    (hes : Runs.Meets (step exec code) (StartsAlone entry may) (idle s) es) :
    I (run exec code (idle s) es).shared := by
  have hidle : Sole exec may good I J (idle s : Pool Op Reply ε α κ σ) := by
    have hnone : ∀ t, ¬ Busy (idle s : Pool Op Reply ε α κ σ) t := by
      rintro t ⟨job, op, k, h⟩
      simp only [idle, reduceCtorEq] at h
    exact ⟨hI, fun t u ht => (hnone t ht).elim, fun t _ _ _ ht => (hnone t ht).elim,
      fun _ => hJ⟩
  exact (Runs.run_keeps (step exec code) (sole_step begins keeps) _ es hidle hes).shared

end Pool

end AgentTrading.Library

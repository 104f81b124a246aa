import AgentTrading.Library.Program

/-! Programs watched together with their history, the operations performed so far with their
replies. Replies are arbitrary, so that what is proved of a program holds whatever else runs
beside it. -/
namespace AgentTrading.Library.Program

variable {Op : Type} {Reply : Op → Type} {ε α β : Type}

abbrev History (Op : Type) (Reply : Op → Type) := List ((op : Op) × Reply op)

/-- The program can perform these operations with these replies and end so. -/
inductive Performs : Program Op Reply ε α → History Op Reply → Except ε α → Prop where
  | ret (a : α) : Performs (ret a) [] (.ok a)
  | raise (e : ε) : Performs (raise e) [] (.error e)
  | call {op : Op} {k : Reply op → Program Op Reply ε α} {r : Reply op} {steps : History Op Reply}
      {out : Except ε α} (rest : Performs (k r) steps out) :
      Performs (call op k) (⟨op, r⟩ :: steps) out

theorem performs_run {σ : Type} (exec : (op : Op) → σ → Reply op × σ)
    (p : Program Op Reply ε α) (s : σ) : p.Performs (trace exec p s) (run exec p s).1 := by
  induction p generalizing s with
  | ret a => exact .ret a
  | raise e => exact .raise e
  | call op k ih => exact .call (ih _ _)

theorem Performs.bind {p : Program Op Reply ε α} {f : α → Program Op Reply ε β} {a : α}
    {first rest : History Op Reply} {out : Except ε β} (hp : p.Performs first (.ok a))
    (hf : (f a).Performs rest out) : (p.bind f).Performs (first ++ rest) out := by
  generalize hok : Except.ok a = ok at hp
  induction hp with
  | ret b =>
    obtain rfl := Except.ok.inj hok
    exact hf
  | raise e => cases hok
  | call hrest ih => exact .call (ih hok)

theorem performs_bind {p : Program Op Reply ε α} {f : α → Program Op Reply ε β}
    {steps : History Op Reply} {out : Except ε β} (h : (p.bind f).Performs steps out) :
    (∃ e, p.Performs steps (.error e) ∧ out = .error e) ∨
      ∃ a first rest, steps = first ++ rest ∧ p.Performs first (.ok a) ∧
        (f a).Performs rest out := by
  induction p generalizing steps with
  | ret a => exact .inr ⟨a, [], steps, rfl, .ret a, h⟩
  | raise e =>
    cases h
    exact .inl ⟨e, .raise e, rfl⟩
  | call op k ih =>
    cases h with
    | call hrest =>
      rcases ih _ hrest with ⟨e, hp, rfl⟩ | ⟨a, first, rest, rfl, hp, hf⟩
      · exact .inl ⟨e, .call hp, rfl⟩
      · exact .inr ⟨a, _ :: first, rest, rfl, .call hp, hf⟩

/-- A handler sees the exception and everything before it. -/
theorem performs_handle {p : Program Op Reply ε α} {f : ε → Program Op Reply ε α}
    {steps : History Op Reply} {out : Except ε α} (h : (p.handle f).Performs steps out) :
    (∃ a, p.Performs steps (.ok a) ∧ out = .ok a) ∨
      ∃ e first rest, steps = first ++ rest ∧ p.Performs first (.error e) ∧
        (f e).Performs rest out := by
  induction p generalizing steps with
  | ret a =>
    cases h
    exact .inl ⟨a, .ret a, rfl⟩
  | raise e => exact .inr ⟨e, [], steps, rfl, .raise e, h⟩
  | call op k ih =>
    cases h with
    | call hrest =>
      rcases ih _ hrest with ⟨a, hp, rfl⟩ | ⟨e, first, rest, rfl, hp, hf⟩
      · exact .inl ⟨a, .call hp, rfl⟩
      · exact .inr ⟨e, _ :: first, rest, rfl, .call hp, hf⟩

theorem performs_outcome {p : Program Op Reply ε α} {steps : History Op Reply}
    {out : Except ε (Except ε α)} (h : p.outcome.Performs steps out) :
    ∃ r, out = .ok r ∧ p.Performs steps r := by
  induction p generalizing steps with
  | ret a =>
    cases h
    exact ⟨.ok a, rfl, .ret a⟩
  | raise e =>
    cases h
    exact ⟨.error e, rfl, .raise e⟩
  | call op k ih =>
    cases h with
    | call hrest =>
      obtain ⟨r, hout, hp⟩ := ih _ hrest
      exact ⟨r, hout, .call hp⟩

theorem Only.performs {P : Op → Prop} {Q : Except ε α → Prop} {p : Program Op Reply ε α}
    (hp : p.Only P Q) {steps : History Op Reply} {out : Except ε α} (h : p.Performs steps out) :
    (∀ step ∈ steps, P step.1) ∧ Q out := by
  induction h with
  | ret a => exact ⟨by simp, hp⟩
  | raise e => exact ⟨by simp, hp⟩
  | call hrest ih =>
    have hrest := ih (hp.2 _)
    exact ⟨List.forall_mem_cons.mpr ⟨hp.1, hrest.1⟩, hrest.2⟩

/-- Every operation is permitted by the history before it, and the whole history meets the
result. -/
def Watched (permits : History Op Reply → Op → Prop) (post : History Op Reply → Except ε α → Prop) :
    Program Op Reply ε α → History Op Reply → Prop
  | ret a, past => post past (.ok a)
  | raise e, past => post past (.error e)
  | call op k, past => permits past op ∧ ∀ r, (k r).Watched permits post (past ++ [⟨op, r⟩])

variable {permits : History Op Reply → Op → Prop} {post : History Op Reply → Except ε α → Prop}
variable {past : History Op Reply}

@[simp] theorem watched_ret (a : α) :
    (ret a : Program Op Reply ε α).Watched permits post past ↔ post past (.ok a) := Iff.rfl

@[simp] theorem watched_raise (e : ε) :
    (raise e : Program Op Reply ε α).Watched permits post past ↔ post past (.error e) := Iff.rfl

@[simp] theorem watched_call (op : Op) (k : Reply op → Program Op Reply ε α) :
    (call op k).Watched permits post past ↔
      permits past op ∧ ∀ r, (k r).Watched permits post (past ++ [⟨op, r⟩]) := Iff.rfl

theorem Watched.mono {post' : History Op Reply → Except ε α → Prop} {p : Program Op Reply ε α}
    (hp : p.Watched permits post past) (h : ∀ t r, post t r → post' t r) :
    p.Watched permits post' past := by
  induction p generalizing past with
  | ret a => exact h _ _ hp
  | raise e => exact h _ _ hp
  | call op k ih => exact ⟨hp.1, fun r => ih r (hp.2 r)⟩

theorem Watched.permitting {permits' : History Op Reply → Op → Prop} {p : Program Op Reply ε α}
    (hp : p.Watched permits post past) (h : ∀ t op, permits t op → permits' t op) :
    p.Watched permits' post past := by
  induction p generalizing past with
  | ret a => exact hp
  | raise e => exact hp
  | call op k ih => exact ⟨h _ _ hp.1, fun r => ih r (hp.2 r)⟩

theorem Watched.frame {P : Op → Prop} {kept : History Op Reply → Prop} {p : Program Op Reply ε α}
    (hp : p.Watched (fun _ => P) post past)
    (hkept : ∀ t op (r : Reply op), P op → kept t → kept (t ++ [⟨op, r⟩])) (h : kept past) :
    p.Watched (fun t op => P op ∧ kept t) (fun t r => post t r ∧ kept t) past := by
  induction p generalizing past with
  | ret a => exact ⟨hp, h⟩
  | raise e => exact ⟨hp, h⟩
  | call op k ih => exact ⟨⟨hp.1, h⟩, fun r => ih r (hp.2 r) (hkept past op r hp.1 h)⟩

theorem Watched.bind {mid : History Op Reply → Except ε α → Prop}
    {post : History Op Reply → Except ε β → Prop} {p : Program Op Reply ε α}
    {f : α → Program Op Reply ε β} (hp : p.Watched permits mid past)
    (hf : ∀ a t, mid t (.ok a) → (f a).Watched permits post t)
    (he : ∀ e t, mid t (.error e) → post t (.error e)) : (p.bind f).Watched permits post past := by
  induction p generalizing past with
  | ret a => exact hf a past hp
  | raise e => exact he e past hp
  | call op k ih => exact ⟨hp.1, fun r => ih r (hp.2 r)⟩

theorem Watched.handle {mid : History Op Reply → Except ε α → Prop} {p : Program Op Reply ε α}
    {f : ε → Program Op Reply ε α} (hp : p.Watched permits mid past)
    (ho : ∀ a t, mid t (.ok a) → post t (.ok a))
    (hf : ∀ e t, mid t (.error e) → (f e).Watched permits post t) :
    (p.handle f).Watched permits post past := by
  induction p generalizing past with
  | ret a => exact ho a past hp
  | raise e => exact hf e past hp
  | call op k ih => exact ⟨hp.1, fun r => ih r (hp.2 r)⟩

theorem Watched.outcome {p : Program Op Reply ε α} (hp : p.Watched permits post past) :
    p.outcome.Watched permits (fun t r => ∃ a, r = .ok a ∧ post t a) past := by
  induction p generalizing past with
  | ret a => exact ⟨.ok a, rfl, hp⟩
  | raise e => exact ⟨.error e, rfl, hp⟩
  | call op k ih => exact ⟨hp.1, fun r => ih r (hp.2 r)⟩

theorem Only.watched {P : Op → Prop} {Q : Except ε α → Prop} {p : Program Op Reply ε α}
    (hp : p.Only P Q) (hpermits : ∀ t op, P op → permits t op) (past : History Op Reply) :
    p.Watched permits (fun t r => (∃ steps, t = past ++ steps ∧ ∀ step ∈ steps, P step.1) ∧ Q r)
      past := by
  have main : ∀ (q : Program Op Reply ε α) (steps : History Op Reply), q.Only P Q →
      (∀ step ∈ steps, P step.1) → q.Watched permits
        (fun t r => (∃ steps, t = past ++ steps ∧ ∀ step ∈ steps, P step.1) ∧ Q r)
        (past ++ steps) := by
    intro q
    induction q with
    | ret a => exact fun steps hq hsteps => ⟨⟨steps, rfl, hsteps⟩, hq⟩
    | raise e => exact fun steps hq hsteps => ⟨⟨steps, rfl, hsteps⟩, hq⟩
    | call op k ih =>
      intro steps hq hsteps
      refine ⟨hpermits _ _ hq.1, fun r => ?_⟩
      rw [List.append_assoc]
      refine ih r _ (hq.2 r) fun step hstep => ?_
      rcases List.mem_append.mp hstep with hstep | hstep
      · exact hsteps step hstep
      · rw [List.mem_singleton.mp hstep]
        exact hq.1
  have := main p [] hp fun _ h => nomatch h
  rwa [List.append_nil] at this

theorem Watched.ends {p : Program Op Reply ε α} (hp : p.Watched permits post past)
    {steps : History Op Reply} {out : Except ε α} (h : p.Performs steps out) :
    post (past ++ steps) out := by
  induction h generalizing past with
  | ret a => rwa [List.append_nil]
  | raise e => rwa [List.append_nil]
  | call rest ih =>
    have := ih (hp.2 _)
    rwa [List.append_assoc] at this

/-- From a history in `pre` the program performs what is permitted and ends as `post` says. -/
structure Leads (permits : History Op Reply → Op → Prop) (pre : History Op Reply → Prop)
    (p : Program Op Reply ε α) (post : History Op Reply → Except ε α → Prop) : Prop where
  watched : ∀ past, pre past → p.Watched permits post past

variable {pre : History Op Reply → Prop}

theorem Leads.starts {p : Program Op Reply ε α} (hpast : pre past) (hp : Leads permits pre p post) :
    p.Watched permits post past := hp.watched past hpast

theorem leads_ret {a : α} (h : ∀ t, pre t → post t (.ok a)) : Leads permits pre (ret a) post := ⟨h⟩

theorem leads_raise {e : ε} (h : ∀ t, pre t → post t (.error e)) :
    Leads permits pre (raise e) post := ⟨h⟩

theorem leads_call {op : Op} {k : Reply op → Program Op Reply ε α}
    (hop : ∀ t, pre t → permits t op)
    (hk : ∀ r, Leads permits (fun t => ∃ past, pre past ∧ t = past ++ [⟨op, r⟩]) (k r) post) :
    Leads permits pre (call op k) post :=
  ⟨fun past hpast => ⟨hop past hpast, fun r => (hk r).watched _ ⟨past, hpast, rfl⟩⟩⟩

theorem Leads.conseq {pre' : History Op Reply → Prop} {post' : History Op Reply → Except ε α → Prop}
    {p : Program Op Reply ε α} (hp : Leads permits pre p post) (hpre : ∀ t, pre' t → pre t)
    (hpost : ∀ t r, post t r → post' t r) : Leads permits pre' p post' :=
  ⟨fun past hpast => (hp.watched past (hpre past hpast)).mono hpost⟩

theorem Leads.weaken {pre' : History Op Reply → Prop} {p : Program Op Reply ε α}
    (hp : Leads permits pre p post) (hpre : ∀ t, pre' t → pre t) : Leads permits pre' p post :=
  hp.conseq hpre fun _ _ => id

theorem Leads.permitting {permits' : History Op Reply → Op → Prop} {p : Program Op Reply ε α}
    (hp : Leads permits pre p post) (h : ∀ t op, permits t op → permits' t op) :
    Leads permits' pre p post := ⟨fun past hpast => (hp.watched past hpast).permitting h⟩

theorem Leads.frame {P : Op → Prop} {kept : History Op Reply → Prop} {p : Program Op Reply ε α}
    (hp : Leads (fun _ => P) pre p post)
    (hkept : ∀ t op (r : Reply op), P op → kept t → kept (t ++ [⟨op, r⟩])) :
    Leads (fun t op => P op ∧ kept t) (fun t => pre t ∧ kept t) p fun t r => post t r ∧ kept t :=
  ⟨fun past hpast => (hp.watched past hpast.1).frame hkept hpast.2⟩

theorem Leads.bind {mid : History Op Reply → Except ε α → Prop}
    {post : History Op Reply → Except ε β → Prop} {p : Program Op Reply ε α}
    {f : α → Program Op Reply ε β} (hp : Leads permits pre p mid)
    (hf : ∀ a, Leads permits (fun t => mid t (.ok a)) (f a) post)
    (he : ∀ e t, mid t (.error e) → post t (.error e)) : Leads permits pre (p.bind f) post :=
  ⟨fun past hpast => (hp.watched past hpast).bind (fun a t h => (hf a).watched t h) he⟩

theorem Leads.outcome {p : Program Op Reply ε α} (hp : Leads permits pre p post) :
    Leads permits pre p.outcome fun t r => ∃ a, r = .ok a ∧ post t a :=
  ⟨fun past hpast => (hp.watched past hpast).outcome⟩

/-- A program whose operations leave `pre` true. -/
theorem Only.leads {P : Op → Prop} {Q : Except ε α → Prop} {p : Program Op Reply ε α}
    (hp : p.Only P Q) (hpermits : ∀ t op, P op → permits t op)
    (hpre : ∀ t steps, pre t → (∀ step ∈ steps, P step.1) → pre (t ++ steps)) :
    Leads permits pre p fun t r => pre t ∧ Q r := by
  refine ⟨fun past hpast => (hp.watched hpermits past).mono ?_⟩
  rintro t r ⟨⟨steps, rfl, hsteps⟩, hQ⟩
  exact ⟨hpre past steps hpast hsteps, hQ⟩

section Lift

variable {Op' : Type} {Reply' : Op' → Type} {f : Op → Op'} {g : ∀ op, Reply' (f op) → Reply op}
variable {permits' : History Op' Reply' → Op' → Prop}

/-- The history of a program among more operations, where their replies are translated by `up`. -/
def History.lift (f : Op → Op') (up : ∀ op, Reply op → Reply' (f op)) (steps : History Op Reply) :
    History Op' Reply' :=
  steps.map fun step => ⟨f step.1, up step.1 step.2⟩

theorem Watched.lift {p : Program Op Reply ε α} {up : ∀ op, Reply op → Reply' (f op)}
    (hup : ∀ op r, up op (g op r) = r) (hp : p.Watched permits post past)
    {past' : History Op' Reply'}
    (hpermits : ∀ t op, permits t op → permits' (past' ++ t.lift f up) (f op)) :
    (p.lift f g).Watched permits' (fun t r => ∃ steps, t = past' ++ steps.lift f up ∧ post steps r)
      (past' ++ past.lift f up) := by
  induction p generalizing past with
  | ret a => exact ⟨past, rfl, hp⟩
  | raise e => exact ⟨past, rfl, hp⟩
  | call op k ih =>
    refine ⟨hpermits past op hp.1, fun r => ?_⟩
    have := ih (g op r) (hp.2 (g op r))
    rwa [History.lift, List.map_append, ← List.append_assoc, List.map_singleton, hup] at this

theorem Leads.lift {pre' : History Op' Reply' → Prop} {p : Program Op Reply ε α}
    {up : ∀ op, Reply op → Reply' (f op)} (hup : ∀ op r, up op (g op r) = r)
    (hp : Leads permits (· = []) p post)
    (hpermits : ∀ past t op, pre' past → permits t op → permits' (past ++ t.lift f up) (f op)) :
    Leads permits' pre' (p.lift f g) fun t r =>
      ∃ past steps, pre' past ∧ t = past ++ steps.lift f up ∧ post steps r := by
  refine ⟨fun past hpast => ?_⟩
  have := (hp.watched [] rfl).lift hup (hpermits past · · hpast)
  rw [History.lift, List.map_nil, List.append_nil] at this
  exact this.mono fun t r ⟨steps, ht, hpost⟩ => ⟨past, steps, hpast, ht, hpost⟩

end Lift

end AgentTrading.Library.Program

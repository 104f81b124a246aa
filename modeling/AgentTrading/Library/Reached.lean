import AgentTrading.Library.Program

/-! What a run comes to: the programs still to be run and the states they are run in. -/
namespace AgentTrading.Library.Program

variable {Op : Type} {Reply : Op → Type} {ε α β σ : Type}
variable (exec : (op : Op) → σ → Reply op × σ)

/-- The run of a program comes to what is left of it, in the state it then finds. -/
inductive Reached : Program Op Reply ε α → σ → Program Op Reply ε α → σ → Prop
  | here (p : Program Op Reply ε α) (s : σ) : Reached p s p s
  | after {op : Op} {k : Reply op → Program Op Reply ε α} {s : σ} {q : Program Op Reply ε α}
      {t : σ} (h : Reached (k (exec op s).1) (exec op s).2 q t) : Reached (call op k) s q t

namespace Reached

variable {exec} {p q : Program Op Reply ε α} {s t : σ}

theorem trans {r : Program Op Reply ε α} {u : σ} (h : Reached exec p s q t)
    (h' : Reached exec q t r u) : Reached exec p s r u := by
  induction h with
  | here => exact h'
  | after _ ih => exact after (ih h')

theorem bind (h : Reached exec p s q t) (f : α → Program Op Reply ε β) :
    Reached exec (p.bind f) s (q.bind f) t := by
  induction h with
  | here => exact here _ _
  | after _ ih => exact after ih

theorem keeps {I : σ → Prop} (hkeeps : ∀ op s, I s → I (exec op s).2) (h : Reached exec p s q t)
    (hs : I s) : I t := by
  induction h with
  | here => exact hs
  | after _ ih => exact ih (hkeeps _ _ hs)

end Reached

/-- The states of a run. -/
def trail : Program Op Reply ε α → σ → List σ
  | ret _, s => [s]
  | raise _, s => [s]
  | call op k, s => s :: trail (k (exec op s).1) (exec op s).2

variable {exec} in
theorem Reached.mem_trail {p q : Program Op Reply ε α} {s t : σ} (h : Reached exec p s q t) :
    t ∈ trail exec p s := by
  induction h with
  | here p s => cases p <;> exact List.mem_cons_self
  | after _ ih => exact List.mem_cons_of_mem _ ih

variable {exec} in
theorem reached_of_run {p : Program Op Reply ε α} {s t : σ} {a : α}
    (h : p.run exec s = (.ok a, t)) (f : α → Program Op Reply ε β) :
    Reached exec (p.bind f) s (f a) t := by
  induction p generalizing s with
  | ret b =>
    cases h
    exact .here _ _
  | raise e => cases h
  | call op k ih => exact .after (ih _ h)

end AgentTrading.Library.Program

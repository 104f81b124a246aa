import Mathlib.Data.NNRat.Defs
import Mathlib.Algebra.Order.Field.Rat
import Mathlib.Tactic.Linarith
import Mathlib.Tactic.Positivity
import AgentTrading.Library.Runs

/-! The token bucket that processes share through a file. Each call opens the file for itself,
and its steps mix with those of the other calls as the lock on the file permits. What a call
writes stays in its buffer until it closes the file, after it has released the lock. -/
namespace AgentTrading.SharedBudget
open Library

structure FileBackedGlobalBucket where
  capacity : ℚ
  refillRate : ℚ
  capacity_nonneg : 0 ≤ capacity
  refillRate_nonneg : 0 ≤ refillRate

/-- The text `tokens,now`. -/
structure Record where
  tokens : ℚ
  time : ℚ
  deriving DecidableEq

inductive Call where
  | consume (tokens : ℚ≥0)
  | release (tokens : ℚ≥0)

/-- The step a call comes to next, with the values of its variables. The file is the records
in it, one behind the other. -/
inductive Phase where
  | opened
  | locked
  | found (raw : List Record)
  | failed
  | timed (currentTokens lastTime : ℚ)
  | settled (record : Record) (result : Bool)
  | truncated (record : Record) (result : Bool)
  | buffered (record : Record) (result : Bool)
  | unlocked (buffer : List Record) (result : Bool)
  | closed (result : Bool)
  deriving DecidableEq

/-- The file and its lock, the calls under way, and how many tokens have been granted and
given back since the file was new. -/
structure World where
  clock : ℚ
  file : List Record := []
  lockedBy : Option Nat := none
  calls : Nat → Option (Call × Phase) := fun _ => none
  granted : ℚ := 0
  released : ℚ := 0

namespace World

def move (w : World) (p : Nat) (call : Call) (phase : Phase) : World :=
  { w with calls := Function.update w.calls p (some (call, phase)) }

def lock (w : World) (p : Nat) : World := { w with lockedBy := some p }

def unlock (w : World) : World := { w with lockedBy := none }

def truncate (w : World) : World := { w with file := [] }

/-- The file was opened for appending. -/
def append (w : World) (buffer : List Record) : World := { w with file := w.file ++ buffer }

/-- What the result of a call counts for. -/
def count (w : World) : Call → Bool → World
  | .consume tokens, true => { w with granted := w.granted + tokens }
  | .consume _, false => w
  | .release tokens, _ => { w with released := w.released + tokens }

end World

def refilled (b : FileBackedGlobalBucket) (currentTokens lastTime now : ℚ) : ℚ :=
  min b.capacity (currentTokens + (now - lastTime) * b.refillRate)

/-- The record to write, and what the call returns; a release returns nothing. -/
def settle (b : FileBackedGlobalBucket) (currentTokens now : ℚ) : Call → Record × Bool
  | .consume tokens =>
    if tokens ≤ currentTokens then (⟨currentTokens - tokens, now⟩, true)
    else (⟨currentTokens, now⟩, false)
  | .release tokens => (⟨min b.capacity (currentTokens + tokens), now⟩, true)

/-- A `ValueError` lets a consumption pass and drops a release. -/
def failOpen (w : World) : Call → World
  | .consume tokens => w.count (.consume tokens) true
  | .release _ => w

/-- The next step of `_consume_sync` or `_release_sync`. -/
def advance (b : FileBackedGlobalBucket) (w : World) (p : Nat) (call : Call) : Phase → World
  | .opened =>
    -- the lock is waited for
    if w.lockedBy = none then (w.lock p).move p call .locked else w
  | .locked => w.move p call (.found w.file)
  | .found [] => w.move p call (.timed b.capacity w.clock)
  | .found [record] => w.move p call (.timed record.tokens record.time)
  -- a second comma ends up in the text of the time
  | .found (_ :: _ :: _) => (failOpen w call).move p call .failed
  | .timed currentTokens lastTime =>
    let settled := settle b (refilled b currentTokens lastTime w.clock) w.clock call
    (w.count call settled.2).move p call (.settled settled.1 settled.2)
  | .settled record result => w.truncate.move p call (.truncated record result)
  | .truncated record result => w.move p call (.buffered record result)
  | .buffered record result => w.unlock.move p call (.unlocked [record] result)
  | .failed => w.unlock.move p call (.unlocked [] true)
  | .unlocked buffer result => (w.append buffer).move p call (.closed result)
  | .closed _ => w

inductive Event where
  | tick (elapsed : ℚ≥0)
  | start (p : Nat) (call : Call)
  | advance (p : Nat)

def step (b : FileBackedGlobalBucket) (w : World) : Event → World
  | .tick elapsed => { w with clock := w.clock + elapsed }
  | .start p call =>
    match w.calls p with
    | none => w.move p call .opened
    | some _ => w
  | .advance p =>
    match w.calls p with
    | none => w
    | some (call, phase) => advance b w p call phase

/-- A new file, at this time. -/
def fresh (start : ℚ) : World := { clock := start }

/-- No call reads the file while another that has released the lock has yet to close it. -/
def ReadsClosed (w : World) : Event → Prop
  | .advance p => ∀ call, w.calls p = some (call, .locked) →
      ∀ q call buffer result, w.calls q ≠ some (call, .unlocked buffer result)
  | _ => True

/-- The tokens granted are covered by the capacity, the refill since the file was new, and
the tokens given back. -/
def Covered (b : FileBackedGlobalBucket) (start : ℚ) (w : World) : Prop :=
  w.granted ≤ b.capacity + b.refillRate * (w.clock - start) + w.released

def Phase.holds : Phase → Bool
  | .opened | .unlocked .. | .closed _ => false
  | _ => true

/-- From reading the file to closing it. -/
def Phase.inside : Phase → Bool
  | .opened | .locked | .closed _ => false
  | _ => true

variable (b : FileBackedGlobalBucket) (start : ℚ)

/-- What is left by this record beside all that was granted. -/
structure Balanced (w : World) (record : Record) : Prop where
  nonneg : 0 ≤ record.tokens
  past : record.time ≤ w.clock
  total : w.granted + record.tokens ≤
    b.capacity + b.refillRate * (record.time - start) + w.released

/-- An empty file is a new one. -/
def FileBalanced (w : World) : List Record → Prop
  | [] => w.granted ≤ w.released ∧ start ≤ w.clock
  | [record] => Balanced b start w record
  | _ => False

def Phase.Knows (w : World) : Phase → Prop
  | .opened | .locked | .closed _ => True
  | .found raw => w.file = raw ∧ FileBalanced b start w raw
  | .failed => False
  | .timed currentTokens lastTime => Balanced b start w ⟨currentTokens, lastTime⟩
  | .settled record _ => Balanced b start w record
  | .truncated record _ | .buffered record _ => w.file = [] ∧ Balanced b start w record
  | .unlocked buffer _ => ∃ record, buffer = [record] ∧ w.file = [] ∧ Balanced b start w record

/-- One call at a time is between reading the file and closing it. -/
structure Invariant (w : World) : Prop where
  lock : ∀ p call phase, w.calls p = some (call, phase) →
    (phase.holds = true ↔ w.lockedBy = some p)
  owner : ∀ p, w.lockedBy = some p → w.calls p ≠ none
  one : ∀ p call phase q call' phase', w.calls p = some (call, phase) → phase.inside = true →
    w.calls q = some (call', phase') → phase'.inside = true → p = q
  knows : ∀ p call phase, w.calls p = some (call, phase) → phase.Knows b start w
  rest : (∀ p call phase, w.calls p = some (call, phase) → phase.inside = false) →
    FileBalanced b start w w.file

variable {b start}

theorem knows_outside {w : World} {phase : Phase} (h : phase.inside = false) :
    phase.Knows b start w := by
  cases phase <;> trivial

theorem Balanced.covered {w : World} {record : Record} (h : Balanced b start w record) :
    Covered b start w := by
  have hrate := mul_le_mul_of_nonneg_left h.past b.refillRate_nonneg
  have htotal := h.total
  have hnonneg := h.nonneg
  unfold Covered
  linarith

theorem FileBalanced.covered {w : World} {file : List Record} (h : FileBalanced b start w file) :
    Covered b start w := by
  match file, h with
  | [], ⟨hgranted, hstart⟩ =>
    have hrate := mul_nonneg b.refillRate_nonneg (sub_nonneg.mpr hstart)
    have hcapacity := b.capacity_nonneg
    unfold Covered
    linarith
  | [_], h => exact Balanced.covered h

theorem Phase.Knows.covered {w : World} {phase : Phase} (h : phase.Knows b start w)
    (hinside : phase.inside = true) : Covered b start w := by
  cases phase with
  | opened => cases hinside
  | locked => cases hinside
  | closed result => cases hinside
  | failed => exact h.elim
  | found raw => exact FileBalanced.covered h.2
  | timed currentTokens lastTime => exact Balanced.covered h
  | settled record result => exact Balanced.covered h
  | truncated record result => exact Balanced.covered h.2
  | buffered record result => exact Balanced.covered h.2
  | unlocked buffer result =>
    obtain ⟨record, -, -, hbalanced⟩ := h
    exact hbalanced.covered

theorem Invariant.covered {w : World} (h : Invariant b start w) : Covered b start w := by
  by_cases hrest : ∀ p call phase, w.calls p = some (call, phase) → phase.inside = false
  · exact (h.rest hrest).covered
  · simp only [not_forall, Bool.not_eq_false] at hrest
    obtain ⟨p, call, phase, hp, hinside⟩ := hrest
    exact (h.knows p call phase hp).covered hinside

theorem fresh_invariant : Invariant b start (fresh start) where
  lock := by intro p call phase h; cases h
  owner := by intro p h; cases h
  one := by intro p call phase q call' phase' h; cases h
  knows := by intro p call phase h; cases h
  rest := fun _ => ⟨le_rfl, le_rfl⟩

/-- Nothing has happened to the file and the counters. -/
structure Keeps (w w' : World) : Prop where
  clock : w.clock ≤ w'.clock
  file : w'.file = w.file
  granted : w'.granted = w.granted
  released : w'.released = w.released

theorem Balanced.keep {w w' : World} {record : Record} (h : Balanced b start w record)
    (hclock : w.clock ≤ w'.clock) (hgranted : w'.granted = w.granted)
    (hreleased : w'.released = w.released) : Balanced b start w' record := by
  refine ⟨h.nonneg, h.past.trans hclock, ?_⟩
  rw [hgranted, hreleased]
  exact h.total

theorem FileBalanced.keep {w w' : World} {file : List Record} (h : FileBalanced b start w file)
    (hkeeps : Keeps w w') : FileBalanced b start w' file := by
  match file, h with
  | [], ⟨hgranted, hstart⟩ =>
    refine ⟨?_, hstart.trans hkeeps.clock⟩
    rw [hkeeps.granted, hkeeps.released]
    exact hgranted
  | [_], h => exact Balanced.keep h hkeeps.clock hkeeps.granted hkeeps.released

theorem Phase.Knows.keep {w w' : World} {phase : Phase} (h : phase.Knows b start w)
    (hkeeps : Keeps w w') : phase.Knows b start w' := by
  have hbalanced : ∀ {record}, Balanced b start w record → Balanced b start w' record :=
    fun h => h.keep hkeeps.clock hkeeps.granted hkeeps.released
  cases phase with
  | opened => trivial
  | locked => trivial
  | closed result => trivial
  | failed => exact h
  | found raw => exact ⟨hkeeps.file.trans h.1, h.2.keep hkeeps⟩
  | timed currentTokens lastTime => exact hbalanced h
  | settled record result => exact hbalanced h
  | truncated record result => exact ⟨hkeeps.file.trans h.1, hbalanced h.2⟩
  | buffered record result => exact ⟨hkeeps.file.trans h.1, hbalanced h.2⟩
  | unlocked buffer result =>
    obtain ⟨record, hbuffer, hfile, hrecord⟩ := h
    exact ⟨record, hbuffer, hkeeps.file.trans hfile, hbalanced hrecord⟩

theorem Invariant.updated {w w' : World} {p : Nat} {call : Call} {phase : Phase}
    (h : Invariant b start w)
    (hcalls : w'.calls = Function.update w.calls p (some (call, phase)))
    (hlock : phase.holds = true ↔ w'.lockedBy = some p)
    (hothers : ∀ q, q ≠ p → (w'.lockedBy = some q ↔ w.lockedBy = some q))
    (hone : ∀ q call' phase', q ≠ p → w.calls q = some (call', phase') → phase'.inside = true →
      phase.inside = false)
    (hknows : phase.Knows b start w')
    (hkept : ∀ q call' phase', q ≠ p → w.calls q = some (call', phase') →
      phase'.Knows b start w')
    (hrest : phase.inside = false →
      (∀ q call' phase', q ≠ p → w.calls q = some (call', phase') → phase'.inside = false) →
      FileBalanced b start w' w'.file) :
    Invariant b start w' := by
  have hother : ∀ q, q ≠ p → w'.calls q = w.calls q := by
    intro q hne
    rw [hcalls, Function.update_of_ne hne]
  have hself : w'.calls p = some (call, phase) := by
    rw [hcalls, Function.update_self]
  have hphase : ∀ call' phase', w'.calls p = some (call', phase') → phase' = phase := by
    intro call' phase' hp
    rw [hself] at hp
    simp only [Option.some.injEq, Prod.mk.injEq] at hp
    exact hp.2.symm
  constructor
  · intro q call' phase' hq
    by_cases hne : q = p
    · subst hne
      rw [hphase call' phase' hq]
      exact hlock
    · rw [hothers q hne]
      exact h.lock q call' phase' (hother q hne ▸ hq)
  · intro q hq
    by_cases hne : q = p
    · subst hne
      rw [hself]
      exact Option.some_ne_none _
    · rw [hother q hne]
      exact h.owner q ((hothers q hne).mp hq)
  · intro q call' phase' r call'' phase'' hq hin hr hin'
    by_cases hqp : q = p
    · by_cases hrp : r = p
      · exact hqp.trans hrp.symm
      · subst hqp
        rw [hphase call' phase' hq, hone r call'' phase'' hrp (hother r hrp ▸ hr) hin'] at hin
        cases hin
    · by_cases hrp : r = p
      · subst hrp
        rw [hphase call'' phase'' hr, hone q call' phase' hqp (hother q hqp ▸ hq) hin] at hin'
        cases hin'
      · exact h.one q call' phase' r call'' phase'' (hother q hqp ▸ hq) hin
          (hother r hrp ▸ hr) hin'
  · intro q call' phase' hq
    by_cases hne : q = p
    · subst hne
      rw [hphase call' phase' hq]
      exact hknows
    · exact hkept q call' phase' hne (hother q hne ▸ hq)
  · intro houtside
    apply hrest (houtside p call phase hself)
    intro q call' phase' hne hq
    exact houtside q call' phase' ((hother q hne).trans hq)

/-- The only call that may be inside takes a step: the others neither hold the lock nor know
anything of the file. -/
theorem Invariant.moved {w w' : World} {p : Nat} {call : Call} {phase : Phase}
    (h : Invariant b start w)
    (hcalls : w'.calls = Function.update w.calls p (some (call, phase)))
    (halone : ∀ q call' phase', q ≠ p → w.calls q = some (call', phase') → phase'.inside = false)
    (hlock : phase.holds = true ↔ w'.lockedBy = some p)
    (hothers : ∀ q, q ≠ p → (w'.lockedBy = some q ↔ w.lockedBy = some q))
    (hknows : phase.Knows b start w')
    (hrest : phase.inside = false → FileBalanced b start w' w'.file) :
    Invariant b start w' := by
  apply h.updated hcalls hlock hothers _ hknows
  · exact fun q call' phase' hne hq => knows_outside (halone q call' phase' hne hq)
  · exact fun hout _ => hrest hout
  · intro q call' phase' hne hq hin
    rw [halone q call' phase' hne hq] at hin
    cases hin

theorem Invariant.alone {w : World} {p : Nat} {call : Call} {phase : Phase}
    (h : Invariant b start w) (hp : w.calls p = some (call, phase)) (hinside : phase.inside = true)
    (q : Nat) (call' : Call) (phase' : Phase) (hne : q ≠ p)
    (hq : w.calls q = some (call', phase')) : phase'.inside = false := by
  cases hin : phase'.inside with
  | false => rfl
  | true => exact absurd (h.one q call' phase' p call phase hq hin hp hinside) hne

theorem refilled_nonneg {currentTokens lastTime now : ℚ} (hnonneg : 0 ≤ currentTokens)
    (hpast : lastTime ≤ now) : 0 ≤ refilled b currentTokens lastTime now := by
  have helapsed := mul_nonneg (sub_nonneg.mpr hpast) b.refillRate_nonneg
  exact le_min b.capacity_nonneg (add_nonneg hnonneg helapsed)

/-- Settling a call keeps the balance: what is granted leaves the record. -/
theorem settle_balanced {w : World} {currentTokens lastTime : ℚ}
    (h : Balanced b start w ⟨currentTokens, lastTime⟩) (call : Call) :
    Balanced b start
      (w.count call (settle b (refilled b currentTokens lastTime w.clock) w.clock call).2)
      (settle b (refilled b currentTokens lastTime w.clock) w.clock call).1 := by
  have hnonneg : 0 ≤ refilled b currentTokens lastTime w.clock := refilled_nonneg h.nonneg h.past
  have hle : refilled b currentTokens lastTime w.clock ≤
      currentTokens + (w.clock - lastTime) * b.refillRate := min_le_right _ _
  have htotal := h.total
  simp only at htotal
  cases call with
  | consume tokens =>
    simp only [settle]
    split
    · rename_i henough
      refine ⟨sub_nonneg.mpr henough, le_rfl, ?_⟩
      simp only [World.count]
      linarith
    · refine ⟨hnonneg, le_rfl, ?_⟩
      simp only [World.count]
      linarith
  | release tokens =>
    have hcapped : min b.capacity (refilled b currentTokens lastTime w.clock + tokens) ≤
        refilled b currentTokens lastTime w.clock + tokens := min_le_right _ _
    refine ⟨?_, le_rfl, ?_⟩
    · exact le_min b.capacity_nonneg (add_nonneg hnonneg tokens.coe_nonneg)
    · simp only [settle, World.count]
      linarith

theorem count_calls (w : World) (call : Call) (result : Bool) :
    (w.count call result).calls = w.calls := by
  cases call <;> cases result <;> rfl

theorem count_lockedBy (w : World) (call : Call) (result : Bool) :
    (w.count call result).lockedBy = w.lockedBy := by
  cases call <;> cases result <;> rfl

theorem Invariant.proceeds {w w' : World} {p : Nat} {call : Call} {phase next : Phase}
    (h : Invariant b start w) (hp : w.calls p = some (call, phase)) (hinside : phase.inside = true)
    (hcalls : w'.calls = Function.update w.calls p (some (call, next)))
    (hlocked : w'.lockedBy = w.lockedBy) (hholds : next.holds = phase.holds)
    (hnext : next.inside = true) (hknows : next.Knows b start w') : Invariant b start w' := by
  apply h.moved hcalls (h.alone hp hinside)
  · rw [hholds, hlocked]
    exact h.lock p call phase hp
  · intro q _
    rw [hlocked]
  · exact hknows
  · intro houtside
    rw [hnext] at houtside
    cases houtside

theorem Invariant.nobody_inside {w : World} {p : Nat} {call : Call} (h : Invariant b start w)
    (hp : w.calls p = some (call, .locked)) (hreads : ReadsClosed w (.advance p)) :
    ∀ q call' phase, w.calls q = some (call', phase) → phase.inside = false := by
  have hlocked : w.lockedBy = some p := (h.lock p call .locked hp).mp rfl
  intro q call' phase hq
  by_cases hholds : phase.holds = true
  · -- a call that holds the lock is the one that is about to read
    have hsame : w.lockedBy = some q := (h.lock q call' phase hq).mp hholds
    rw [hlocked, Option.some.injEq] at hsame
    subst hsame
    rw [hp, Option.some.injEq, Prod.mk.injEq] at hq
    rw [← hq.2]
    rfl
  · cases phase with
    | opened => rfl
    | closed result => rfl
    | unlocked buffer result => exact absurd hq (hreads call hp q call' buffer result)
    | locked => exact absurd rfl hholds
    | found raw => exact absurd rfl hholds
    | failed => exact absurd rfl hholds
    | timed currentTokens lastTime => exact absurd rfl hholds
    | settled record result => exact absurd rfl hholds
    | truncated record result => exact absurd rfl hholds
    | buffered record result => exact absurd rfl hholds

theorem Invariant.outside {w w' : World} {p : Nat} {call : Call} {next : Phase}
    (h : Invariant b start w) (hkeeps : Keeps w w')
    (hcalls : w'.calls = Function.update w.calls p (some (call, next)))
    (hbefore : ∀ call' phase, w.calls p = some (call', phase) → phase.inside = false)
    (hnext : next.inside = false) (hlock : next.holds = true ↔ w'.lockedBy = some p)
    (hothers : ∀ q, q ≠ p → (w'.lockedBy = some q ↔ w.lockedBy = some q)) :
    Invariant b start w' := by
  apply h.updated hcalls hlock hothers _ (knows_outside hnext)
  · exact fun q call' phase' _ hq => (h.knows q call' phase' hq).keep hkeeps
  · intro _ houtside
    rw [hkeeps.file]
    refine FileBalanced.keep (h.rest fun q call' phase' hq => ?_) hkeeps
    by_cases hne : q = p
    · subst hne
      exact hbefore call' phase' hq
    · exact houtside q call' phase' hne hq
  · exact fun _ _ _ _ _ _ => hnext

theorem Invariant.tick {w : World} (h : Invariant b start w) (elapsed : ℚ≥0) :
    Invariant b start { w with clock := w.clock + elapsed } := by
  have hkeeps : Keeps w { w with clock := w.clock + elapsed } :=
    ⟨le_add_of_nonneg_right elapsed.coe_nonneg, rfl, rfl, rfl⟩
  exact ⟨h.lock, h.owner, h.one, fun p call phase hp => (h.knows p call phase hp).keep hkeeps,
    fun hrest => (h.rest hrest).keep hkeeps⟩

theorem Invariant.starts {w : World} (h : Invariant b start w) {p : Nat} (call : Call)
    (hp : w.calls p = none) : Invariant b start (w.move p call .opened) := by
  have hkeeps : Keeps w (w.move p call .opened) := ⟨le_rfl, rfl, rfl, rfl⟩
  have hbefore : ∀ call' phase, w.calls p = some (call', phase) → phase.inside = false := by
    intro call' phase hsome
    rw [hp] at hsome
    cases hsome
  apply h.outside hkeeps rfl hbefore rfl _ fun q _ => Iff.rfl
  have hfree : w.lockedBy ≠ some p := fun howner => h.owner p howner hp
  simp [Phase.holds, World.move, hfree]

theorem Invariant.opened_step {w : World} {p : Nat} {call : Call} (h : Invariant b start w)
    (hp : w.calls p = some (call, .opened)) : Invariant b start (advance b w p call .opened) := by
  unfold advance
  by_cases hfree : w.lockedBy = none
  · rw [if_pos hfree]
    have hkeeps : Keeps w ((w.lock p).move p call .locked) := ⟨le_rfl, rfl, rfl, rfl⟩
    have hbefore : ∀ call' phase, w.calls p = some (call', phase) → phase.inside = false := by
      intro call' phase hsome
      rw [hp, Option.some.injEq, Prod.mk.injEq] at hsome
      rw [← hsome.2]
      rfl
    apply h.outside hkeeps rfl hbefore rfl ⟨fun _ => rfl, fun _ => rfl⟩
    intro q hne
    simp [World.move, World.lock, hfree, Ne.symm hne]
  · rw [if_neg hfree]
    exact h

theorem Invariant.locked_step {w : World} {p : Nat} {call : Call} (h : Invariant b start w)
    (hp : w.calls p = some (call, .locked)) (hreads : ReadsClosed w (.advance p)) :
    Invariant b start (advance b w p call .locked) := by
  have hnobody := h.nobody_inside hp hreads
  have hkeeps : Keeps w (w.move p call (.found w.file)) := ⟨le_rfl, rfl, rfl, rfl⟩
  show Invariant b start (w.move p call (.found w.file))
  apply h.moved rfl fun q call' phase' _ hq => hnobody q call' phase' hq
  · exact ⟨fun _ => (h.lock p call .locked hp).mp rfl, fun _ => rfl⟩
  · exact fun q _ => Iff.rfl
  · exact ⟨rfl, (h.rest hnobody).keep hkeeps⟩
  · intro houtside
    cases houtside

theorem Invariant.found_step {w : World} {p : Nat} {call : Call} {raw : List Record}
    (h : Invariant b start w) (hp : w.calls p = some (call, .found raw)) :
    Invariant b start (advance b w p call (.found raw)) := by
  obtain ⟨-, hbalanced⟩ := h.knows p call _ hp
  match raw, hbalanced with
  | [], ⟨hgranted, hstart⟩ =>
    show Invariant b start (w.move p call (.timed b.capacity w.clock))
    refine h.proceeds hp rfl rfl rfl rfl rfl ?_
    refine ⟨b.capacity_nonneg, le_rfl, ?_⟩
    have hrate := mul_nonneg b.refillRate_nonneg (sub_nonneg.mpr hstart)
    simp only [World.move]
    linarith
  | [record], hbalanced =>
    show Invariant b start (w.move p call (.timed record.tokens record.time))
    refine h.proceeds hp rfl rfl rfl rfl rfl ?_
    exact Balanced.keep hbalanced le_rfl rfl rfl

theorem Invariant.timed_step {w : World} {p : Nat} {call : Call} {currentTokens lastTime : ℚ}
    (h : Invariant b start w) (hp : w.calls p = some (call, .timed currentTokens lastTime)) :
    Invariant b start (advance b w p call (.timed currentTokens lastTime)) := by
  have hbalanced : Balanced b start w ⟨currentTokens, lastTime⟩ := h.knows p call _ hp
  have hsettled := settle_balanced hbalanced call
  simp only [advance]
  generalize settle b (refilled b currentTokens lastTime w.clock) w.clock call = settled at *
  have hcalls : ((w.count call settled.2).move p call (.settled settled.1 settled.2)).calls =
      Function.update w.calls p (some (call, .settled settled.1 settled.2)) := by
    simp only [World.move, count_calls]
  refine h.proceeds hp rfl hcalls ?_ rfl rfl (hsettled.keep le_rfl rfl rfl)
  simp only [World.move, count_lockedBy]

theorem Invariant.settled_step {w : World} {p : Nat} {call : Call} {record : Record}
    {result : Bool} (h : Invariant b start w)
    (hp : w.calls p = some (call, .settled record result)) :
    Invariant b start (advance b w p call (.settled record result)) := by
  have hbalanced : Balanced b start w record := h.knows p call _ hp
  show Invariant b start (w.truncate.move p call (.truncated record result))
  refine h.proceeds hp rfl rfl rfl rfl rfl ?_
  exact ⟨rfl, hbalanced.keep le_rfl rfl rfl⟩

theorem Invariant.truncated_step {w : World} {p : Nat} {call : Call} {record : Record}
    {result : Bool} (h : Invariant b start w)
    (hp : w.calls p = some (call, .truncated record result)) :
    Invariant b start (advance b w p call (.truncated record result)) := by
  obtain ⟨hfile, hbalanced⟩ := h.knows p call _ hp
  show Invariant b start (w.move p call (.buffered record result))
  refine h.proceeds hp rfl rfl rfl rfl rfl ?_
  exact ⟨hfile, hbalanced.keep le_rfl rfl rfl⟩

theorem Invariant.buffered_step {w : World} {p : Nat} {call : Call} {record : Record}
    {result : Bool} (h : Invariant b start w)
    (hp : w.calls p = some (call, .buffered record result)) :
    Invariant b start (advance b w p call (.buffered record result)) := by
  obtain ⟨hfile, hbalanced⟩ := h.knows p call _ hp
  have hlocked : w.lockedBy = some p := (h.lock p call _ hp).mp rfl
  show Invariant b start (w.unlock.move p call (.unlocked [record] result))
  apply h.moved rfl (h.alone hp rfl)
  · simp [Phase.holds, World.move, World.unlock]
  · intro q hne
    simp [World.move, World.unlock, hlocked, Ne.symm hne]
  · exact ⟨record, rfl, hfile, hbalanced.keep le_rfl rfl rfl⟩
  · intro houtside
    cases houtside

theorem Invariant.unlocked_step {w : World} {p : Nat} {call : Call} {buffer : List Record}
    {result : Bool} (h : Invariant b start w)
    (hp : w.calls p = some (call, .unlocked buffer result)) :
    Invariant b start (advance b w p call (.unlocked buffer result)) := by
  obtain ⟨record, rfl, hfile, hbalanced⟩ := h.knows p call _ hp
  show Invariant b start ((w.append [record]).move p call (.closed result))
  apply h.moved rfl (h.alone hp rfl)
  · have hlock := h.lock p call _ hp
    exact hlock
  · exact fun q _ => Iff.rfl
  · trivial
  · intro _
    simp only [World.move, World.append, hfile, List.nil_append]
    exact hbalanced.keep le_rfl rfl rfl

theorem invariant_step (w : World) (e : Event) (h : Invariant b start w)
    (hreads : ReadsClosed w e) : Invariant b start (step b w e) := by
  cases e with
  | tick elapsed => exact h.tick elapsed
  | start p call =>
    cases hp : w.calls p with
    | none => simpa only [step, hp] using h.starts call hp
    | some state => simpa only [step, hp] using h
  | advance p =>
    cases hp : w.calls p with
    | none => simpa only [step, hp] using h
    | some state =>
      obtain ⟨call, phase⟩ := state
      simp only [step, hp]
      cases phase with
      | opened => exact h.opened_step hp
      | locked => exact h.locked_step hp hreads
      | found raw => exact h.found_step hp
      | failed => exact (h.knows p call .failed hp).elim
      | timed currentTokens lastTime => exact h.timed_step hp
      | settled record result => exact h.settled_step hp
      | truncated record result => exact h.truncated_step hp
      | buffered record result => exact h.buffered_step hp
      | unlocked buffer result => exact h.unlocked_step hp
      | closed result => exact h

/-- As long as no call reads the file before those that released the lock have closed it, the
tokens granted stay covered. -/
theorem granted_covered (b : FileBackedGlobalBucket) (start : ℚ) (es : List Event)
    (hreads : Runs.Meets (step b) ReadsClosed (fresh start) es) :
    Covered b start (Runs.run (step b) (fresh start) es) :=
  (Runs.run_keeps (step b) invariant_step (fresh start) es fresh_invariant hreads).covered

/-- One token a second. -/
def paperBucket : FileBackedGlobalBucket where
  capacity := 1
  refillRate := 1
  capacity_nonneg := by norm_num
  refillRate_nonneg := by norm_num

/-! The condition, where the calls under way are known. -/

def Phase.reads : Phase → Bool
  | .locked => true
  | _ => false

def Phase.unclosed : Phase → Bool
  | .unlocked .. => true
  | _ => false

/-- Only these calls are started, and the reads are checked against each of them. -/
def readsClosedAmong (ps : List Nat) (w : World) : Event → Bool
  | .tick _ => true
  | .start p _ => decide (p ∈ ps)
  | .advance p =>
    !(w.calls p).any (·.2.reads) || ps.all fun q => !(w.calls q).any (·.2.unclosed)

def OnlyAmong (ps : List Nat) (w : World) : Prop := ∀ q, q ∉ ps → w.calls q = none

theorem advance_calls_of_ne (w : World) {p q : Nat} (hne : q ≠ p) (call : Call) (phase : Phase) :
    (advance b w p call phase).calls q = w.calls q := by
  cases phase with
  | found raw =>
    match raw with
    | [] => exact Function.update_of_ne hne _ _
    | [record] => exact Function.update_of_ne hne _ _
    | _ :: _ :: _ => cases call <;> exact Function.update_of_ne hne _ _
  | opened =>
    change (if w.lockedBy = none then (w.lock p).move p call .locked else w).calls q = w.calls q
    split
    · exact Function.update_of_ne hne _ _
    · rfl
  | timed currentTokens lastTime =>
    simp only [advance, World.move, count_calls]
    exact Function.update_of_ne hne _ _
  | closed result => rfl
  | locked => exact Function.update_of_ne hne _ _
  | failed => exact Function.update_of_ne hne _ _
  | settled record result => exact Function.update_of_ne hne _ _
  | truncated record result => exact Function.update_of_ne hne _ _
  | buffered record result => exact Function.update_of_ne hne _ _
  | unlocked buffer result => exact Function.update_of_ne hne _ _

theorem onlyAmong_step (ps : List Nat) (w : World) (e : Event) (h : OnlyAmong ps w)
    (hchecked : readsClosedAmong ps w e = true) : OnlyAmong ps (step b w e) := by
  intro q hq
  cases e with
  | tick elapsed => exact h q hq
  | start p call =>
    have hp : p ∈ ps := of_decide_eq_true hchecked
    have hne : q ≠ p := fun heq => hq (heq ▸ hp)
    simp only [step]
    split
    · exact (Function.update_of_ne hne _ _).trans (h q hq)
    · exact h q hq
  | advance p =>
    simp only [step]
    split
    · exact h q hq
    next call phase hp =>
      have hne : q ≠ p := by
        rintro rfl
        rw [h q hq] at hp
        cases hp
      exact (advance_calls_of_ne w hne call phase).trans (h q hq)

theorem readsClosed_of_among (ps : List Nat) (w : World) (e : Event) (h : OnlyAmong ps w)
    (hchecked : readsClosedAmong ps w e = true) : ReadsClosed w e := by
  cases e with
  | tick elapsed => trivial
  | start p call => trivial
  | advance p =>
    intro call hp q call' buffer result hunlocked
    have hq : q ∈ ps := by
      by_contra hout
      rw [h q hout] at hunlocked
      cases hunlocked
    simp only [readsClosedAmong, hp, Option.any_some, Phase.reads, Bool.not_true, Bool.false_or,
      List.all_eq_true] at hchecked
    have hclosed := hchecked q hq
    rw [hunlocked] at hclosed
    cases hclosed

theorem meets_of_among (ps : List Nat) (start : ℚ) (es : List Event)
    (hchecked : Runs.Meets (step b) (fun w e => readsClosedAmong ps w e = true) (fresh start) es) :
    Runs.Meets (step b) ReadsClosed (fresh start) es :=
  Runs.meets_of_invariant (step b) (onlyAmong_step ps) (readsClosed_of_among ps) (fresh start) es
    (fun _ _ => rfl) hchecked

/-- A call for one token, up to where it has released the lock. -/
def toUnlocked (p : Nat) : List Event := .start p (.consume 1) :: List.replicate 7 (.advance p)

/-- The second call waits for the lock, gets it before the first one closes its file and reads
only then; the third finds what half a second has brought. A release follows, and a fourth call
for what it gave back. -/
def sharedDay : List Event :=
  .start 0 (.consume 1) :: List.replicate 3 (.advance 0) ++
    .start 1 (.consume 1) :: .advance 1 :: List.replicate 4 (.advance 0) ++
    [.advance 1, .advance 0] ++ List.replicate 7 (.advance 1) ++
    .tick (1 / 2) :: toUnlocked 2 ++ [.advance 2] ++
    .start 3 (.release 1) :: List.replicate 8 (.advance 3) ++ toUnlocked 4 ++ [.advance 4]

/-- One token of the capacity and the one given back are granted, the other two calls refused. -/
theorem sharedDay_covered :
    Covered paperBucket 0 (Runs.run (step paperBucket) (fresh 0) sharedDay) ∧
      (Runs.run (step paperBucket) (fresh 0) sharedDay).granted = 2 ∧
      (Runs.run (step paperBucket) (fresh 0) sharedDay).released = 1 ∧
      (List.range 5).all fun p =>
        (((Runs.run (step paperBucket) (fresh 0) sharedDay).calls p).map (·.2)) =
          some (.closed (p = 0 ∨ p = 3 ∨ p = 4)) := by
  have hreads : Runs.Meets (step paperBucket) ReadsClosed (fresh 0) sharedDay :=
    meets_of_among [0, 1, 2, 3, 4] 0 sharedDay (by decide +kernel)
  exact ⟨granted_covered paperBucket 0 sharedDay hreads, by decide +kernel⟩

def overlapping : World :=
  Runs.run (step paperBucket) (fresh 0) (toUnlocked 0 ++ toUnlocked 1 ++ toUnlocked 2)

/-- Three calls of which none closes the file before the next has read it, all at one time. -/
theorem overlapping_uncovered :
    overlapping.granted = 3 ∧ overlapping.clock = 0 ∧ overlapping.released = 0 ∧
      ¬ Covered paperBucket 0 overlapping := by
  unfold Covered
  decide +kernel

end AgentTrading.SharedBudget

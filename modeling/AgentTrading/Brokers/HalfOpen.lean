import Mathlib.Algebra.Order.Ring.Rat
import AgentTrading.Brokers.RateLimit
import AgentTrading.Library.Runs

/-! Concurrent calls guarded by one circuit breaker. A call is admitted by a look at the state and
records its outcome later; the breaker is not told which call it is that succeeds or fails. -/
namespace AgentTrading.Brokers
open Domain Library Runs

/-- A call on its way, with the number of the `HALF_OPEN` period it was admitted in. -/
structure GuardedCall where
  id : Nat
  admittedIn : Option Nat
  deriving DecidableEq

/-- The breaker with what it does not keep: the `HALF_OPEN` periods begun, the calls in flight, and
the successes that calls of the latest period have recorded during it. -/
structure Guarded where
  breaker : CircuitBreaker
  period : Nat := 0
  inFlight : List GuardedCall := []
  probesPassed : Nat := 0
  deriving DecidableEq

inductive GuardEvent where
  | enter (id : Nat) (now : ℚ)
  | succeed (id : Nat)
  | fail (id : Nat) (now : ℚ)

namespace Guarded

/-- The `state` property: a look may begin a `HALF_OPEN` period. -/
def look (s : Guarded) (now : ℚ) : Guarded :=
  let breaker := s.breaker.checkTimeout now
  if s.breaker.state = .opened ∧ breaker.state = .halfOpen then
    { s with breaker := breaker, period := s.period + 1, probesPassed := 0 }
  else { s with breaker := breaker }

def halfOpen (s : Guarded) : Prop := s.breaker.state = .halfOpen

instance (s : Guarded) : Decidable s.halfOpen := inferInstanceAs (Decidable (_ = _))

/-- The calls of the latest `HALF_OPEN` period in flight. -/
def probing (s : Guarded) : Nat :=
  s.inFlight.countP fun call => call.admittedIn = some s.period

def find (s : Guarded) (id : Nat) : Option GuardedCall := s.inFlight.find? (·.id = id)

def remove (s : Guarded) (call : GuardedCall) : Guarded :=
  { s with inFlight := s.inFlight.erase call }

/-- A call is refused while the circuit is open. -/
def enter (s : Guarded) (id : Nat) (now : ℚ) : Guarded :=
  let s := s.look now
  if s.breaker.state = .opened then s
  else
    { s with inFlight := ⟨id, if s.halfOpen then some s.period else none⟩ :: s.inFlight }

def succeed (s : Guarded) (call : GuardedCall) : Guarded :=
  { s.remove call with
    breaker := s.breaker.recordSuccess
    probesPassed := if s.halfOpen ∧ call.admittedIn = some s.period then s.probesPassed + 1
      else s.probesPassed }

def fail (s : Guarded) (call : GuardedCall) (now : ℚ) : Guarded :=
  { s.remove call with breaker := s.breaker.recordFailure now }

end Guarded

/-- An outcome is recorded for a call in flight. -/
def guardStep (s : Guarded) : GuardEvent → Guarded
  | .enter id now => s.enter id now
  | .succeed id =>
    match s.find id with
    | some call => s.succeed call
    | none => s
  | .fail id now =>
    match s.find id with
    | some call => s.fail call now
    | none => s

/-- While the circuit is half open, no more calls of this period are in flight than probes are
allowed. -/
def ProbesBounded (s : Guarded) : Prop :=
  s.halfOpen → s.probing ≤ s.breaker.halfOpenMaxRetries

/-- A step that closes the half-open circuit is the success of a call of this period, and as many
calls of this period have succeeded as probes are asked for. -/
def ClosesOnProbes (s : Guarded) (e : GuardEvent) : Prop :=
  s.halfOpen → (guardStep s e).breaker.state = .closed →
    (∃ id call, e = .succeed id ∧ s.find id = some call ∧ call.admittedIn = some s.period) ∧
      s.breaker.halfOpenMaxRetries ≤ (guardStep s e).probesPassed

/-- The callers keep to the probes themselves: none is admitted beyond them in a half-open
circuit, and none from before the period succeeds during it. -/
def Disciplined (s : Guarded) : GuardEvent → Prop
  | .enter _ now => (s.look now).halfOpen →
      (s.look now).probing < (s.look now).breaker.halfOpenMaxRetries
  | .succeed id => s.halfOpen → ∀ call, s.find id = some call → call.admittedIn = some s.period
  | .fail _ _ => True

/-- What a disciplined step keeps: the attempts the breaker has counted are the successes of this
period's calls. -/
structure Probed (s : Guarded) : Prop where
  bounded : ProbesBounded s
  counted : s.halfOpen → s.breaker.halfOpenAttempts = s.probesPassed
  begun : ∀ call ∈ s.inFlight, ∀ n, call.admittedIn = some n → n ≤ s.period

section

variable {s : Guarded} {now : ℚ}

theorem look_cases (s : Guarded) (now : ℚ) : s.look now = s ∨
    (s.breaker.state = .opened ∧ (s.look now).halfOpen ∧ (s.look now).period = s.period + 1 ∧
      (s.look now).probesPassed = 0 ∧ (s.look now).breaker.halfOpenAttempts = 0 ∧
      (s.look now).inFlight = s.inFlight ∧
      (s.look now).breaker.halfOpenMaxRetries = s.breaker.halfOpenMaxRetries) := by
  unfold Guarded.look CircuitBreaker.checkTimeout Guarded.halfOpen
  by_cases h : s.breaker.state = .opened ∧ now - s.breaker.lastFailureTime ≥
      s.breaker.recoveryTimeout
  · simp [h]
  · have hnot : ¬ (s.breaker.state = .opened ∧ s.breaker.state = .halfOpen) := by
      rintro ⟨hopened, hhalf⟩
      exact CircuitState.noConfusion (hopened.symm.trans hhalf)
    refine Or.inl ?_
    simp only [if_neg h, if_neg hnot]

theorem Probed.probing_new (h : Probed s) :
    s.inFlight.countP (fun call => call.admittedIn = some (s.period + 1)) = 0 := by
  rw [List.countP_eq_zero]
  intro call hcall
  rw [decide_eq_true_eq]
  intro heq
  have := h.begun call hcall _ heq
  omega

theorem Probed.look (h : Probed s) (now : ℚ) : Probed (s.look now) := by
  rcases look_cases s now with heq | ⟨-, -, hperiod, hpassed, hattempts, hflight, -⟩
  · rw [heq]
    exact h
  · refine ⟨fun _ => ?_, fun _ => by rw [hattempts, hpassed], ?_⟩
    · rw [Guarded.probing, hflight, hperiod, h.probing_new]
      exact Nat.zero_le _
    · rw [hflight, hperiod]
      exact fun call hcall n hn => Nat.le_succ_of_le (h.begun call hcall n hn)

theorem probing_remove_le (s : Guarded) (call : GuardedCall) :
    (s.remove call).probing ≤ s.probing :=
  List.erase_sublist.countP_le

theorem Probed.enter (h : Probed s) {id : Nat} (hroom : Disciplined s (.enter id now)) :
    Probed (s.enter id now) := by
  have hlook := h.look now
  unfold Guarded.enter
  simp only [Disciplined] at hroom
  generalize s.look now = t at hlook hroom ⊢
  by_cases hopen : t.breaker.state = .opened
  · simp only [if_pos hopen]
    exact hlook
  · simp only [if_neg hopen]
    refine ⟨fun hhalf => ?_, hlook.counted, ?_⟩
    · have hroom' := hroom hhalf
      have hhalf' : t.halfOpen := hhalf
      simp only [Guarded.probing, List.countP_cons, if_pos hhalf', decide_true, if_true] at *
      omega
    · intro call hcall n hn
      rcases List.mem_cons.mp hcall with rfl | hcall
      · by_cases hhalf : t.halfOpen
        · simp only [if_pos hhalf, Option.some.injEq] at hn
          exact hn.ge
        · simp only [if_neg hhalf, reduceCtorEq] at hn
      · exact hlook.begun call hcall n hn

theorem Probed.begun_remove (h : Probed s) (call : GuardedCall) :
    ∀ other ∈ (s.remove call).inFlight, ∀ n, other.admittedIn = some n → n ≤ s.period :=
  fun other hother => h.begun other (List.mem_of_mem_erase hother)

theorem Probed.fail (h : Probed s) (call : GuardedCall) (now : ℚ) : Probed (s.fail call now) := by
  have hshut : ¬ (s.fail call now).halfOpen := by
    simp only [Guarded.halfOpen, Guarded.fail, CircuitBreaker.recordFailure]
    split
    · simp
    · rename_i hnot
      split
      · simp
      · exact hnot
  exact ⟨fun hhalf => (hshut hhalf).elim, fun hhalf => (hshut hhalf).elim, h.begun_remove call⟩

/-- A success of a call of this period is counted, and closes the circuit or leaves it half
open. -/
theorem Probed.succeed (h : Probed s) {call : GuardedCall}
    (hmine : s.halfOpen → call.admittedIn = some s.period) :
    Probed (s.succeed call) ∧ (s.halfOpen → (s.succeed call).breaker.state = .closed →
      s.breaker.halfOpenMaxRetries ≤ (s.succeed call).probesPassed) := by
  by_cases hhalf : s.halfOpen
  · have hcounted := h.counted hhalf
    have hbounded := h.bounded hhalf
    have hremove := probing_remove_le s call
    have hstate : s.breaker.state = .halfOpen := hhalf
    by_cases hlast : s.breaker.halfOpenAttempts + 1 ≥ s.breaker.halfOpenMaxRetries
    · have hshut : ¬ (s.succeed call).halfOpen := by
        simp [Guarded.halfOpen, Guarded.succeed, CircuitBreaker.recordSuccess, hstate, hlast]
      refine ⟨⟨fun h => (hshut h).elim, fun h => (hshut h).elim, h.begun_remove call⟩,
        fun _ _ => ?_⟩
      simp only [Guarded.succeed, hhalf, hmine hhalf, and_self, if_true]
      omega
    · have hbreaker : s.breaker.recordSuccess =
          { s.breaker with halfOpenAttempts := s.breaker.halfOpenAttempts + 1 } := by
        simp only [CircuitBreaker.recordSuccess, hstate, if_true, if_neg hlast]
      refine ⟨⟨fun _ => ?_, fun _ => ?_, h.begun_remove call⟩, fun _ hclosed => ?_⟩
      · simp only [Guarded.succeed, hbreaker]
        exact hremove.trans hbounded
      · simp only [Guarded.succeed, hbreaker, hhalf, hmine hhalf, and_self, if_true, hcounted]
      · simp only [Guarded.succeed, hbreaker, hstate, reduceCtorEq] at hclosed
  · have hshut : ¬ (s.succeed call).halfOpen := by
      have hstate : s.breaker.state ≠ .halfOpen := hhalf
      simp [Guarded.halfOpen, Guarded.succeed, CircuitBreaker.recordSuccess, hstate]
    exact ⟨⟨fun h => (hshut h).elim, fun h => (hshut h).elim, h.begun_remove call⟩,
      fun h => (hhalf h).elim⟩

theorem Probed.step (h : Probed s) {e : GuardEvent} (hdisciplined : Disciplined s e) :
    Probed (guardStep s e) := by
  cases e with
  | enter id now => exact h.enter hdisciplined
  | succeed id =>
    cases hfind : s.find id with
    | none =>
      simp only [guardStep, hfind]
      exact h
    | some call =>
      simp only [guardStep, hfind]
      exact (h.succeed fun hhalf => hdisciplined hhalf call hfind).1
  | fail id now =>
    cases hfind : s.find id with
    | none =>
      simp only [guardStep, hfind]
      exact h
    | some call =>
      simp only [guardStep, hfind]
      exact h.fail call now

end

/-- A breaker in use for the first time. -/
def guarded (breaker : CircuitBreaker) : Guarded := { breaker := breaker }

theorem Probed.guarded {breaker : CircuitBreaker} (hclosed : breaker.state = .closed) :
    Probed (guarded breaker) := by
  have hshut : ¬ (Brokers.guarded breaker).halfOpen := by
    simp [Guarded.halfOpen, Brokers.guarded, hclosed]
  exact ⟨fun h => (hshut h).elim, fun h => (hshut h).elim, nofun⟩

theorem closesOnProbes_of_disciplined {s : Guarded} (h : Probed s) {e : GuardEvent}
    (hdisciplined : Disciplined s e) : ClosesOnProbes s e := by
  intro hhalf hclosed
  have hstate : s.breaker.state = .halfOpen := hhalf
  cases e with
  | enter id now =>
    have hlook : s.look now = s := by
      rcases look_cases s now with heq | ⟨hopened, -⟩
      · exact heq
      · exact CircuitState.noConfusion (hopened.symm.trans hstate)
    simp [guardStep, Guarded.enter, hlook, hstate] at hclosed
  | succeed id =>
    cases hfind : s.find id with
    | none => simp [guardStep, hfind, hstate] at hclosed
    | some call =>
      have hmine := hdisciplined hhalf call hfind
      simp only [guardStep, hfind] at hclosed ⊢
      exact ⟨⟨id, call, rfl, hfind, hmine⟩, (h.succeed fun _ => hmine).2 hhalf hclosed⟩
  | fail id now =>
    cases hfind : s.find id with
    | none => simp [guardStep, hfind, hstate] at hclosed
    | some call =>
      simp [guardStep, hfind, Guarded.fail, CircuitBreaker.recordFailure, hstate] at hclosed

/-- Along the whole run the probes in flight are bounded, and the circuit closes on account of
probes of the period only. -/
def ProbesDecide (s : Guarded) (events : List GuardEvent) : Prop :=
  (∀ earlier later, events = earlier ++ later → ProbesBounded (run guardStep s earlier)) ∧
    Meets guardStep ClosesOnProbes s events

theorem ProbesDecide.of_disciplined {s : Guarded} (h : Probed s) {events : List GuardEvent}
    (hdisciplined : Meets guardStep Disciplined s events) : ProbesDecide s events := by
  constructor
  · rintro earlier later rfl
    rw [meets_append] at hdisciplined
    exact (run_keeps guardStep (fun _ _ h hd => h.step hd) s earlier h hdisciplined.1).bounded
  · induction events generalizing s with
    | nil => trivial
    | cons e events ih =>
      exact ⟨closesOnProbes_of_disciplined h hdisciplined.1, ih (h.step hdisciplined.1)
        hdisciplined.2⟩

theorem ProbesDecide.tail {s : Guarded} {e : GuardEvent} {events : List GuardEvent}
    (h : ProbesDecide s (e :: events)) : ProbesDecide (guardStep s e) events :=
  ⟨fun earlier later heq => h.1 (e :: earlier) later (by rw [heq]; rfl), h.2.2⟩

theorem recordSuccess_maxRetries (b : CircuitBreaker) :
    b.recordSuccess.halfOpenMaxRetries = b.halfOpenMaxRetries := by
  unfold CircuitBreaker.recordSuccess
  split
  · split <;> rfl
  · rfl

theorem recordFailure_maxRetries (b : CircuitBreaker) (now : ℚ) :
    (b.recordFailure now).halfOpenMaxRetries = b.halfOpenMaxRetries := by
  simp only [CircuitBreaker.recordFailure]
  split
  · rfl
  · split <;> rfl

theorem look_maxRetries (s : Guarded) (now : ℚ) :
    (s.look now).breaker.halfOpenMaxRetries = s.breaker.halfOpenMaxRetries := by
  rcases look_cases s now with heq | ⟨-, -, -, -, -, -, hsame⟩
  · rw [heq]
  · exact hsame

theorem guardStep_maxRetries (s : Guarded) (e : GuardEvent) :
    (guardStep s e).breaker.halfOpenMaxRetries = s.breaker.halfOpenMaxRetries := by
  cases e with
  | enter id now =>
    simp only [guardStep, Guarded.enter]
    split <;> exact look_maxRetries s now
  | succeed id =>
    cases hfind : s.find id with
    | none => simp only [guardStep, hfind]
    | some call => simp only [guardStep, hfind, Guarded.succeed, recordSuccess_maxRetries]
  | fail id now =>
    cases hfind : s.find id with
    | none => simp only [guardStep, hfind]
    | some call => simp only [guardStep, hfind, Guarded.fail, recordFailure_maxRetries]

theorem disciplined_of_decide {s : Guarded} {e : GuardEvent}
    (hone : s.breaker.halfOpenMaxRetries ≤ 1) (hbounded : ProbesBounded (guardStep s e))
    (hcloses : ClosesOnProbes s e) : Disciplined s e := by
  cases e with
  | enter id now =>
    intro hhalf
    have hopen : (s.look now).breaker.state ≠ .opened := by
      intro hopened
      exact CircuitState.noConfusion (hopened.symm.trans hhalf)
    simp only [ProbesBounded, guardStep, Guarded.enter, if_neg hopen] at hbounded
    have hroom := hbounded hhalf
    simp only [Guarded.probing, List.countP_cons, if_pos hhalf, decide_true, if_true] at hroom ⊢
    omega
  | succeed id =>
    intro hhalf call hfind
    have hstate : s.breaker.state = .halfOpen := hhalf
    have hclosed : (guardStep s (.succeed id)).breaker.state = .closed := by
      have hlast : s.breaker.halfOpenAttempts + 1 ≥ s.breaker.halfOpenMaxRetries := by omega
      simp [guardStep, hfind, Guarded.succeed, CircuitBreaker.recordSuccess, hstate, hlast]
    obtain ⟨⟨id', call', hid, hfind', hmine⟩, -⟩ := hcloses hhalf hclosed
    obtain rfl := GuardEvent.succeed.inj hid
    rw [Option.some.inj (hfind.symm.trans hfind')]
    exact hmine
  | fail id now => trivial

theorem meets_disciplined_of_decide {s : Guarded} {events : List GuardEvent}
    (hone : s.breaker.halfOpenMaxRetries ≤ 1) (h : ProbesDecide s events) :
    Meets guardStep Disciplined s events := by
  induction events generalizing s with
  | nil => trivial
  | cons e events ih =>
    refine ⟨disciplined_of_decide hone (h.1 [e] events rfl) h.2.1, ih ?_ h.tail⟩
    rw [guardStep_maxRetries]
    exact hone

/-- Disciplined callers are enough for the probes to decide, and with one probe, as the breaker
is configured, they are needed. -/
theorem halfOpen_probes (breaker : CircuitBreaker) (hclosed : breaker.state = .closed)
    (events : List GuardEvent) :
    (Meets guardStep Disciplined (guarded breaker) events →
        ProbesDecide (guarded breaker) events) ∧
      (breaker.halfOpenMaxRetries ≤ 1 → (ProbesDecide (guarded breaker) events ↔
        Meets guardStep Disciplined (guarded breaker) events)) :=
  ⟨.of_disciplined (.guarded hclosed), fun hone =>
    ⟨meets_disciplined_of_decide hone, .of_disciplined (.guarded hclosed)⟩⟩

/-- One failure opens the circuit for ten seconds. -/
def touchy : CircuitBreaker where
  failureThreshold := 1
  recoveryTimeout := 10

theorem halfOpen_probes_one :
    ProbesDecide (guarded touchy) [.enter 1 0, .fail 1 0, .enter 2 10, .succeed 2] := by
  apply (halfOpen_probes touchy rfl _).1
  refine ⟨?_, trivial, ?_, ?_, trivial⟩
  · unfold Disciplined
    decide +kernel
  · unfold Disciplined
    decide +kernel
  · intro _ call hcall
    have hfound : (run guardStep (guarded touchy) [.enter 1 0, .fail 1 0, .enter 2 10]).find 2 =
        some ⟨2, some 1⟩ := by decide +kernel
    rw [← Option.some.inj (hfound.symm.trans hcall)]
    decide +kernel

/-- The first call is admitted before the circuit opens. In the half-open circuit two probes are
admitted where one is allowed, and the late success of the first call closes it. -/
theorem halfOpen_closed_by_straggler :
    let before : List GuardEvent := [.enter 1 0, .enter 2 0, .fail 2 0, .enter 3 10, .enter 4 10]
    ¬ ProbesBounded (run guardStep (guarded touchy) before) ∧
      ¬ ClosesOnProbes (run guardStep (guarded touchy) before) (.succeed 1) := by
  intro before
  constructor
  · unfold ProbesBounded
    decide +kernel
  · intro hcloses
    obtain ⟨⟨id, call, hid, hfind, hmine⟩, -⟩ := hcloses (by decide +kernel) (by decide +kernel)
    obtain rfl := GuardEvent.succeed.inj hid
    have hfound : (run guardStep (guarded touchy) before).find 1 = some ⟨1, none⟩ := by
      decide +kernel
    rw [← Option.some.inj (hfound.symm.trans hfind)] at hmine
    cases hmine

end AgentTrading.Brokers

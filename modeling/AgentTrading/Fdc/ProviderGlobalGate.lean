import AgentTrading.Fdc.Quota
import AgentTrading.Library.RowLock
import AgentTrading.Library.Runs

/-! The gate that every request of the provider passes. A transaction counts and stamps with its
start and lets its caller go when it commits; in between it waits for the row of the scope. The
grants are those of one scope. -/
namespace AgentTrading.Fdc
open Domain Library Library.Runs FdcQuotaTables

abbrev TxId := Nat

structure FdcProviderGlobalGate where
  targetRpm : Nat
  windowSeconds : Nat
  gateScope : String := "gemini:provider-global"

namespace FdcProviderGlobalGate

def minTargetRpm : Nat := 1

def maxTargetRpm : Nat := 13

def requiredWindowSeconds : Nat := 60

/-- The two tests of `acquire` before it asks the database. -/
def configured (gate : FdcProviderGlobalGate) : Bool :=
  (minTargetRpm ≤ gate.targetRpm ∧ gate.targetRpm ≤ maxTargetRpm) ∧
    gate.windowSeconds = requiredWindowSeconds

end FdcProviderGlobalGate

inductive ProviderGlobalGateResult where
  | granted (windowCountBeforeGrant : Nat)
  | denied (windowCount : Nat)
  | coordinatorError (errorClass : CoordinatorErrorClass)
  deriving DecidableEq

structure PermitResult where
  granted : Bool
  denialReason : Option String
  deriving DecidableEq

/-- `acquire`, with the answer of the repository. -/
def FdcProviderGlobalGate.acquire (gate : FdcProviderGlobalGate)
    (result : ProviderGlobalGateResult) : PermitResult :=
  if gate.configured then
    match result with
    | .granted _ => ⟨true, none⟩
    | .denied _ => ⟨false, some "global_gate_timeout"⟩
    | .coordinatorError _ => ⟨false, some "global_gate_error"⟩
  else ⟨false, some "global_gate_error"⟩

structure Caller where
  lane : String
  id : String
  deriving DecidableEq

/-- A row of `fdc_provider_global_gate_grants`, with the instant of its commit. -/
structure GateGrant where
  caller : Caller
  grantedAt : Time
  committedAt : Time
  deriving DecidableEq

/-- Where a transaction is: begun, holding the row, or past its count. -/
inductive Phase where
  | idle
  | begun (caller : Caller) (startedAt : Time)
  | locked (caller : Caller) (startedAt : Time)
  | counted (caller : Caller) (startedAt : Time) (windowCount : Nat)
  deriving DecidableEq

structure GateWorld where
  clock : Time
  /-- The row of the scope in `fdc_provider_global_gate_state`. -/
  anchor : Row TxId Unit
  phase : TxId → Phase := fun _ => .idle
  /-- The grants, newest commit first. -/
  grants : List GateGrant := []

inductive GateEvent where
  | tick (micros : Nat)
  | begin (tx : TxId) (caller : Caller)
  | lock (tx : TxId)
  | count (tx : TxId)
  | commit (tx : TxId)
  | fail (tx : TxId)

namespace GateWorld

def setPhase (w : GateWorld) (tx : TxId) (phase : Phase) : GateWorld :=
  { w with phase := Function.update w.phase tx phase }

/-- The grants stamped after `startedAt - window`. -/
def windowCount (w : GateWorld) (gate : FdcProviderGlobalGate) (startedAt : Time) : Nat :=
  w.grants.countP fun grant => recent (interval gate.windowSeconds) startedAt grant.grantedAt

def begin (gate : FdcProviderGlobalGate) (w : GateWorld) (tx : TxId) (caller : Caller) :
    GateWorld :=
  match w.phase tx with
  | .idle => if gate.configured then w.setPhase tx (.begun caller w.clock) else w
  | _ => w

/-- `SELECT ... FOR UPDATE` on the row of the scope. Without a row the transaction ends in an
error; a wait that is too long ends in `fail`. -/
def lock (w : GateWorld) (tx : TxId) : GateWorld :=
  match w.phase tx with
  | .begun caller startedAt =>
    match w.anchor.selectForUpdate tx with
    | none => w
    | some (none, _) => w.setPhase tx .idle
    | some (some _, anchor) => { w.setPhase tx (.locked caller startedAt) with anchor := anchor }
  | _ => w

def count (gate : FdcProviderGlobalGate) (w : GateWorld) (tx : TxId) : GateWorld :=
  match w.phase tx with
  | .locked caller startedAt =>
    w.setPhase tx (.counted caller startedAt (w.windowCount gate startedAt))
  | _ => w

/-- The end of a transaction that counted: its grant appears, when there was room, and the row is
free again. -/
def commit (gate : FdcProviderGlobalGate) (w : GateWorld) (tx : TxId) : GateWorld :=
  match w.phase tx with
  | .counted caller startedAt windowCount =>
    { w.setPhase tx .idle with
      anchor := w.anchor.commit tx
      grants :=
        if windowCount ≥ gate.targetRpm then w.grants
        else ⟨caller, startedAt, w.clock⟩ :: w.grants }
  | _ => w

def fail (w : GateWorld) (tx : TxId) : GateWorld :=
  { w.setPhase tx .idle with anchor := w.anchor.rollback tx }

end GateWorld

/-- `try_acquire_provider_global_gate_permit`, one event of one transaction. -/
def gateStep (gate : FdcProviderGlobalGate) (w : GateWorld) : GateEvent → GateWorld
  | .tick micros => { w with clock := w.clock + micros }
  | .begin tx caller => w.begin gate tx caller
  | .lock tx => w.lock tx
  | .count tx => w.count gate tx
  | .commit tx => w.commit gate tx
  | .fail tx => w.fail tx

/-- A scope with its row and no grants. -/
def openGate (clock : Time) : GateWorld := { clock := clock, anchor := ⟨some (), none⟩ }

/-! One transaction at a time is past the lock. -/

def Phase.holding : Phase → Bool
  | .locked .. | .counted .. => true
  | _ => false

def Phase.startedAt? : Phase → Option Time
  | .idle => none
  | .begun _ startedAt | .locked _ startedAt | .counted _ startedAt _ => some startedAt

/-- What one transaction's phase has to do with the row and the grants. -/
structure InTurn (gate : FdcProviderGlobalGate) (w : GateWorld) (tx : TxId) (phase : Phase) :
    Prop where
  configured : phase ≠ .idle → gate.configured
  held : phase.holding → w.anchor.HeldBy tx
  counted : ∀ caller startedAt windowCount, phase = .counted caller startedAt windowCount →
    windowCount = w.windowCount gate startedAt
  started : ∀ startedAt, phase.startedAt? = some startedAt → startedAt ≤ w.clock

theorem InTurn.idle (gate : FdcProviderGlobalGate) (w : GateWorld) (tx : TxId) :
    InTurn gate w tx .idle where
  configured h := absurd rfl h
  held h := nomatch h
  counted _ _ _ h := nomatch h
  started _ h := nomatch h

theorem InTurn.waiting {gate : FdcProviderGlobalGate} {w next : GateWorld} {tx : TxId}
    {phase : Phase} (h : InTurn gate w tx phase) (hfree : ¬ w.anchor.HeldBy tx)
    (hclock : w.clock ≤ next.clock) : InTurn gate next tx phase where
  configured := h.configured
  held hholding := absurd (h.held hholding) hfree
  counted caller startedAt windowCount hphase :=
    absurd (h.held (by rw [hphase]; rfl)) hfree
  started startedAt hstarted := le_trans (h.started startedAt hstarted) hclock

theorem InTurn.same {gate : FdcProviderGlobalGate} {w next : GateWorld} {tx : TxId}
    {phase : Phase} (h : InTurn gate w tx phase) (hanchor : next.anchor = w.anchor)
    (hgrants : next.grants = w.grants) (hclock : w.clock ≤ next.clock) :
    InTurn gate next tx phase where
  configured := h.configured
  held hholding := hanchor ▸ h.held hholding
  counted caller startedAt windowCount hphase := by
    unfold GateWorld.windowCount
    rw [hgrants]
    exact h.counted caller startedAt windowCount hphase
  started startedAt hstarted := le_trans (h.started startedAt hstarted) hclock

def Serial (gate : FdcProviderGlobalGate) (w : GateWorld) : Prop :=
  ∀ tx, InTurn gate w tx (w.phase tx)

theorem Serial.set {gate : FdcProviderGlobalGate} {w next : GateWorld} {tx : TxId} {phase : Phase}
    (hphase : next.phase = Function.update w.phase tx phase) (hself : InTurn gate next tx phase)
    (hothers : ∀ other, other ≠ tx → InTurn gate next other (w.phase other)) :
    Serial gate next := by
  intro other
  rw [hphase]
  by_cases hother : other = tx
  · subst hother
    rwa [Function.update_self]
  · rw [Function.update_of_ne hother]
    exact hothers other hother

theorem Serial.begin {gate : FdcProviderGlobalGate} {w : GateWorld} (h : Serial gate w) (tx : TxId)
    (caller : Caller) : Serial gate (w.begin gate tx caller) := by
  unfold GateWorld.begin
  split
  · split
    next hconfigured =>
      apply Serial.set rfl
      · exact ⟨fun _ => hconfigured, nofun, nofun, fun _ hstarted => (Option.some.inj hstarted).ge⟩
      · exact fun other _ => (h other).same rfl rfl le_rfl
    · exact h
  · exact h

theorem Serial.lock {gate : FdcProviderGlobalGate} {w : GateWorld} (h : Serial gate w)
    (tx : TxId) : Serial gate (w.lock tx) := by
  unfold GateWorld.lock
  split
  next caller startedAt hphase =>
    have hmine := h tx
    rw [hphase] at hmine
    split
    · exact h
    · apply Serial.set rfl
      · exact InTurn.idle gate _ tx
      · exact fun other _ => (h other).same rfl rfl le_rfl
    next anchor hlocked =>
      obtain ⟨-, ⟨hnone, -⟩ | ⟨_, -, -, hwriter, hbefore⟩⟩ := Row.selectForUpdate_eq hlocked
      · exact nomatch hnone
      · apply Serial.set rfl
        · exact ⟨fun _ => hmine.configured nofun, fun _ => ⟨_, hwriter⟩, nofun,
            fun _ hstarted => hmine.started _ hstarted⟩
        · intro other hother
          have hfree : ¬ w.anchor.HeldBy other := by
            rcases hbefore with hbefore | ⟨hbefore, -⟩ <;>
              simp [Row.HeldBy, hbefore, Ne.symm hother]
          exact (h other).waiting hfree le_rfl
  · exact h

theorem Serial.count {gate : FdcProviderGlobalGate} {w : GateWorld} (h : Serial gate w)
    (tx : TxId) : Serial gate (w.count gate tx) := by
  unfold GateWorld.count
  split
  next caller startedAt hphase =>
    have hmine := h tx
    rw [hphase] at hmine
    apply Serial.set rfl
    · refine ⟨fun _ => hmine.configured nofun, fun _ => hmine.held rfl, ?_,
        fun _ hstarted => hmine.started _ hstarted⟩
      intro caller' startedAt' windowCount hcounted
      cases hcounted
      rfl
    · exact fun other _ => (h other).same rfl rfl le_rfl
  · exact h

/-- The row when its holder has ended: nobody holds it. -/
theorem Serial.others {gate : FdcProviderGlobalGate} {w next : GateWorld} {tx other : TxId}
    (h : Serial gate w) (hheld : w.anchor.HeldBy tx) (hother : other ≠ tx)
    (hclock : w.clock ≤ next.clock) : InTurn gate next other (w.phase other) := by
  have hfree : ¬ w.anchor.HeldBy other := by
    obtain ⟨own, hown⟩ := hheld
    simp [Row.HeldBy, hown, Ne.symm hother]
  exact (h other).waiting hfree hclock

theorem Serial.commit {gate : FdcProviderGlobalGate} {w : GateWorld} (h : Serial gate w)
    (tx : TxId) : Serial gate (w.commit gate tx) := by
  unfold GateWorld.commit
  split
  next caller startedAt windowCount hphase =>
    have hheld := (h tx).held (by rw [hphase]; rfl)
    apply Serial.set rfl
    · exact InTurn.idle gate _ tx
    · exact fun other hother => h.others hheld hother le_rfl
  · exact h

theorem Serial.fail {gate : FdcProviderGlobalGate} {w : GateWorld} (h : Serial gate w)
    (tx : TxId) : Serial gate (w.fail tx) := by
  unfold GateWorld.fail
  apply Serial.set rfl
  · exact InTurn.idle gate _ tx
  · intro other hother
    by_cases hheld : w.anchor.HeldBy tx
    · exact h.others hheld hother le_rfl
    · exact (h other).same (Row.rollback_other hheld) rfl le_rfl

theorem Serial.step {gate : FdcProviderGlobalGate} {w : GateWorld} (h : Serial gate w)
    (event : GateEvent) : Serial gate (gateStep gate w event) := by
  cases event with
  | tick micros =>
    exact fun tx => (h tx).same rfl rfl (Int.le_add_of_nonneg_right (Int.natCast_nonneg micros))
  | begin tx caller => exact h.begin tx caller
  | lock tx => exact h.lock tx
  | count tx => exact h.count tx
  | commit tx => exact h.commit tx
  | fail tx => exact h.fail tx

/-- The window by the stamps, as the count sees it. -/
def stampSees (gate : FdcProviderGlobalGate) (newer older : GateGrant) : Bool :=
  recent (interval gate.windowSeconds) newer.grantedAt older.grantedAt

/-- The window by the commits, as the provider sees it. -/
def commitSees (gate : FdcProviderGlobalGate) (newer older : GateGrant) : Bool :=
  recent (interval gate.windowSeconds) newer.committedAt older.committedAt

/-- Each grant had room among the stamps, and a grant is stamped before it is committed. -/
structure Stamped (gate : FdcProviderGlobalGate) (grants : List GateGrant) : Prop where
  configured : grants ≠ [] → gate.configured
  admitted : Admitted (stampSees gate) gate.targetRpm grants
  stamped : ∀ grant ∈ grants, grant.grantedAt ≤ grant.committedAt

/-- The events that leave the grants alone. -/
theorem step_grants (gate : FdcProviderGlobalGate) (w : GateWorld) {event : GateEvent}
    (h : ∀ tx, event ≠ .commit tx) : (gateStep gate w event).grants = w.grants := by
  cases event with
  | tick micros => rfl
  | begin tx caller =>
    simp only [gateStep, GateWorld.begin]
    split
    · split <;> rfl
    · rfl
  | lock tx =>
    simp only [gateStep, GateWorld.lock]
    split
    · split <;> rfl
    · rfl
  | count tx =>
    simp only [gateStep, GateWorld.count]
    split <;> rfl
  | commit tx => exact absurd rfl (h tx)
  | fail tx => rfl

theorem commit_grants {gate : FdcProviderGlobalGate} {w : GateWorld} (h : Serial gate w)
    (tx : TxId) :
    (w.commit gate tx).grants = w.grants ∨
      ∃ caller startedAt windowCount, w.phase tx = .counted caller startedAt windowCount ∧
        gate.configured ∧ startedAt ≤ w.clock ∧ w.windowCount gate startedAt < gate.targetRpm ∧
        (w.commit gate tx).grants = ⟨caller, startedAt, w.clock⟩ :: w.grants := by
  unfold GateWorld.commit
  split
  next caller startedAt windowCount hphase =>
    by_cases hfull : windowCount ≥ gate.targetRpm
    · exact .inl (if_pos hfull)
    · have hmine := h tx
      rw [hphase] at hmine
      have hcount := hmine.counted caller startedAt windowCount rfl
      apply Or.inr
      refine ⟨caller, startedAt, windowCount, hphase, hmine.configured nofun,
        hmine.started startedAt rfl, ?_, if_neg hfull⟩
      rw [← hcount]
      exact not_le.mp hfull
  · exact .inl rfl

theorem Stamped.step {gate : FdcProviderGlobalGate} {w : GateWorld} (h : Stamped gate w.grants)
    (hserial : Serial gate w) (event : GateEvent) :
    Stamped gate (gateStep gate w event).grants := by
  by_cases hcommit : ∃ tx, event = .commit tx
  · obtain ⟨tx, rfl⟩ := hcommit
    rcases commit_grants hserial tx with hsame |
      ⟨caller, startedAt, windowCount, -, hconfigured, hstarted, hroom, hgrants⟩
    · simp only [gateStep, hsame]
      exact h
    · simp only [gateStep, hgrants]
      refine ⟨fun _ => hconfigured, ⟨hroom, h.admitted⟩, ?_⟩
      intro grant hgrant
      rcases List.mem_cons.mp hgrant with rfl | hgrant
      · exact hstarted
      · exact h.stamped grant hgrant
  · rw [step_grants gate w fun tx heq => hcommit ⟨tx, heq⟩]
    exact h

/-- A transaction that commits a grant has counted every grant that was committed within the window
before its own commit. -/
def CountsCommitted (gate : FdcProviderGlobalGate) (w : GateWorld) : GateEvent → Prop
  | .commit tx => ∀ caller startedAt windowCount,
      w.phase tx = .counted caller startedAt windowCount → windowCount < gate.targetRpm →
      ∀ grant ∈ w.grants,
        recent (interval gate.windowSeconds) w.clock grant.committedAt →
        recent (interval gate.windowSeconds) startedAt grant.grantedAt
  | _ => True

/-- What the commits see, the stamps see. -/
def SeenByStamps (gate : FdcProviderGlobalGate) (grants : List GateGrant) : Prop :=
  grants.Pairwise fun newer older => commitSees gate newer older → stampSees gate newer older

theorem SeenByStamps.step {gate : FdcProviderGlobalGate} {w : GateWorld}
    (h : SeenByStamps gate w.grants) (hserial : Serial gate w) {event : GateEvent}
    (hcounts : CountsCommitted gate w event) :
    SeenByStamps gate (gateStep gate w event).grants := by
  by_cases hcommit : ∃ tx, event = .commit tx
  · obtain ⟨tx, rfl⟩ := hcommit
    rcases commit_grants hserial tx with hsame |
      ⟨caller, startedAt, windowCount, hphase, -, -, hroom, hgrants⟩
    · simp only [gateStep, hsame]
      exact h
    · simp only [gateStep, hgrants]
      have hmine := hserial tx
      rw [hphase] at hmine
      have hcount := hmine.counted caller startedAt windowCount rfl
      apply List.Pairwise.cons _ h
      exact fun grant hgrant => hcounts caller startedAt windowCount hphase
        (hcount ▸ hroom) grant hgrant
  · rw [step_grants gate w fun tx heq => hcommit ⟨tx, heq⟩]
    exact h

theorem Stamped.interval_eq {gate : FdcProviderGlobalGate} {grants : List GateGrant}
    (h : Stamped gate grants) (hgrants : grants ≠ []) : gate.windowSeconds = 60 := by
  have hconfigured := h.configured hgrants
  simp only [FdcProviderGlobalGate.configured, decide_eq_true_eq] at hconfigured
  exact hconfigured.2

def afterCommit (width start : Time) (grant : GateGrant) : Bool :=
  afterStart width start grant.committedAt

def fromCommit (width start : Time) (grant : GateGrant) : Bool :=
  fromStart width start grant.committedAt

theorem run_stamped (gate : FdcProviderGlobalGate) (clock : Time) (events : List GateEvent) :
    Serial gate (run (gateStep gate) (openGate clock) events) ∧
      Stamped gate (run (gateStep gate) (openGate clock) events).grants := by
  apply run_keeps (gateStep gate) (C := fun _ _ => True)
    (I := fun w => Serial gate w ∧ Stamped gate w.grants)
  · exact fun _ event h _ => ⟨h.1.step event, h.2.step h.1 event⟩
  · exact ⟨fun tx => InTurn.idle gate _ tx, fun h => absurd rfl h, trivial, nofun⟩
  · exact meets_true _ _ _

/-- What the gate keeps in every run: where no transaction takes longer than `delay` from its start
to its commit, a span shorter than a minute by `delay` sees no more commits than the target. -/
theorem commits_le_of_delay (gate : FdcProviderGlobalGate) (clock : Time)
    (events : List GateEvent) (delay : Time)
    (hdelay : ∀ grant ∈ (run (gateStep gate) (openGate clock) events).grants,
      grant.committedAt - grant.grantedAt ≤ delay) (start : Time) :
    (run (gateStep gate) (openGate clock) events).grants.countP
      (afterCommit (interval 60 - delay) start) ≤ gate.targetRpm := by
  have hstamped := (run_stamped gate clock events).2
  generalize run (gateStep gate) (openGate clock) events = w at hdelay hstamped ⊢
  by_cases hgrants : w.grants = []
  · simp [hgrants]
  · have hminute := hstamped.interval_eq hgrants
    apply hstamped.admitted.countP_le
    apply List.pairwise_of_forall_mem_list
    intro newer hnewer older holder hkind hkind'
    have hstamp := hstamped.stamped newer hnewer
    have hlate := hdelay older holder
    simp only [afterCommit, afterStart, decide_eq_true_eq] at hkind hkind'
    unfold stampSees
    rw [recent_iff, hminute]
    simp only [Time] at *
    omega

/-- As long as every granting transaction has counted what was committed in the minute before its
own commit, no minute sees more commits than the target. -/
theorem commits_le_targetRpm (gate : FdcProviderGlobalGate) (clock : Time)
    (events : List GateEvent)
    (hcounts : Meets (gateStep gate) (CountsCommitted gate) (openGate clock) events)
    (start : Time) :
    let w := run (gateStep gate) (openGate clock) events
    w.grants.countP (afterCommit (interval 60) start) ≤ gate.targetRpm ∧
      w.grants.countP (fromCommit (interval 60) start) ≤ gate.targetRpm := by
  intro w
  have hkept := run_keeps (gateStep gate)
    (I := fun w => Serial gate w ∧ Stamped gate w.grants ∧ SeenByStamps gate w.grants)
    (fun _ event h hcounts =>
      ⟨h.1.step event, h.2.1.step h.1 event, h.2.2.step h.1 hcounts⟩) (openGate clock) events
    ⟨fun tx => InTurn.idle gate _ tx, ⟨fun h => absurd rfl h, trivial, nofun⟩, .nil⟩ hcounts
  obtain ⟨-, hstamped, hseen⟩ := hkept
  by_cases hgrants : w.grants = []
  · simp [hgrants]
  · have hminute := hstamped.interval_eq hgrants
    have hcount : ∀ {kind : GateGrant → Bool},
        (∀ newer older, kind newer → kind older →
          recent (interval 60) newer.committedAt older.committedAt) →
        w.grants.countP kind ≤ gate.targetRpm := by
      intro kind hkind
      apply hstamped.admitted.countP_le
      apply hseen.imp
      intro newer older hsees hnewer holder
      apply hsees
      unfold commitSees
      rw [hminute]
      exact hkind newer older hnewer holder
    constructor
    · exact hcount fun _ _ => recent_of_afterStart
    · exact hcount fun _ _ => recent_of_fromStart

/-- One request a minute. -/
def onePerMinute : FdcProviderGlobalGate where
  targetRpm := 1
  windowSeconds := 60

theorem commits_le_targetRpm_inTime :
    let caller : Caller := ⟨"legacy", "ops-scheduler"⟩
    let events : List GateEvent := [.begin 1 caller, .lock 1, .count 1, .commit 1,
      .tick 60000000, .begin 2 caller, .lock 2, .count 2, .commit 2]
    let w := run (gateStep onePerMinute) (openGate 0) events
    w.grants.countP (afterCommit (interval 60) 0) ≤ 1 ∧
      w.grants.countP (fromCommit (interval 60) 0) ≤ 1 := by
  apply commits_le_targetRpm onePerMinute 0
  refine ⟨trivial, trivial, trivial, ?_, trivial, trivial, trivial, trivial, ?_, trivial⟩
  · intro _ _ _ _ _ grant hgrant
    exact nomatch hgrant
  · intro caller startedAt windowCount hphase _ grant hgrant hrecent
    cases hphase
    rw [List.mem_singleton.mp hgrant] at hrecent ⊢
    exact hrecent

/-- The second transaction waits two seconds for the row; its grant is stamped with its start, and
the third no longer counts it 58 seconds after its commit. -/
theorem commits_exceed_targetRpm :
    let caller : Caller := ⟨"legacy", "ops-scheduler"⟩
    let events : List GateEvent := [.begin 1 caller, .lock 1, .begin 2 caller, .lock 2,
      .tick 2000000, .fail 1, .lock 2, .count 2, .commit 2,
      .tick 58000000, .begin 3 caller, .lock 3, .count 3, .commit 3]
    let w := run (gateStep onePerMinute) (openGate 0) events
    ¬ w.grants.countP (afterCommit (interval 60) 0) ≤ onePerMinute.targetRpm := by
  decide

end AgentTrading.Fdc

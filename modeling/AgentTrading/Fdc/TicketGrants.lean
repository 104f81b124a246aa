import Mathlib.Tactic.Linarith
import AgentTrading.Fdc.TicketQueue
import AgentTrading.Library.Admission

/-! Grants of the state file against the clock. A participant reads the clock, waits for a thread
and the file lock, and counts and stamps with what it has read. -/
namespace AgentTrading.Fdc.TicketQueue
open Library Library.Runs

/-- A grant: the instant at which its poll held the lock, the stamp it left in the file, and
whether a poll has trimmed that stamp since. -/
structure SlotGrant where
  instant : ℚ
  stamp : ℚ
  dropped : Bool := false
  deriving DecidableEq

/-- The file with the clock of the machine, the readings of the participants on their way to the
lock, and the grants, newest first. -/
structure SlotWorld where
  clock : ℚ := 0
  file : StateFile := {}
  reading : Nat → Option ℚ := fun _ => none
  log : List SlotGrant := []

inductive SlotEvent where
  | tick (time : ℚ)
  | readClock (participant : Nat)
  | poll (participant : Nat) (call : PollCall)
  | remove (ticketId : Nat)

variable (limits : Limits)

def SlotGrant.trimmedAt (now : ℚ) (g : SlotGrant) : SlotGrant :=
  { g with dropped := g.dropped || decide (g.stamp < now - limits.windowSeconds) }

def slotStep (w : SlotWorld) : SlotEvent → SlotWorld
  | .tick time => { w with clock := max w.clock time }
  | .readClock participant =>
    { w with reading := Function.update w.reading participant (some w.clock) }
  | .poll participant call =>
    match w.reading participant with
    | none => w
    | some now =>
      let polled := pollTicket limits call now w.file
      { w with
        file := polled.2
        reading := Function.update w.reading participant none
        log := (if polled.1.granted then [{ instant := w.clock, stamp := now }] else []) ++
          w.log.map (SlotGrant.trimmedAt limits now) }
  | .remove ticketId => { w with file := removeTicket ticketId w.file }

/-- A poll that finds room counts every grant made in the last `span` before it holds the lock. -/
def CountsWithin (span : ℚ) (w : SlotWorld) : SlotEvent → Prop
  | .poll participant _ => ∀ now, w.reading participant = some now →
      (trimGrants limits w.file.grants now).length < limits.maxCalls →
      ∀ g ∈ w.log, w.clock - span ≤ g.instant →
        g.dropped = false ∧ now - limits.windowSeconds ≤ g.stamp
  | _ => True

/-! The file holds the stamps that have not been trimmed. -/

def kept (log : List SlotGrant) : List SlotGrant := log.filter fun g => !g.dropped

def Recorded (w : SlotWorld) : Prop :=
  w.file.grants = ((kept w.log).map (·.stamp)).reverse

theorem trimGrants_kept (log : List SlotGrant) (now : ℚ) :
    trimGrants limits ((kept log).map (·.stamp)).reverse now =
      ((kept (log.map (SlotGrant.trimmedAt limits now))).map (·.stamp)).reverse := by
  unfold trimGrants
  rw [List.filter_reverse]
  refine congrArg List.reverse ?_
  induction log with
  | nil => rfl
  | cons g log ih =>
    simp only [kept, List.map_cons, List.filter_cons, SlotGrant.trimmedAt] at ih ⊢
    by_cases hdropped : g.dropped = true
    · simp only [hdropped, Bool.not_true, Bool.false_eq_true, if_false, Bool.true_or]
      exact ih
    · by_cases hold : g.stamp < now - limits.windowSeconds
      · simp only [hdropped, hold, not_le.mpr hold, Bool.not_false, if_true, decide_true,
          List.map_cons, List.filter_cons, decide_false, Bool.false_eq_true, if_false,
          Bool.false_or, Bool.not_true]
        exact ih
      · simp only [hdropped, hold, not_lt.mp hold, Bool.not_false, if_true, decide_true,
          List.map_cons, List.filter_cons, decide_false, Bool.or_false, if_true]
        exact congrArg (g.stamp :: ·) ih

theorem poll_grants (call : PollCall) (now : ℚ) (file : StateFile) :
    (pollTicket limits call now file).2.grants = trimGrants limits file.grants now ++
        (if (pollTicket limits call now file).1.granted then [now] else []) ∧
      ((pollTicket limits call now file).1.granted = true →
        (trimGrants limits file.grants now).length < limits.maxCalls) := by
  simp only [pollTicket]
  split
  · rename_i h
    exact ⟨rfl, fun _ => h.2⟩
  · exact ⟨(List.append_nil _).symm, fun h => Bool.noConfusion h⟩

theorem Recorded.step {w : SlotWorld} (h : Recorded w) (e : SlotEvent) :
    Recorded (slotStep limits w e) := by
  cases e with
  | tick time => exact h
  | readClock participant => exact h
  | remove ticketId => exact h
  | poll participant call =>
    cases hreading : w.reading participant with
    | none => simpa only [slotStep, hreading] using h
    | some now =>
      simp only [slotStep, hreading, Recorded]
      rw [(poll_grants limits call now w.file).1, h, trimGrants_kept]
      by_cases hgrant : (pollTicket limits call now w.file).1.granted = true
      · simp [hgrant, kept]
      · simp [hgrant]

/-! Each grant came after fewer than `maxCalls` others in the span before it. -/

def withinSpan (span newer older : ℚ) : Bool := newer - span ≤ older

def Spaced (span : ℚ) (w : SlotWorld) : Prop :=
  Admitted (withinSpan span) limits.maxCalls (w.log.map (·.instant))

theorem trimmedAt_instants (log : List SlotGrant) (now : ℚ) :
    (log.map (SlotGrant.trimmedAt limits now)).map (·.instant) = log.map (·.instant) := by
  simp [SlotGrant.trimmedAt]

theorem Spaced.step {span : ℚ} {w : SlotWorld} (h : Spaced limits span w) (hrecorded : Recorded w)
    {e : SlotEvent} (hcounts : CountsWithin limits span w e) :
    Spaced limits span (slotStep limits w e) := by
  cases e with
  | tick time => exact h
  | readClock participant => exact h
  | remove ticketId => exact h
  | poll participant call =>
    cases hreading : w.reading participant with
    | none => simpa only [slotStep, hreading] using h
    | some now =>
      simp only [slotStep, hreading, Spaced]
      by_cases hgrant : (pollTicket limits call now w.file).1.granted = true
      · have hroom := (poll_grants limits call now w.file).2 hgrant
        simp only [hgrant, if_true, List.singleton_append, List.map_cons, trimmedAt_instants]
        refine ⟨?_, h⟩
        refine lt_of_le_of_lt ?_ hroom
        have hcount := hcounts now hreading hroom
        rw [hrecorded, trimGrants_kept, List.length_reverse, List.length_map, kept,
          ← List.countP_eq_length_filter, List.countP_map, List.countP_map]
        refine List.countP_mono_left fun g hg hspan => ?_
        simp only [Function.comp_apply, withinSpan, decide_eq_true_eq] at hspan
        have hcounted := hcount g hg hspan
        simp [SlotGrant.trimmedAt, hcounted.1, hcounted.2]
      · simp only [hgrant, Bool.false_eq_true, if_false, List.nil_append, trimmedAt_instants]
        exact h

/-- The grants whose instants lie in the span that begins at `start`. -/
def grantsIn (span start : ℚ) (w : SlotWorld) : Nat :=
  w.log.countP fun g => start ≤ g.instant ∧ g.instant ≤ start + span

/-- A file in which no grant is recorded. -/
def opened (pending : List Ticket) (clock : ℚ) : SlotWorld :=
  { clock := clock, file := { pending := pending } }

theorem grantsIn_le {span : ℚ} {w : SlotWorld} (h : Spaced limits span w) (start : ℚ) :
    grantsIn span start w ≤ limits.maxCalls := by
  have hsees : (w.log.map (·.instant)).Pairwise fun newer older =>
      decide (start ≤ newer ∧ newer ≤ start + span) = true →
        decide (start ≤ older ∧ older ≤ start + span) = true → withinSpan span newer older := by
    apply List.pairwise_of_forall
    intro newer older hnewer holder
    simp only [decide_eq_true_eq, withinSpan] at *
    linarith
  have hle := h.countP_le hsees
  rw [List.countP_map] at hle
  exact hle

/-- As long as every poll that finds room counts the grants of the last `span`, no span of that
length has more grants than calls are allowed. -/
theorem grants_le_of_counts (span : ℚ) (pending : List Ticket) (clock : ℚ)
    (events : List SlotEvent)
    (hcounts : Meets (slotStep limits) (CountsWithin limits span) (opened pending clock) events)
    (start : ℚ) :
    grantsIn span start (run (slotStep limits) (opened pending clock) events) ≤
      limits.maxCalls := by
  have hkept := run_keeps (slotStep limits) (I := fun w => Recorded w ∧ Spaced limits span w)
    (fun w e h hcounts => ⟨h.1.step limits e, h.2.step limits h.1 hcounts⟩)
    (opened pending clock) events ⟨rfl, trivial⟩ hcounts
  exact grantsIn_le limits hkept.2 start

/-- The poll holds the lock at most `lag` after its clock reading. -/
def LagAtMost (lag : ℚ) (w : SlotWorld) : SlotEvent → Prop
  | .poll participant _ => ∀ now, w.reading participant = some now → w.clock - now ≤ lag
  | _ => True

/-- Readings are of the past, stamps are behind their instants by the lag at most, and what has
been trimmed was out of the window. -/
structure Timely (lag : ℚ) (w : SlotWorld) : Prop where
  reading : ∀ participant now, w.reading participant = some now → now ≤ w.clock
  stamped : ∀ g ∈ w.log, g.instant - lag ≤ g.stamp
  dropped : ∀ g ∈ w.log, g.dropped = true → g.stamp < w.clock - limits.windowSeconds

theorem Timely.step {lag : ℚ} {w : SlotWorld} (h : Timely limits lag w) {e : SlotEvent}
    (hlag : LagAtMost lag w e) : Timely limits lag (slotStep limits w e) := by
  cases e with
  | tick time =>
    have hclock : w.clock ≤ max w.clock time := le_max_left _ _
    exact ⟨fun p now hnow => (h.reading p now hnow).trans hclock, h.stamped,
      fun g hg hd => (h.dropped g hg hd).trans_le (sub_le_sub_right hclock _)⟩
  | remove ticketId => exact ⟨h.reading, h.stamped, h.dropped⟩
  | readClock participant =>
    refine ⟨fun p now hnow => ?_, h.stamped, h.dropped⟩
    by_cases hp : p = participant
    · subst hp
      simp only [slotStep, Function.update_self, Option.some.injEq] at hnow
      exact hnow.ge
    · simp only [slotStep, Function.update_of_ne hp] at hnow
      exact h.reading p now hnow
  | poll participant call =>
    cases hreading : w.reading participant with
    | none =>
      simp only [slotStep, hreading]
      exact h
    | some now =>
      have hnow := h.reading participant now hreading
      have hlate := hlag now hreading
      simp only [slotStep, hreading]
      refine ⟨fun p other hother => ?_, fun g hg => ?_, fun g hg hdropped => ?_⟩
      · by_cases hp : p = participant
        · subst hp
          simp at hother
        · simp only [Function.update_of_ne hp] at hother
          exact h.reading p other hother
      · rcases List.mem_append.mp hg with hnew | hold
        · split at hnew
          · rw [List.mem_singleton.mp hnew]
            dsimp only
            linarith
          · exact (List.not_mem_nil hnew).elim
        · obtain ⟨g', hg', rfl⟩ := List.mem_map.mp hold
          exact h.stamped g' hg'
      · rcases List.mem_append.mp hg with hnew | hold
        · split at hnew
          · rw [List.mem_singleton.mp hnew] at hdropped
            cases hdropped
          · exact (List.not_mem_nil hnew).elim
        · obtain ⟨g', hg', rfl⟩ := List.mem_map.mp hold
          simp only [SlotGrant.trimmedAt, Bool.or_eq_true, decide_eq_true_eq] at hdropped ⊢
          rcases hdropped with hbefore | hnew
          · exact h.dropped g' hg' hbefore
          · linarith

theorem Timely.counts {lag : ℚ} {w : SlotWorld} (h : Timely limits lag w) (e : SlotEvent) :
    CountsWithin limits (limits.windowSeconds - lag) w e := by
  cases e with
  | poll participant call =>
    intro now hreading _ g hg hspan
    have hnow := h.reading participant now hreading
    have hstamp := h.stamped g hg
    constructor
    · rw [← Bool.not_eq_true]
      intro hdropped
      have := h.dropped g hg hdropped
      linarith
    · linarith
  | tick time => trivial
  | readClock participant => trivial
  | remove ticketId => trivial

/-- What holds in every run: where no poll holds the lock later than `lag` after its clock
reading, the spans that are shorter than the window by the lag have no more grants than calls are
allowed. -/
theorem grants_le_of_lag (lag : ℚ) (pending : List Ticket) (clock : ℚ) (events : List SlotEvent)
    (hlag : Meets (slotStep limits) (LagAtMost lag) (opened pending clock) events) (start : ℚ) :
    grantsIn (limits.windowSeconds - lag) start
      (run (slotStep limits) (opened pending clock) events) ≤ limits.maxCalls := by
  refine grants_le_of_counts limits _ pending clock events ?_ start
  have htimely : Timely limits lag (opened pending clock) := ⟨nofun, nofun, nofun⟩
  generalize opened pending clock = w at hlag htimely
  induction events generalizing w with
  | nil => trivial
  | cons e events ih =>
    exact ⟨htimely.counts limits e, ih _ hlag.2 (htimely.step limits hlag.1)⟩

/-- As long as every poll that finds room counts the grants made in the window before it holds the
lock, no span of the window's length has more grants than calls are allowed. -/
theorem grants_le_maxCalls (pending : List Ticket) (clock : ℚ) (events : List SlotEvent)
    (hcounts : Meets (slotStep limits) (CountsWithin limits limits.windowSeconds)
      (opened pending clock) events) (start : ℚ) :
    grantsIn limits.windowSeconds start (run (slotStep limits) (opened pending clock) events) ≤
      limits.maxCalls :=
  grants_le_of_counts limits _ pending clock events hcounts start

theorem grants_le_maxCalls_prompt :
    let events : List SlotEvent := [.readClock 1, .poll 1 ⟨1, "real", 0⟩, .tick 61, .readClock 2,
      .poll 2 ⟨2, "real", 0⟩]
    grantsIn 60 0 (run (slotStep onePerMinute) (opened [] 0) events) ≤ 1 := by
  apply grants_le_maxCalls onePerMinute [] 0
  refine ⟨trivial, ?_, trivial, trivial, ?_, trivial⟩
  · exact fun _ _ _ _ hg => (List.not_mem_nil hg).elim
  · intro now hnow hroom g hg hspan
    exfalso
    revert g
    unfold SlotWorld.clock
    decide +kernel

/-- The first poll waits a second for the lock. Its stamp is trimmed when a minute has passed since
its clock reading, half a second before a minute has passed since its grant. -/
theorem grants_exceed_maxCalls :
    let events : List SlotEvent := [.readClock 1, .tick 1, .poll 1 ⟨1, "real", 0⟩, .tick (121 / 2),
      .readClock 2, .poll 2 ⟨2, "real", 0⟩]
    ¬ grantsIn 60 1 (run (slotStep onePerMinute) (opened [] 0) events) ≤
      onePerMinute.maxCalls := by
  decide +kernel

end AgentTrading.Fdc.TicketQueue

import Mathlib.Algebra.Order.Ring.Rat
import Mathlib.Data.List.Nodup
import AgentTrading.Library.WaitingLine

/-! The state file of `wait_for_fdc_slot`: the instants of the grants and a FIFO queue of tickets.
A poll cleans, registers or refreshes a ticket and may grant it, all under one file lock. Times are
seconds. -/
namespace AgentTrading.Fdc.TicketQueue
open Library Library.Runs Library.WaitingLine

structure Ticket where
  ticketId : Nat
  lane : String
  enqueuedAt : ℚ
  lastHeartbeatAt : ℚ
  leaseExpiresAt : ℚ
  requeueCount : Nat
  deriving DecidableEq

structure StateFile where
  grants : List ℚ := []
  pending : List Ticket := []
  deriving DecidableEq

/-- The limits that all participants share. -/
structure Limits where
  maxCalls : Nat := 10
  windowSeconds : ℚ := 60
  leaseSeconds : ℚ := 30

structure PollCall where
  ticketId : Nat
  lane : String := "unknown"
  requeueCount : Nat := 0

structure TicketPollOutcome where
  granted : Bool
  queuePosition : Nat
  deriving DecidableEq

variable (limits : Limits)

def trimGrants (grants : List ℚ) (now : ℚ) : List ℚ :=
  grants.filter fun g => now - limits.windowSeconds ≤ g

/-- No heartbeat for longer than the lease. -/
def orphan (ticket : Ticket) (now : ℚ) : Bool :=
  limits.leaseSeconds < now - ticket.lastHeartbeatAt

/-- The caller's own ticket is left alone. -/
def cleanOrphanPending (pending : List Ticket) (myTicketId : Nat) (now : ℚ) : List Ticket :=
  pending.filter fun ticket => ticket.ticketId = myTicketId ∨ ¬ orphan limits ticket now

def beat (now : ℚ) (ticket : Ticket) : Ticket :=
  { ticket with lastHeartbeatAt := now, leaseExpiresAt := now + limits.leaseSeconds }

def newTicket (call : PollCall) (now : ℚ) : Ticket where
  ticketId := call.ticketId
  lane := call.lane
  enqueuedAt := now
  lastHeartbeatAt := now
  leaseExpiresAt := now + limits.leaseSeconds
  requeueCount := call.requeueCount

/-- The queue with the caller's ticket in it, and the ticket's place. -/
def register (pending : List Ticket) (call : PollCall) (now : ℚ) : List Ticket × Nat :=
  match pending.findIdx? (·.ticketId = call.ticketId) with
  | none => (pending ++ [newTicket limits call now], pending.length)
  | some i => (pending.modify i (beat limits now), i)

def pollTicket (call : PollCall) (now : ℚ) (file : StateFile) : TicketPollOutcome × StateFile :=
  let grants := trimGrants limits file.grants now
  let pending := cleanOrphanPending limits file.pending call.ticketId now
  match register limits pending call now with
  | (pending, myIndex) =>
    if myIndex = 0 ∧ grants.length < limits.maxCalls then
      (⟨true, 0⟩, { grants := grants ++ [now], pending := pending.tail })
    else (⟨false, myIndex⟩, { grants := grants, pending := pending })

def removeTicket (ticketId : Nat) (file : StateFile) : StateFile :=
  { file with pending := file.pending.filter fun ticket => ticket.ticketId ≠ ticketId }

def StateFile.ids (file : StateFile) : List Nat := file.pending.map (·.ticketId)

/-- What the participants do to the file, in the order in which they hold the lock. -/
inductive QueueEvent where
  | poll (call : PollCall) (now : ℚ)
  | remove (ticketId : Nat)

def queueStep (file : StateFile) : QueueEvent → StateFile
  | .poll call now => (pollTicket limits call now file).2
  | .remove ticketId => removeTicket ticketId file

/-- The tickets a poll leaves in the queue before it registers its own. -/
def cleanedIds (call : PollCall) (now : ℚ) (file : StateFile) : List Nat :=
  (cleanOrphanPending limits file.pending call.ticketId now).map (·.ticketId)

/-- The queue that a poll decides on. -/
def queueSeen (call : PollCall) (now : ℚ) (file : StateFile) : List Nat :=
  if call.ticketId ∈ cleanedIds limits call now file then cleanedIds limits call now file
  else cleanedIds limits call now file ++ [call.ticketId]

theorem modify_beat_ids (pending : List Ticket) (i : Nat) (now : ℚ) :
    (pending.modify i (beat limits now)).map (·.ticketId) = pending.map (·.ticketId) := by
  induction pending generalizing i with
  | nil => simp
  | cons ticket pending ih =>
    cases i with
    | zero => rfl
    | succ i => simp only [List.modify_succ_cons, List.map_cons, ih]

theorem register_ids (pending : List Ticket) (call : PollCall) (now : ℚ) :
    (register limits pending call now).1.map (·.ticketId) =
        (if call.ticketId ∈ pending.map (·.ticketId) then pending.map (·.ticketId)
          else pending.map (·.ticketId) ++ [call.ticketId]) ∧
      ((register limits pending call now).2 = 0 ↔
        ((register limits pending call now).1.map (·.ticketId)).head? = some call.ticketId) := by
  unfold register
  cases hfind : pending.findIdx? (·.ticketId = call.ticketId) with
  | none =>
    have hnew : call.ticketId ∉ pending.map (·.ticketId) := by
      simpa [List.findIdx?_eq_none_iff] using hfind
    simp only [if_neg hnew, List.map_append, List.map_cons, List.map_nil, newTicket, true_and]
    cases pending with
    | nil => simp
    | cons ticket pending =>
      simp only [List.map_cons, List.mem_cons, not_or] at hnew
      simp [Ne.symm hnew.1]
  | some i =>
    obtain ⟨hi, hmine, hbefore⟩ := List.findIdx?_eq_some_iff_getElem.mp hfind
    simp only [decide_eq_true_eq] at hmine hbefore
    have hknown : call.ticketId ∈ pending.map (·.ticketId) :=
      List.mem_map.mpr ⟨pending[i], List.getElem_mem hi, hmine⟩
    simp only [modify_beat_ids, if_pos hknown, true_and]
    cases i with
    | zero =>
      cases pending with
      | nil => simp at hi
      | cons ticket pending => simpa using hmine
    | succ i =>
      cases pending with
      | nil => simp at hi
      | cons ticket pending => simpa using hbefore 0 (Nat.succ_pos i)

/-- A poll grants the first ticket of the queue it decides on and takes it out, or leaves that
queue. -/
theorem poll_ids (call : PollCall) (now : ℚ) (file : StateFile) :
    let polled := pollTicket limits call now file
    let seen := queueSeen limits call now file
    (polled.1.granted = true ∧ seen = call.ticketId :: polled.2.ids) ∨
      (polled.1.granted = false ∧ polled.2.ids = seen) := by
  intro polled seen
  have hids := register_ids limits (cleanOrphanPending limits file.pending call.ticketId now)
    call now
  have hseen : seen = ((register limits (cleanOrphanPending limits file.pending call.ticketId now)
      call now).1).map (·.ticketId) := hids.1.symm
  have hfirst := hids.2
  simp only [polled, pollTicket, StateFile.ids] at *
  rw [hseen]
  generalize register limits _ call now = r at hfirst ⊢
  obtain ⟨pending, myIndex⟩ := r
  by_cases hgrant : myIndex = 0 ∧
      (trimGrants limits file.grants now).length < limits.maxCalls
  · simp only [if_pos hgrant, true_and]
    left
    have hhead := hfirst.mp hgrant.1
    cases pending with
    | nil => simp at hhead
    | cons ticket pending =>
      simp only [List.map_cons, List.head?_cons, Option.some.injEq] at hhead ⊢
      rw [hhead, List.tail_cons]
  · simp only [if_neg hgrant]
    exact Or.inr ⟨trivial, trivial⟩

theorem cleanedIds_sublist (call : PollCall) (now : ℚ) (file : StateFile) :
    (cleanedIds limits call now file).Sublist file.ids :=
  List.filter_sublist.map _

theorem queueSeen_nodup (call : PollCall) (now : ℚ) {file : StateFile} (h : file.ids.Nodup) :
    (queueSeen limits call now file).Nodup := by
  have hkept := h.sublist (cleanedIds_sublist limits call now file)
  unfold queueSeen
  split
  · exact hkept
  · rename_i hnew
    rw [List.nodup_append]
    refine ⟨hkept, List.nodup_singleton _, fun a ha b hb => ?_⟩
    rw [List.mem_singleton.mp hb]
    rintro rfl
    exact hnew ha

/-- The cleaning never takes the caller's own ticket. -/
theorem mem_cleanedIds {call : PollCall} {now : ℚ} {file : StateFile}
    (h : call.ticketId ∈ file.ids) : call.ticketId ∈ cleanedIds limits call now file := by
  obtain ⟨ticket, hticket, hid⟩ := List.mem_map.mp h
  refine List.mem_map.mpr ⟨ticket, List.mem_filter.mpr ⟨hticket, ?_⟩, hid⟩
  simp [hid]

theorem poll_granted {call : PollCall} {now : ℚ} {file : StateFile}
    (h : (pollTicket limits call now file).1.granted = true) :
    queueSeen limits call now file =
      call.ticketId :: (pollTicket limits call now file).2.ids := by
  rcases poll_ids limits call now file with ⟨-, hseen⟩ | ⟨hnot, -⟩
  · exact hseen
  · rw [h] at hnot
    cases hnot

theorem poll_denied {call : PollCall} {now : ℚ} {file : StateFile}
    (h : (pollTicket limits call now file).1.granted ≠ true) :
    (pollTicket limits call now file).2.ids = queueSeen limits call now file := by
  rcases poll_ids limits call now file with ⟨hgranted, -⟩ | ⟨-, hids⟩
  · exact (h hgranted).elim
  · exact hids

/-- What a poll makes of the queue: some of the old tickets, and the caller's at the end if it was
not there. -/
theorem poll_split (call : PollCall) (now : ℚ) (file : StateFile) :
    ∃ kept new, (pollTicket limits call now file).2.ids = kept ++ new ∧
      kept.Sublist file.ids ∧ ∀ id ∈ new, id ∉ file.ids := by
  have hkept := cleanedIds_sublist limits call now file
  by_cases hknown : call.ticketId ∈ cleanedIds limits call now file
  · have hseen : queueSeen limits call now file = cleanedIds limits call now file := if_pos hknown
    by_cases hgrant : (pollTicket limits call now file).1.granted = true
    · have hgranted := poll_granted limits hgrant
      rw [hseen] at hgranted
      rw [hgranted] at hkept
      exact ⟨_, [], (List.append_nil _).symm, (List.sublist_cons_self _ _).trans hkept, nofun⟩
    · exact ⟨_, [], by rw [poll_denied limits hgrant, hseen, List.append_nil], hkept, nofun⟩
  · have hseen : queueSeen limits call now file =
        cleanedIds limits call now file ++ [call.ticketId] := if_neg hknown
    have hnew : call.ticketId ∉ file.ids := fun h => hknown (mem_cleanedIds limits h)
    by_cases hgrant : (pollTicket limits call now file).1.granted = true
    · have hgranted := poll_granted limits hgrant
      rw [hseen] at hgranted
      cases hcleaned : cleanedIds limits call now file with
      | nil =>
        rw [hcleaned, List.nil_append, List.cons.injEq] at hgranted
        exact ⟨[], [], hgranted.2.symm, List.nil_sublist _, nofun⟩
      | cons first others =>
        rw [hcleaned, List.cons_append, List.cons.injEq] at hgranted
        exact (hknown (by rw [hcleaned, hgranted.1]; exact List.mem_cons_self)).elim
    · refine ⟨_, [call.ticketId], by rw [poll_denied limits hgrant, hseen], hkept, fun id hid => ?_⟩
      rw [List.mem_singleton.mp hid]
      exact hnew

theorem removeTicket_ids (ticketId : Nat) (file : StateFile) :
    (removeTicket ticketId file).ids = file.ids.filter (· ≠ ticketId) := by
  simp only [removeTicket, StateFile.ids, List.filter_map]
  rfl

theorem queueStep_nodup (file : StateFile) (e : QueueEvent) (h : file.ids.Nodup) :
    (queueStep limits file e).ids.Nodup := by
  cases e with
  | remove ticketId =>
    rw [queueStep, removeTicket_ids]
    exact h.filter _
  | poll call now =>
    have hseen := queueSeen_nodup limits call now h
    by_cases hgrant : (pollTicket limits call now file).1.granted = true
    · rw [poll_granted limits hgrant] at hseen
      exact hseen.of_cons
    · rw [queueStep, poll_denied limits hgrant]
      exact hseen

theorem queueStep_advances (file : StateFile) (e : QueueEvent) (h : file.ids.Nodup) :
    Advances file.ids (queueStep limits file e).ids := by
  cases e with
  | remove ticketId =>
    rw [queueStep, removeTicket_ids]
    exact advances_filter _ _
  | poll call now =>
    obtain ⟨kept, new, hids, hkept, hnew⟩ := poll_split limits call now file
    rw [queueStep, hids]
    exact .of_sublist h hkept hnew

def Grants (file : StateFile) (ticketId : Nat) : QueueEvent → Prop
  | .poll call now =>
    call.ticketId = ticketId ∧ (pollTicket limits call now file).1.granted = true
  | .remove _ => False

/-- The ways out of the queue: the ticket's own grant, its removal, or the poll of another
participant that finds its lease expired. -/
def Leaves (file : StateFile) (ticket : Ticket) (e : QueueEvent) : Prop :=
  Grants limits file ticket.ticketId e ∨ e = .remove ticket.ticketId ∨
    ∃ call now, e = .poll call now ∧ call.ticketId ≠ ticket.ticketId ∧
      limits.leaseSeconds < now - ticket.lastHeartbeatAt

theorem leaves_of_absent (file : StateFile) (e : QueueEvent) {ticket : Ticket}
    (hticket : ticket ∈ file.pending) (hgone : ticket.ticketId ∉ (queueStep limits file e).ids) :
    Leaves limits file ticket e := by
  cases e with
  | remove ticketId =>
    refine Or.inr (Or.inl ?_)
    rw [queueStep, removeTicket_ids] at hgone
    by_contra hne
    refine hgone (List.mem_filter.mpr ⟨List.mem_map_of_mem hticket, ?_⟩)
    simp only [ne_eq, decide_not, Bool.not_eq_true', decide_eq_false_iff_not]
    rintro rfl
    exact hne rfl
  | poll call now =>
    by_cases hmine : call.ticketId = ticket.ticketId
    · refine Or.inl ⟨hmine, ?_⟩
      by_contra hgrant
      rw [queueStep, poll_denied limits hgrant] at hgone
      refine hgone ?_
      have hknown : call.ticketId ∈ cleanedIds limits call now file :=
        mem_cleanedIds limits (by rw [hmine]; exact List.mem_map_of_mem hticket)
      rw [queueSeen, if_pos hknown, ← hmine]
      exact hknown
    · refine Or.inr (Or.inr ⟨call, now, rfl, hmine, ?_⟩)
      by_contra hlease
      have hkept : ticket.ticketId ∈ cleanedIds limits call now file := by
        refine List.mem_map_of_mem (List.mem_filter.mpr ⟨hticket, ?_⟩)
        simp [orphan, hlease]
      have hseen : ticket.ticketId ∈ queueSeen limits call now file := by
        unfold queueSeen
        split
        · exact hkept
        · exact List.mem_append_left _ hkept
      by_cases hgrant : (pollTicket limits call now file).1.granted = true
      · rw [poll_granted limits hgrant] at hseen
        rcases List.mem_cons.mp hseen with heq | hstays
        · exact hmine heq.symm
        · exact hgone hstays
      · exact hgone (by rw [queueStep, poll_denied limits hgrant]; exact hseen)

/-- A ticket is not granted while one that is ahead of it, or was there before it, stays. -/
theorem not_grants_behind {file : StateFile} {e : QueueEvent} {a b : Nat} (h : file.ids.Nodup)
    (hstays : a ∈ (queueStep limits file e).ids)
    (hbehind : Behind a b file.ids) : ¬ Grants limits file b e := by
  cases e with
  | remove ticketId => exact fun h => h
  | poll call now =>
    rintro ⟨rfl, hgrant⟩
    have hgranted := poll_granted limits hgrant
    have hnodup := queueSeen_nodup limits call now h
    have hkept := cleanedIds_sublist limits call now file
    rw [queueStep] at hstays
    rw [hgranted] at hnodup
    by_cases hknown : call.ticketId ∈ cleanedIds limits call now file
    · rw [queueSeen, if_pos hknown] at hgranted
      rw [hgranted] at hkept
      have hafter : [call.ticketId, a].Sublist file.ids :=
        (List.Sublist.cons_cons _ (List.singleton_sublist.mpr hstays)).trans hkept
      rcases hbehind with hout | hahead
      · exact hout (hafter.subset (by simp))
      · exact ahead_asymm h hahead hafter
    · rw [queueSeen, if_neg hknown] at hgranted
      cases hcleaned : cleanedIds limits call now file with
      | nil =>
        rw [hcleaned, List.nil_append, List.cons.injEq] at hgranted
        rw [← hgranted.2] at hstays
        exact List.not_mem_nil hstays
      | cons first others =>
        rw [hcleaned, List.cons_append, List.cons.injEq] at hgranted
        exact hknown (by rw [hcleaned, hgranted.1]; exact List.mem_cons_self)

theorem meets_not_grants {file : StateFile} {events : List QueueEvent} {a b : Nat}
    (h : file.ids.Nodup) (hstay : Throughout (queueStep limits) (fun t => a ∈ t.ids) file events)
    (hbehind : Throughout (queueStep limits) (fun t => Behind a b t.ids) file events) :
    Meets (queueStep limits) (fun t e => ¬ Grants limits t b e) file events := by
  induction events generalizing file with
  | nil => trivial
  | cons e events ih =>
    refine ⟨not_grants_behind limits h hstay.2.start hbehind.1, ?_⟩
    exact ih (queueStep_nodup limits file e h) hstay.2 hbehind.2

/-- The law of the queue at one point of a history, `s`, and for what comes after it. -/
structure FifoFrom (s : StateFile) (after : List QueueEvent) : Prop where
  distinct : s.ids.Nodup
  /-- A ticket is granted only as the first of the queue that its poll decides on. -/
  first : ∀ call now, (pollTicket limits call now s).1.granted = true →
    (queueSeen limits call now s).head? = some call.ticketId
  leaves : ∀ e, ∀ ticket ∈ s.pending, ticket.ticketId ∉ (queueStep limits s e).ids →
    Leaves limits s ticket e
  /-- Tickets that remain keep their order. -/
  order : ∀ a b, [a, b].Sublist s.ids →
    Throughout (queueStep limits) (fun t => a ∈ t.ids ∧ b ∈ t.ids) s after →
    [a, b].Sublist (run (queueStep limits) s after).ids
  /-- While a ticket remains, none that is behind it or comes later is granted. -/
  notOvertaken : ∀ a b, Behind a b s.ids →
    Throughout (queueStep limits) (fun t => a ∈ t.ids) s after →
    Meets (queueStep limits) (fun t e => ¬ Grants limits t b e) s after

theorem FifoFrom.of_distinct {s : StateFile} (hs : s.ids.Nodup) (after : List QueueEvent) :
    FifoFrom limits s after where
  distinct := hs
  first := by
    intro call now hgrant
    rw [poll_granted limits hgrant]
    rfl
  leaves := fun e ticket hticket hgone => leaves_of_absent limits s e hticket hgone
  order := fun a b hab hstay =>
    run_order (queueStep_nodup limits) (queueStep_advances limits) s after hs hab hstay
  notOvertaken := by
    intro a b hbehind hstay
    apply meets_not_grants limits hs hstay
    exact run_behind (queueStep_nodup limits) (queueStep_advances limits) s after hs hbehind hstay

/-- The law holds at every point of every history of a file whose tickets are distinct. -/
theorem queue_fifo (file : StateFile) (hdistinct : file.ids.Nodup)
    (before after : List QueueEvent) :
    FifoFrom limits (run (queueStep limits) file before) after := by
  apply FifoFrom.of_distinct
  exact run_keeps (queueStep limits) (C := fun _ _ => True)
    (fun t e h _ => queueStep_nodup limits t e h) file before hdistinct (meets_true _ _ _)

/-- One call a minute. -/
def onePerMinute : Limits where
  maxCalls := 1

/-- The second ticket waits, the third behind it; the second expires and comes back last. -/
theorem queue_fifo_comeback :
    let before : List QueueEvent := [.poll ⟨1, "real", 0⟩ 0, .poll ⟨2, "real", 0⟩ 1,
      .poll ⟨3, "real", 0⟩ 20, .poll ⟨3, "real", 0⟩ 40, .poll ⟨2, "real", 0⟩ 41]
    (run (queueStep onePerMinute) {} before).ids = [3, 2] ∧
      FifoFrom onePerMinute (run (queueStep onePerMinute) {} before)
        [.poll ⟨2, "real", 0⟩ 61, .poll ⟨3, "real", 0⟩ 62] :=
  ⟨by decide +kernel, queue_fifo onePerMinute {} List.nodup_nil _ _⟩

end AgentTrading.Fdc.TicketQueue

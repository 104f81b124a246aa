import AgentTrading.Fdc.TicketQueue

/-! One call of `wait_for_fdc_slot` as it runs. Its polls and removals are jobs of worker threads; a
cancelled await leaves its job running, unless no thread has started it yet. -/
namespace AgentTrading.Fdc.TicketQueue
open Library Library.Runs

/-- The arguments of the call that its course depends on, and the tickets it draws. -/
structure WaitArgs where
  lane : String := "unknown"
  allowRequeue : Bool := true
  first : Nat
  second : Nat

def maxRequeueCount : Nat := 1

def WaitArgs.ticket (args : WaitArgs) (requeueCount : Nat) : Nat :=
  if requeueCount = 0 then args.first else args.second

inductive Task where
  | poll (call : PollCall)
  | remove (ticketId : Nat)

def Task.ticketId : Task → Nat
  | .poll call => call.ticketId
  | .remove ticketId => ticketId

def Task.isPoll : Task → Bool
  | .poll _ => true
  | .remove _ => false

structure Job where
  id : Nat
  task : Task

inductive Reply where
  | polled (granted : Bool)
  | removed
  | failed
  deriving DecidableEq

/-- How the call ends; all but the last are results it returns. -/
inductive Ending where
  | granted
  | stateFileError
  | queueTimeout
  | cancelled
  deriving DecidableEq

/-- What the call waits for: the answer to a poll, the next poll, the removal of a ticket whose
wait is over, or the removal in `finally`. -/
inductive Phase where
  | polling
  | sleeping
  | removing
  | leaving (ending : Ending)
  | ended (ending : Ending)
  deriving DecidableEq

/-- `reply` is the answer of the awaited job, `jobs` are those no thread has finished, and `grants`
counts the grants that polls of the call have recorded. -/
structure WaitWorld where
  file : StateFile
  phase : Phase := .sleeping
  requeueCount : Nat := 0
  awaiting : Nat := 0
  reply : Option Reply := none
  jobs : List Job := []
  nextJob : Nat := 0
  grants : Nat := 0

inductive WaitEvent where
  | work (job : Nat) (fails : Bool) (now : ℚ)
  | resume (exhausted : Bool)
  | cancel (started : Bool)
  | others (event : QueueEvent)

def QueueEvent.ticketId : QueueEvent → Nat
  | .poll call _ => call.ticketId
  | .remove ticketId => ticketId

variable (limits : Limits) (args : WaitArgs)

namespace WaitWorld

def ticket (w : WaitWorld) : Nat := args.ticket w.requeueCount

/-- `await asyncio.to_thread(..)` up to the suspension. -/
def submit (task : Task) (phase : Phase) (w : WaitWorld) : WaitWorld :=
  { w with
    phase := phase
    awaiting := w.nextJob
    reply := none
    jobs := ⟨w.nextJob, task⟩ :: w.jobs
    nextJob := w.nextJob + 1 }

def startPoll (w : WaitWorld) : WaitWorld :=
  w.submit (.poll ⟨w.ticket args, args.lane, w.requeueCount⟩) .polling

/-- The `finally` block. -/
def leave (ending : Ending) (w : WaitWorld) : WaitWorld :=
  w.submit (.remove (w.ticket args)) (.leaving ending)

def requeueLeft (w : WaitWorld) : Prop :=
  args.allowRequeue = true ∧ w.requeueCount < maxRequeueCount

instance (w : WaitWorld) : Decidable (w.requeueLeft args) := inferInstanceAs (Decidable (_ ∧ _))

end WaitWorld

/-- A job under the file lock. A failing poll raises, a failing removal is logged. -/
def runTask (fails : Bool) (now : ℚ) (task : Task) (file : StateFile) : Reply × StateFile :=
  if fails then (.failed, file)
  else
    match task with
    | .poll call =>
      (.polled (pollTicket limits call now file).1.granted, (pollTicket limits call now file).2)
    | .remove ticketId => (.removed, removeTicket ticketId file)

def finish (job : Job) (fails : Bool) (now : ℚ) (w : WaitWorld) : WaitWorld :=
  let ran := runTask limits fails now job.task w.file
  { w with
    file := ran.2
    reply := if job.id = w.awaiting then some ran.1 else w.reply
    jobs := w.jobs.filter (·.id ≠ job.id)
    grants := if ran.1 = .polled true then w.grants + 1 else w.grants }

/-- The call goes on with the answer it has; `exhausted` says that the wait of this ticket has
lasted long enough. -/
def resume (exhausted : Bool) (w : WaitWorld) : WaitWorld :=
  match w.phase, w.reply with
  | .polling, some (.polled true) => w.leave args .granted
  | .polling, some (.polled false) =>
    if exhausted then w.submit (.remove (w.ticket args)) .removing
    else { w with phase := .sleeping }
  | .polling, some _ => w.leave args .stateFileError
  | .sleeping, _ => w.startPoll args
  | .removing, some _ =>
    if w.requeueLeft args then
      WaitWorld.startPoll args { w with requeueCount := w.requeueCount + 1 }
    else w.leave args .queueTimeout
  | .leaving ending, some _ => { w with phase := .ended ending }
  | _, _ => w

/-- A cancellation at the await: a job that no thread has started is not run. -/
def cancel (started : Bool) (w : WaitWorld) : WaitWorld :=
  let w := if started then w else { w with jobs := w.jobs.filter (·.id ≠ w.awaiting) }
  match w.phase with
  | .leaving _ => { w with phase := .ended .cancelled }
  | .ended _ => w
  | _ => w.leave args .cancelled

/-- Other participants have tickets of their own. -/
def waitStep (w : WaitWorld) : WaitEvent → WaitWorld
  | .work id fails now =>
    match w.jobs.find? (·.id = id) with
    | some job => finish limits job fails now w
    | none => w
  | .resume exhausted => resume args exhausted w
  | .cancel started => cancel args started w
  | .others event =>
    if event.ticketId = args.first ∨ event.ticketId = args.second then w
    else { w with file := queueStep limits w.file event }

/-- The call up to its first await. -/
def waiting (file : StateFile) : WaitWorld := WaitWorld.startPoll args { file := file }

/-- Once the call has ended and its polls are finished, no ticket of it is pending and no grant
has been recorded unless the call returned it. -/
def Settled (w : WaitWorld) : Prop :=
  ∀ ending, w.phase = .ended ending → (∀ job ∈ w.jobs, job.task.isPoll = false) →
    (∀ n ≤ w.requeueCount, args.ticket n ∉ w.file.ids) ∧ (0 < w.grants → ending = .granted)

/-- The poll would find its ticket first and room in the window. -/
def Grantable (call : PollCall) (now : ℚ) (file : StateFile) : Prop :=
  (queueSeen limits call now file).head? = some call.ticketId ∧
    (trimGrants limits file.grants now).length < limits.maxCalls

/-- What a job that runs may not do: a poll that is no longer waited for fails, or registers before
the removal in `finally` and is not granted; a removal succeeds, or has nothing to remove, or
another of the same ticket follows. -/
def HarmlessJob (w : WaitWorld) (job : Job) (fails : Bool) (now : ℚ) : Prop :=
  match job.task with
  | .poll call => w.phase = .polling ∨ fails = true ∨
      (¬ Grantable limits call now w.file ∧ (∃ ending, w.phase = .leaving ending) ∧ w.reply = none)
  | .remove ticketId => fails = false ∨ ticketId ∉ w.file.ids ∨ job.id ≠ w.awaiting ∨
      (w.phase = .removing ∧ ¬ w.requeueLeft args)

/-- When a cancellation may arrive: not once the poll has been granted, and not in `finally` while
the ticket is pending. -/
def HarmlessCancel (w : WaitWorld) : Prop :=
  match w.phase with
  | .polling => w.reply ≠ some (.polled true)
  | .leaving ending => ending ≠ .granted ∧ w.ticket args ∉ w.file.ids
  | _ => True

def Harmless (w : WaitWorld) : WaitEvent → Prop
  | .work id fails now => ∀ job, w.jobs.find? (·.id = id) = some job →
      HarmlessJob limits args w job fails now
  | .cancel _ => HarmlessCancel args w
  | _ => True

instance (call : PollCall) (now : ℚ) (file : StateFile) :
    Decidable (Grantable limits call now file) := inferInstanceAs (Decidable (_ ∧ _))

instance (phase : Phase) : Decidable (∃ ending, phase = .leaving ending) :=
  match phase with
  | .leaving ending => .isTrue ⟨ending, rfl⟩
  | .polling | .sleeping | .removing | .ended _ => .isFalse fun h => nomatch h

instance (w : WaitWorld) (job : Job) (fails : Bool) (now : ℚ) :
    Decidable (HarmlessJob limits args w job fails now) :=
  match job with
  | ⟨_, .poll _⟩ => inferInstanceAs (Decidable (_ ∨ _ ∨ _ ∧ _ ∧ _))
  | ⟨_, .remove _⟩ => inferInstanceAs (Decidable (_ ∨ _ ∨ _ ∨ _ ∧ _))

instance (w : WaitWorld) : Decidable (HarmlessCancel args w) :=
  match h : w.phase with
  | .polling => decidable_of_iff (w.reply ≠ some (.polled true)) (by simp [HarmlessCancel, h])
  | .leaving ending => decidable_of_iff (ending ≠ .granted ∧ w.ticket args ∉ w.file.ids)
      (by simp [HarmlessCancel, h])
  | .sleeping | .removing | .ended _ => .isTrue (by simp [HarmlessCancel, h])

instance (w : WaitWorld) (event : WaitEvent) : Decidable (Harmless limits args w event) :=
  match event with
  | .work id fails now =>
    match h : w.jobs.find? (·.id = id) with
    | some job => decidable_of_iff (HarmlessJob limits args w job fails now)
        (by simp [Harmless, h])
    | none => .isTrue (by simp [Harmless, h])
  | .cancel _ => inferInstanceAs (Decidable (HarmlessCancel args w))
  | .resume _ | .others _ => .isTrue trivial

theorem poll_adds (call : PollCall) (now : ℚ) (file : StateFile) {id : Nat}
    (h : id ∈ (pollTicket limits call now file).2.ids) : id ∈ file.ids ∨ id = call.ticketId := by
  have hseen : id ∈ queueSeen limits call now file := by
    by_cases hgrant : (pollTicket limits call now file).1.granted = true
    · rw [poll_granted limits hgrant]
      exact List.mem_cons_of_mem _ h
    · rw [← poll_denied limits hgrant]
      exact h
  have hkept := cleanedIds_sublist limits call now file
  unfold queueSeen at hseen
  split at hseen
  · exact Or.inl (hkept.subset hseen)
  · rcases List.mem_append.mp hseen with hold | hown
    · exact Or.inl (hkept.subset hold)
    · exact Or.inr (List.mem_singleton.mp hown)

theorem granted_iff (call : PollCall) (now : ℚ) (file : StateFile) :
    (pollTicket limits call now file).1.granted = true ↔ Grantable limits call now file := by
  have hids := register_ids limits (cleanOrphanPending limits file.pending call.ticketId now)
    call now
  have hseen : queueSeen limits call now file = ((register limits (cleanOrphanPending limits
      file.pending call.ticketId now) call now).1).map (·.ticketId) := hids.1.symm
  unfold Grantable
  rw [hseen, ← hids.2]
  simp only [pollTicket]
  generalize register limits _ call now = r
  obtain ⟨pending, myIndex⟩ := r
  by_cases hgrant : myIndex = 0 ∧ (trimGrants limits file.grants now).length < limits.maxCalls
  · simp [hgrant]
  · simp [hgrant]

theorem runTask_adds (fails : Bool) (now : ℚ) (task : Task) (file : StateFile) {id : Nat}
    (h : id ∈ (runTask limits fails now task file).2.ids) :
    id ∈ file.ids ∨ (id = task.ticketId ∧ task.isPoll = true ∧ fails = false) := by
  cases fails with
  | true => exact Or.inl h
  | false =>
    cases task with
    | poll call =>
      rcases poll_adds limits call now file h with hold | hown
      · exact Or.inl hold
      · exact Or.inr ⟨hown, rfl, rfl⟩
    | remove ticketId =>
      rw [runTask, if_neg (by simp), removeTicket_ids] at h
      exact Or.inl (List.mem_filter.mp h).1

theorem runTask_removes (now : ℚ) (task : Task) (file : StateFile) (h : task.isPoll = false) :
    task.ticketId ∉ (runTask limits false now task file).2.ids := by
  cases task with
  | poll call => cases h
  | remove ticketId =>
    rw [runTask, if_neg (by simp), removeTicket_ids, Task.ticketId]
    simp

theorem runTask_grants (fails : Bool) (now : ℚ) (task : Task) (file : StateFile) :
    (runTask limits fails now task file).1 = .polled true ↔
      fails = false ∧ ∃ call, task = .poll call ∧ Grantable limits call now file := by
  cases fails with
  | true => simp [runTask]
  | false =>
    cases task with
    | poll call => simp [runTask, granted_iff]
    | remove ticketId => simp [runTask]

/-- The removals to come take a pending ticket of the call out. -/
def WillRemove (w : WaitWorld) : Prop :=
  match w.phase with
  | .polling | .sleeping => True
  | .removing => w.reply = none ∨ ¬ w.requeueLeft args
  | .leaving _ => w.reply = none
  | .ended _ => False

/-- What an unfinished job may be. An abandoned poll runs on in `finally` only. -/
def Fits (w : WaitWorld) (job : Job) : Prop :=
  match w.phase with
  | .polling => job.id = w.awaiting ∧ job.task.isPoll = true
  | .sleeping => False
  | .removing => job.id = w.awaiting ∧ job.task.isPoll = false
  | .leaving _ => job.id = w.awaiting → job.task.isPoll = false
  | .ended _ => True

structure Tidy (w : WaitWorld) : Prop where
  count : w.requeueCount ≤ maxRequeueCount
  others : ∀ n, n ≠ w.requeueCount → n ≤ maxRequeueCount → args.ticket n ∉ w.file.ids
  current : w.ticket args ∈ w.file.ids → WillRemove args w
  jobs : ∀ job ∈ w.jobs, job.id < w.nextJob ∧ job.task.ticketId = w.ticket args ∧ Fits w job
  replied : w.reply ≠ none → ∀ job ∈ w.jobs, job.id ≠ w.awaiting
  granted : 0 < w.grants → (w.phase = .polling ∧ w.reply = some (.polled true)) ∨
    w.phase = .leaving .granted ∨ w.phase = .ended .granted

theorem ticket_ne (hne : args.first ≠ args.second) {m n : Nat} (h : m ≠ n)
    (hm : m ≤ maxRequeueCount) (hn : n ≤ maxRequeueCount) : args.ticket m ≠ args.ticket n := by
  unfold maxRequeueCount at hm hn
  unfold WaitArgs.ticket
  have hcases : (m = 0 ∧ n = 1) ∨ (m = 1 ∧ n = 0) := by omega
  rcases hcases with ⟨rfl, rfl⟩ | ⟨rfl, rfl⟩
  · simpa using hne
  · simpa using hne.symm

section steps

variable {args} {w : WaitWorld}

theorem Tidy.settled (h : Tidy args w) : Settled args w := by
  intro ending hended hpolls
  constructor
  · intro n hn hpending
    by_cases hcurrent : n = w.requeueCount
    · rw [hcurrent] at hpending
      have hremove := h.current hpending
      simp only [WillRemove, hended] at hremove
    · exact h.others n hcurrent (hn.trans h.count) hpending
  · intro hgrants
    rcases h.granted hgrants with ⟨hphase, -⟩ | hphase | hphase <;>
      simp_all

theorem Tidy.submit (h : Tidy args w) (task : Task) (phase : Phase)
    (htask : task.ticketId = w.ticket args)
    (hremove : WillRemove args (w.submit task phase))
    (hnew : Fits (w.submit task phase) ⟨w.nextJob, task⟩)
    (hold : ∀ job ∈ w.jobs, Fits (w.submit task phase) job)
    (hgranted : 0 < w.grants → phase = .leaving .granted) :
    Tidy args (w.submit task phase) where
  count := h.count
  others := h.others
  current := fun _ => hremove
  jobs := by
    intro job hjob
    rcases List.mem_cons.mp hjob with rfl | hjob
    · exact ⟨Nat.lt_succ_self _, htask, hnew⟩
    · have hfits := h.jobs job hjob
      exact ⟨Nat.lt_succ_of_lt hfits.1, hfits.2.1, hold job hjob⟩
  replied := fun hreply => (hreply rfl).elim
  granted := fun hgrants => Or.inr (Or.inl (hgranted hgrants))

theorem Tidy.leave (h : Tidy args w) (ending : Ending)
    (hgranted : 0 < w.grants → ending = .granted) : Tidy args (w.leave args ending) := by
  apply h.submit
  · rfl
  · rfl
  · exact fun _ => rfl
  · intro job hjob hid
    have hbefore := (h.jobs job hjob).1
    simp only [WaitWorld.submit] at hid
    omega
  · intro hgrants
    rw [hgranted hgrants]

theorem Tidy.noJob (h : Tidy args w) (hphase : w.phase = .polling ∨ w.phase = .removing)
    (hreply : w.reply ≠ none) : ∀ job ∈ w.jobs, False := by
  intro job hjob
  have hawaited : job.id = w.awaiting := by
    have hfits := (h.jobs job hjob).2.2
    rcases hphase with hphase | hphase <;> simp only [Fits, hphase] at hfits <;> exact hfits.1
  exact h.replied hreply job hjob hawaited

theorem Tidy.startPoll (h : Tidy args w) (hphase : w.phase = .sleeping) :
    Tidy args (w.startPoll args) := by
  apply h.submit
  · rfl
  · trivial
  · exact ⟨rfl, rfl⟩
  · intro job hjob
    have hfits := (h.jobs job hjob).2.2
    simp only [Fits, hphase] at hfits
  · intro hgrants
    have hgranted := h.granted hgrants
    simp [hphase] at hgranted

theorem Tidy.requeue (h : Tidy args w) (hphase : w.phase = .removing) (hreply : w.reply ≠ none)
    (hleft : w.requeueLeft args) :
    Tidy args { w with requeueCount := w.requeueCount + 1, phase := .sleeping } where
  count := hleft.2
  others := by
    intro n hother hn hpending
    have hcurrent : n = w.requeueCount := by
      have hcount := hleft.2
      simp only [maxRequeueCount] at hn hcount
      simp only at hother
      omega
    rw [hcurrent] at hpending
    have hremove := h.current hpending
    simp only [WillRemove, hphase] at hremove
    exact hremove.elim hreply (fun hnone => hnone hleft)
  current := fun _ => trivial
  jobs := fun job hjob => (h.noJob (Or.inr hphase) hreply job hjob).elim
  replied := h.replied
  granted := by
    intro hgrants
    have hgranted := h.granted hgrants
    simp [hphase] at hgranted

theorem Tidy.sleep (h : Tidy args w) (hphase : w.phase = .polling)
    (hreply : w.reply = some (.polled false)) : Tidy args { w with phase := .sleeping } where
  count := h.count
  others := h.others
  current := fun _ => trivial
  jobs := fun job hjob => (h.noJob (Or.inl hphase) (by simp [hreply]) job hjob).elim
  replied := h.replied
  granted := by
    intro hgrants
    have hgranted := h.granted hgrants
    simp [hphase, hreply] at hgranted

theorem Tidy.over (h : Tidy args w) {ending : Ending} (hphase : w.phase = .leaving ending)
    (hgone : w.ticket args ∉ w.file.ids) (last : Ending)
    (hlast : ending = .granted → last = .granted) : Tidy args { w with phase := .ended last } where
  count := h.count
  others := h.others
  current := fun hpending => (hgone hpending).elim
  jobs := by
    intro job hjob
    have hfits := h.jobs job hjob
    exact ⟨hfits.1, hfits.2.1, trivial⟩
  replied := h.replied
  granted := by
    intro hgrants
    have hgranted := h.granted hgrants
    simp only [hphase, Phase.leaving.injEq, reduceCtorEq, false_and, or_false, false_or]
      at hgranted
    exact Or.inr (Or.inr (by rw [hlast hgranted]))

theorem Tidy.resume (h : Tidy args w) (exhausted : Bool) : Tidy args (resume args exhausted w) := by
  have hungranted : ∀ {reply : Reply}, w.reply = some reply → reply ≠ .polled true →
      w.phase = .polling ∨ w.phase = .removing → ¬ 0 < w.grants := by
    intro reply hreply hne hphase hgrants
    have hgranted := h.granted hgrants
    rcases hphase with hphase | hphase <;> simp [hphase, hreply, hne] at hgranted
  unfold TicketQueue.resume
  split
  · exact h.leave .granted fun _ => rfl
  · rename_i hphase hreply
    have hnone := hungranted hreply (by simp) (Or.inl hphase)
    split
    · apply h.submit
      · rfl
      · exact Or.inl rfl
      · exact ⟨rfl, rfl⟩
      · exact fun job hjob => (h.noJob (Or.inl hphase) (by simp [hreply]) job hjob).elim
      · exact fun hgrants => (hnone hgrants).elim
    · exact h.sleep hphase hreply
  · rename_i reply hgrant _ hphase hreply
    have hnone := hungranted hreply (fun heq => hgrant heq) (Or.inl hphase)
    exact h.leave _ fun hgrants => (hnone hgrants).elim
  · rename_i hphase
    exact h.startPoll hphase
  · rename_i reply hphase hreply
    have hsome : w.reply ≠ none := by simp [hreply]
    split
    · rename_i hleft
      exact (h.requeue hphase hsome hleft).startPoll rfl
    · apply h.leave
      intro hgrants
      have hgranted := h.granted hgrants
      simp [hphase] at hgranted
  · rename_i ending reply hphase hreply
    have hgone : w.ticket args ∉ w.file.ids := by
      intro hpending
      have hremove := h.current hpending
      simp [WillRemove, hphase, hreply] at hremove
    exact h.over hphase hgone ending id
  · exact h

theorem Tidy.drop (h : Tidy args w) (keep : Job → Bool) :
    Tidy args { w with jobs := w.jobs.filter keep } where
  count := h.count
  others := h.others
  current := h.current
  jobs := fun job hjob => h.jobs job (List.mem_filter.mp hjob).1
  replied := fun hreply job hjob => h.replied hreply job (List.mem_filter.mp hjob).1
  granted := h.granted

theorem Tidy.cancel (h : Tidy args w) (started : Bool) (hharmless : HarmlessCancel args w) :
    Tidy args (cancel args started w) := by
  have hdropped : Tidy args
      (if started then w else { w with jobs := w.jobs.filter (·.id ≠ w.awaiting) }) := by
    split
    · exact h
    · exact h.drop _
  have hsame : HarmlessCancel args
      (if started then w else { w with jobs := w.jobs.filter (·.id ≠ w.awaiting) }) := by
    split
    · exact hharmless
    · exact hharmless
  unfold TicketQueue.cancel
  generalize (if started then w else { w with jobs := w.jobs.filter (·.id ≠ w.awaiting) }) = w'
    at hdropped hsame
  simp only
  split
  · rename_i ending hphase
    simp only [HarmlessCancel, hphase] at hsame
    exact hdropped.over hphase hsame.2 .cancelled fun hgranted => (hsame.1 hgranted).elim
  · exact hdropped
  · rename_i hleaving hended
    apply hdropped.leave
    intro hgrants
    rcases hdropped.granted hgrants with ⟨hphase, hreply⟩ | hphase | hphase
    · simp only [HarmlessCancel, hphase] at hsame
      exact (hsame hreply).elim
    · exact (hleaving _ hphase).elim
    · exact (hended _ hphase).elim

theorem Tidy.others_move (h : Tidy args w) (file : StateFile)
    (hfile : ∀ n ≤ maxRequeueCount, args.ticket n ∈ file.ids → args.ticket n ∈ w.file.ids) :
    Tidy args { w with file := file } where
  count := h.count
  others := fun n hother hn hpending => h.others n hother hn (hfile n hn hpending)
  current := fun hpending => h.current (hfile _ h.count hpending)
  jobs := h.jobs
  replied := h.replied
  granted := h.granted

theorem HarmlessJob.poll {job : Job} {fails : Bool} {now : ℚ}
    (h : HarmlessJob limits args w job fails now) (hpoll : job.task.isPoll = true)
    (hruns : fails = false) : w.phase = .polling ∨
      ((runTask limits fails now job.task w.file).1 ≠ .polled true ∧
        (∃ ending, w.phase = .leaving ending) ∧ w.reply = none) := by
  rw [Ne, runTask_grants]
  cases htask : job.task with
  | remove ticketId => simp [htask, Task.isPoll] at hpoll
  | poll call =>
    simp only [HarmlessJob, htask] at h
    rcases h with hpolling | hfails | ⟨hgrant, hleaving, hreply⟩
    · exact Or.inl hpolling
    · simp [hruns] at hfails
    · apply Or.inr
      constructor
      · simpa [hruns] using hgrant
      · exact ⟨hleaving, hreply⟩

theorem HarmlessJob.remove {job : Job} {fails : Bool} {now : ℚ}
    (h : HarmlessJob limits args w job fails now) (hremove : job.task.isPoll = false)
    (hawaited : job.id = w.awaiting)
    (hstays : job.task.ticketId ∈ (runTask limits fails now job.task w.file).2.ids) :
    w.phase = .removing ∧ ¬ w.requeueLeft args := by
  cases fails with
  | false => exact (runTask_removes limits now job.task w.file hremove hstays).elim
  | true =>
    cases htask : job.task with
    | poll call => simp [htask, Task.isPoll] at hremove
    | remove ticketId =>
      simp only [HarmlessJob, htask, hawaited, reduceCtorEq, ne_eq, not_true_eq_false,
        false_or] at h
      simp only [htask, runTask, if_true, Task.ticketId] at hstays
      exact h.resolve_left fun hgone => hgone hstays

theorem Tidy.finish_current (h : Tidy args w) {job : Job} (fails : Bool) (now : ℚ)
    (hjob : job ∈ w.jobs) (hharmless : HarmlessJob limits args w job fails now)
    (hpending : w.ticket args ∈ (runTask limits fails now job.task w.file).2.ids) :
    WillRemove args (finish limits job fails now w) := by
  have hmine := (h.jobs job hjob).2.1
  have hfits := (h.jobs job hjob).2.2
  have hstays : job.task.ticketId ∈ (runTask limits fails now job.task w.file).2.ids := by
    rw [hmine]
    exact hpending
  have hadds := runTask_adds limits fails now job.task w.file hpending
  cases hphase : w.phase with
  | polling => simp only [WillRemove, finish, hphase]
  | sleeping => simp only [WillRemove, finish, hphase]
  | removing =>
    simp only [Fits, hphase] at hfits
    have hlast := hharmless.remove limits hfits.2 hfits.1 hstays
    simp only [WillRemove, finish, hphase]
    exact Or.inr hlast.2
  | leaving ending =>
    simp only [Fits, hphase] at hfits
    have hother : job.id ≠ w.awaiting := by
      intro hid
      have hlast := hharmless.remove limits (hfits hid) hid hstays
      simp [hphase] at hlast
    simp only [WillRemove, finish, hphase, if_neg hother]
    rcases hadds with hold | ⟨-, hpoll, hruns⟩
    · have hremove := h.current hold
      simpa only [WillRemove, hphase] using hremove
    · rcases hharmless.poll limits hpoll hruns with hpolling | ⟨-, -, hreply⟩
      · simp [hphase] at hpolling
      · exact hreply
  | ended ending =>
    simp only [WillRemove, finish, hphase]
    rcases hadds with hold | ⟨-, hpoll, hruns⟩
    · have hremove := h.current hold
      simp only [WillRemove, hphase] at hremove
    · rcases hharmless.poll limits hpoll hruns with hpolling | ⟨-, ⟨_, hleaving⟩, -⟩
      · simp [hphase] at hpolling
      · simp [hphase] at hleaving

theorem Tidy.finish_granted (h : Tidy args w) {job : Job} (fails : Bool) (now : ℚ)
    (hjob : job ∈ w.jobs) (hharmless : HarmlessJob limits args w job fails now)
    (hgrants : 0 < (finish limits job fails now w).grants) :
    (w.phase = .polling ∧ (finish limits job fails now w).reply = some (.polled true)) ∨
      w.phase = .leaving .granted ∨ w.phase = .ended .granted := by
  have hfits := (h.jobs job hjob).2.2
  by_cases hgrant : (runTask limits fails now job.task w.file).1 = .polled true
  · obtain ⟨hruns, call, htask, -⟩ := (runTask_grants limits fails now job.task w.file).mp hgrant
    have hpoll : job.task.isPoll = true := by rw [htask]; rfl
    rcases hharmless.poll limits hpoll hruns with hphase | ⟨hnot, -, -⟩
    · simp only [Fits, hphase] at hfits
      exact Or.inl ⟨hphase, by simp only [finish, if_pos hfits.1, hgrant]⟩
    · exact (hnot hgrant).elim
  · simp only [finish, if_neg hgrant] at hgrants
    rcases h.granted hgrants with ⟨hphase, hreply⟩ | hreturned
    · simp only [Fits, hphase] at hfits
      exact (h.replied (by simp [hreply]) job hjob hfits.1).elim
    · exact Or.inr hreturned

theorem Tidy.finish (h : Tidy args w) (hne : args.first ≠ args.second) {job : Job} (fails : Bool)
    (now : ℚ) (hjob : job ∈ w.jobs) (hharmless : HarmlessJob limits args w job fails now) :
    Tidy args (finish limits job fails now w) where
  count := h.count
  others := by
    intro n hother hn hpending
    rcases runTask_adds limits fails now job.task w.file hpending with hold | ⟨hown, -, -⟩
    · exact h.others n hother hn hold
    · rw [(h.jobs job hjob).2.1] at hown
      exact ticket_ne args hne hother hn h.count hown
  current := h.finish_current limits fails now hjob hharmless
  jobs := fun other hother => h.jobs other (List.mem_filter.mp hother).1
  replied := by
    intro hreply other hother hid
    obtain ⟨hleft, hnot⟩ := List.mem_filter.mp hother
    simp only [TicketQueue.finish] at hreply hid
    by_cases hawaited : job.id = w.awaiting
    · simp [hid, hawaited] at hnot
    · rw [if_neg hawaited] at hreply
      exact h.replied hreply other hleft hid
  granted := h.finish_granted limits fails now hjob hharmless

theorem queueStep_adds (file : StateFile) (event : QueueEvent) {id : Nat}
    (h : id ∈ (queueStep limits file event).ids) : id ∈ file.ids ∨ id = event.ticketId := by
  cases event with
  | poll call now => exact poll_adds limits call now file h
  | remove ticketId =>
    rw [queueStep, removeTicket_ids] at h
    exact Or.inl (List.mem_filter.mp h).1

theorem Tidy.step (h : Tidy args w) (hne : args.first ≠ args.second) (event : WaitEvent)
    (hharmless : Harmless limits args w event) : Tidy args (waitStep limits args w event) := by
  cases event with
  | work id fails now =>
    simp only [waitStep]
    split
    · rename_i job hfind
      exact h.finish limits hne fails now (List.mem_of_find?_eq_some hfind) (hharmless job hfind)
    · exact h
  | resume exhausted => exact h.resume exhausted
  | cancel started => exact h.cancel started hharmless
  | others event =>
    simp only [waitStep]
    split
    · exact h
    · rename_i hown
      apply h.others_move
      intro n hn hpending
      rcases queueStep_adds limits w.file event hpending with hold | hadded
      · exact hold
      · apply (hown _).elim
        rw [← hadded]
        unfold WaitArgs.ticket
        split
        · exact Or.inl rfl
        · exact Or.inr rfl

end steps

theorem waiting_tidy (file : StateFile) (hfirst : args.first ∉ file.ids)
    (hsecond : args.second ∉ file.ids) : Tidy args (waiting args file) := by
  have hfresh : ∀ n, args.ticket n ∉ file.ids := by
    intro n
    unfold WaitArgs.ticket
    split
    · exact hfirst
    · exact hsecond
  have hidle : Tidy args { file := file } :=
    { count := by simp [maxRequeueCount]
      others := fun n _ _ => hfresh n
      current := fun hpending => (hfresh _ hpending).elim
      jobs := by simp
      replied := by simp
      granted := by simp }
  exact hidle.startPoll rfl

/-- A harmless history leaves nothing behind. -/
theorem wait_leaves_nothing (file : StateFile) (events : List WaitEvent)
    (htickets : args.first ≠ args.second) (hfirst : args.first ∉ file.ids)
    (hsecond : args.second ∉ file.ids)
    (hharmless : Meets (waitStep limits args) (Harmless limits args) (waiting args file) events) :
    Settled args (run (waitStep limits args) (waiting args file) events) := by
  have htidy : Tidy args (run (waitStep limits args) (waiting args file) events) :=
    run_keeps _ (fun w e h hc => h.step limits htickets e hc) _ _
      (waiting_tidy args file hfirst hsecond) hharmless
  exact htidy.settled

def twoTickets : WaitArgs where
  first := 1
  second := 2

/-- In a full window with another participant the first poll is denied, the second is cancelled
while it is under way and runs on before the removal in `finally`. -/
def abandonedPoll : List WaitEvent :=
  [.others (.poll ⟨7, "ai_slow_bulk", 0⟩ 1), .work 0 false 1, .resume false, .resume false,
    .cancel true, .work 1 false 2, .work 2 false 3, .resume false]

theorem wait_leaves_nothing_abandonedPoll :
    Settled twoTickets (run (waitStep onePerMinute twoTickets)
      (waiting twoTickets { grants := [0] }) abandonedPoll) := by
  apply wait_leaves_nothing onePerMinute twoTickets { grants := [0] }
  · decide
  · simp [StateFile.ids]
  · simp [StateFile.ids]
  · decide +kernel

/-- The call is cancelled while its first poll is under way, and the poll runs after the call has
ended: in a full window it leaves its ticket behind, in an empty one a grant. -/
theorem cancelled_poll_runs_on :
    let events : List WaitEvent :=
      [.cancel true, .work 1 false 1, .resume false, .work 0 false 1]
    ¬ Settled twoTickets (run (waitStep onePerMinute twoTickets)
        (waiting twoTickets { grants := [0] }) events) ∧
      ¬ Settled twoTickets (run (waitStep onePerMinute twoTickets)
        (waiting twoTickets {}) events) := by
  constructor
  · intro h
    have hended := h .cancelled (by decide +kernel) (by decide +kernel)
    exact hended.1 0 (by decide +kernel) (by decide +kernel)
  · intro h
    have hended := h .cancelled (by decide +kernel) (by decide +kernel)
    exact absurd (hended.2 (by decide +kernel)) (by decide)

end AgentTrading.Fdc.TicketQueue

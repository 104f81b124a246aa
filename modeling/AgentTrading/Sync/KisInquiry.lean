import AgentTrading.Library.Runs
import AgentTrading.Sync.Authoritative

/-! Inquiries of positions at the broker: one for each order at most, and none within the cooldown
of the last one of the account. An order is marked before the cooldown and the account are looked
at. -/
namespace AgentTrading.Sync.KisInquiry
open Domain Library
open Authoritative (BrokerPosition positionOf inquiryCooldown)

inductive Op where
  | now
  | accountsGet (accountId : UUID)
  | brokerAccountsGet (brokerAccountId : UUID)
  | brokerGetPositions (accountRef : String)
  | kisInquirySeenGet (orderRequestId : UUID)
  | kisInquirySeenSet (orderRequestId : UUID)
  | lastKisInquiryAtGet (accountId : UUID)
  | lastKisInquiryAtSet (accountId : UUID) (time : Time)

abbrev Reply : Op → Type
  | .now => Time
  | .accountsGet _ => Except PyError (Option AccountEntity)
  | .brokerAccountsGet _ => Except PyError (Option BrokerAccountEntity)
  | .brokerGetPositions _ => Except PyError (List BrokerPosition)
  | .kisInquirySeenGet _ => Bool
  | .kisInquirySeenSet _ => Unit
  | .lastKisInquiryAtGet _ => Option Time
  | .lastKisInquiryAtSet .. => Unit

abbrev Code (α : Type) := Program Op Reply PyError α

abbrev await (op : Op) : Code (Reply op) := Program.perform op

def orRaise : Except PyError α → Code α
  | .ok a => .ret a
  | .error e => .raise e

@[simp] theorem orRaise_ok_bind (a : α) (f : α → Code β) : (orRaise (.ok a)).bind f = f a := rfl

@[simp] theorem orRaise_error_bind (e : PyError) (f : α → Code β) :
    (orRaise (.error e)).bind f = .raise e := rfl

def checkKisInquiryCooldown (accountId : UUID) : Code Bool := do
  let now ← await .now
  let last ← await (.lastKisInquiryAtGet accountId)
  return last.all fun last => inquiryCooldown ≤ now - last

/-- What is tried once the cooldown is over. -/
def inquirePosition (accountId instrumentId : UUID) : Code (Option ℚ) := do
  let found ← await (.accountsGet accountId)
  let account ← orRaise found
  match account with
  | none => return none
  | some account =>
    let found ← await (.brokerAccountsGet account.brokerAccountId)
    let brokerAccount ← orRaise found
    match brokerAccount with
    | none => return none
    | some brokerAccount =>
      let now ← await .now
      await (.lastKisInquiryAtSet accountId now)
      let listed ← await (.brokerGetPositions brokerAccount.accountRef)
      let positions ← orRaise listed
      let quantity ← orRaise (positionOf instrumentId positions)
      return some quantity

def afterMarker (accountId instrumentId : UUID) : Code (Option ℚ) := do
  let ready ← checkKisInquiryCooldown accountId
  if ready then (inquirePosition accountId instrumentId).handle fun _ => return none
  else return none

/-- `_fetch_kis_current_position_qty`, whose `broker` is given or not. -/
def fetchKisCurrentPositionQty (accountId instrumentId : UUID) (broker : Bool)
    (callerOrderId : Option UUID) : Code (Option ℚ) :=
  if broker then
    match callerOrderId with
    | none => afterMarker accountId instrumentId
    | some id => do
      let seen ← await (.kisInquirySeenGet id)
      if seen then return none
      else do
        await (.kisInquirySeenSet id)
        afterMarker accountId instrumentId
  else return none

/-! The synchronisation makes such an inquiry for the order it is at. -/

def Op.authoritative : Op → Authoritative.Op
  | .now => .sync (.orders .now)
  | .accountsGet id => .accountsGet id
  | .brokerAccountsGet id => .brokerAccountsGet id
  | .brokerGetPositions ref => .brokerGetPositions ref
  | .kisInquirySeenGet id => .kisInquirySeenGet id
  | .kisInquirySeenSet id => .kisInquirySeenSet id
  | .lastKisInquiryAtGet id => .lastKisInquiryAtGet id
  | .lastKisInquiryAtSet id time => .lastKisInquiryAtSet id time

def replyOf : ∀ op : Op, Authoritative.Reply op.authoritative → Reply op
  | .now, r => r
  | .accountsGet _, r => r
  | .brokerAccountsGet _, r => r
  | .brokerGetPositions _, r => r
  | .kisInquirySeenGet _, r => r
  | .kisInquirySeenSet _, r => r
  | .lastKisInquiryAtGet _, r => r
  | .lastKisInquiryAtSet .., r => r

theorem lift_orRaise (x : Except PyError α) :
    (orRaise x).lift Op.authoritative replyOf = Authoritative.orRaise x := by
  cases x with
  | error e => rfl
  | ok a => rfl

theorem lift_inquirePosition (accountId instrumentId : UUID) :
    (inquirePosition accountId instrumentId).lift Op.authoritative replyOf =
      Authoritative.inquireKisPosition accountId instrumentId := by
  apply congrArg (Program.call _)
  funext found
  rcases found with e | _ | account
  · rfl
  · rfl
  · apply congrArg (Program.call _)
    funext found
    rcases found with e | _ | brokerAccount
    · rfl
    · rfl
    · apply congrArg (Program.call _)
      funext now
      apply congrArg (Program.call _)
      funext _
      apply congrArg (Program.call _)
      funext listed
      cases listed with
      | error e => rfl
      | ok positions =>
        show Program.lift _ _ ((orRaise (positionOf instrumentId positions)).bind _) = _
        rw [Program.lift_bind, lift_orRaise]
        rfl

/-- The inquiry that the synchronisation makes for an order is the one that is modelled here, with
the order for its caller. -/
theorem authoritative_eq (order : OrderRequestEntity) :
    (fetchKisCurrentPositionQty order.accountId order.instrumentId true
        (some order.orderRequestId)).lift Op.authoritative replyOf =
      Authoritative.fetchKisCurrentPositionQty order := by
  apply congrArg (Program.call _)
  funext seen
  cases seen with
  | true => rfl
  | false =>
    apply congrArg (Program.call _)
    funext _
    show Program.lift _ _ ((checkKisInquiryCooldown order.accountId).bind _) =
      (Authoritative.checkKisInquiryCooldown order.accountId).bind _
    rw [Program.lift_bind]
    apply congrArg (Program.bind _)
    funext ready
    cases ready with
    | true =>
      show Program.lift _ _ ((inquirePosition order.accountId order.instrumentId).handle _) = _
      rw [Program.lift_handle, lift_inquirePosition]
      rfl
    | false => rfl

/-- What the service keeps of its inquiries, with the orders for which the broker was asked. -/
structure Service where
  kisInquirySeen : UUID → Bool := fun _ => false
  lastKisInquiryAt : UUID → Option Time := fun _ => none
  asked : List (Option UUID) := []

/-- The arguments of an inquiry, the readings of the clock in turn, and what is answered. -/
structure Inquiry where
  accountId : UUID
  instrumentId : UUID
  broker : Bool := true
  callerOrderId : Option UUID
  clock : Nat → Time
  account : UUID → Except PyError (Option AccountEntity)
  brokerAccount : UUID → Except PyError (Option BrokerAccountEntity)
  positions : String → Except PyError (List BrokerPosition)

/-- The state goes with the number of readings. -/
def exec (e : Inquiry) (op : Op) (s : Service × Nat) : Reply op × (Service × Nat) :=
  match op with
  | .now => (e.clock s.2, s.1, s.2 + 1)
  | .accountsGet id => (e.account id, s)
  | .brokerAccountsGet id => (e.brokerAccount id, s)
  | .brokerGetPositions ref =>
    (e.positions ref, { s.1 with asked := s.1.asked ++ [e.callerOrderId] }, s.2)
  | .kisInquirySeenGet id => (s.1.kisInquirySeen id, s)
  | .kisInquirySeenSet id =>
    ((), { s.1 with kisInquirySeen := Function.update s.1.kisInquirySeen id true }, s.2)
  | .lastKisInquiryAtGet id => (s.1.lastKisInquiryAt id, s)
  | .lastKisInquiryAtSet id time =>
    ((), { s.1 with
      lastKisInquiryAt := Function.update s.1.lastKisInquiryAt id (some time) }, s.2)

def Inquiry.code (e : Inquiry) : Code (Option ℚ) :=
  fetchKisCurrentPositionQty e.accountId e.instrumentId e.broker e.callerOrderId

def step (s : Service) (e : Inquiry) : Service := (e.code.run (exec e) (s, 0)).2.1

/-- The inquiry reaches the broker. -/
def Asks (s : Service) (e : Inquiry) : Prop := (step s e).asked = s.asked ++ [e.callerOrderId]

/-- A broker is given, and the order is not marked. -/
structure Admitted (s : Service) (e : Inquiry) : Prop where
  broker : e.broker = true
  unseen : ∀ id, e.callerOrderId = some id → s.kisInquirySeen id = false

/-- The account was inquired about less than the cooldown before the first reading. -/
def Cooling (s : Service) (e : Inquiry) : Prop :=
  ∃ last, s.lastKisInquiryAt e.accountId = some last ∧ e.clock 0 - last < inquiryCooldown

/-- The stores give the account and its account at the broker. -/
def Known (e : Inquiry) : Prop :=
  ∃ account brokerAccount, e.account e.accountId = .ok (some account) ∧
    e.brokerAccount account.brokerAccountId = .ok (some brokerAccount)

/-- An order that may be inquired for and is turned away by the cooldown of its account. -/
structure Suppressed (s : Service) (e : Inquiry) : Prop where
  admitted : Admitted s e
  order : e.callerOrderId.isSome = true
  cooling : Cooling s e

def Service.marked (s : Service) : Option UUID → Service
  | none => s
  | some id => { s with kisInquirySeen := Function.update s.kisInquirySeen id true }

@[simp] theorem marked_asked (s : Service) (caller : Option UUID) :
    (s.marked caller).asked = s.asked := by
  cases caller <;> rfl

@[simp] theorem marked_lastKisInquiryAt (s : Service) (caller : Option UUID) :
    (s.marked caller).lastKisInquiryAt = s.lastKisInquiryAt := by
  cases caller <;> rfl

/-- The broker is asked, at the second reading. -/
def Service.inquired (s : Service) (e : Inquiry) : Service where
  kisInquirySeen := s.kisInquirySeen
  lastKisInquiryAt := Function.update s.lastKisInquiryAt e.accountId (some (e.clock 1))
  asked := s.asked ++ [e.callerOrderId]

theorem run_checkKisInquiryCooldown (s : Service) (e : Inquiry) :
    ∃ ready, (checkKisInquiryCooldown e.accountId).run (exec e) (s, 0) = (.ok ready, s, 1) ∧
      (ready = true ↔ ¬Cooling s e) := by
  refine ⟨_, rfl, ?_⟩
  unfold Cooling
  show (s.lastKisInquiryAt e.accountId).all _ = true ↔ _
  cases s.lastKisInquiryAt e.accountId with
  | none => simp
  | some last =>
    rw [Option.all_some]
    refine decide_eq_true_iff.trans ?_
    simp [exec]

theorem run_inquirePosition_known (s : Service) {e : Inquiry} (h : Known e) :
    ((inquirePosition e.accountId e.instrumentId).run (exec e) (s, 1)).2.1 = s.inquired e := by
  obtain ⟨account, brokerAccount, haccount, hbroker⟩ := h
  simp only [inquirePosition, Program.bind_eq, Program.perform_bind, Program.run_call, exec,
    haccount, orRaise_ok_bind, hbroker]
  cases e.positions brokerAccount.accountRef with
  | error e => rfl
  | ok positions =>
    rw [orRaise_ok_bind]
    cases positionOf e.instrumentId positions with
    | error e => rfl
    | ok quantity => rfl

theorem run_inquirePosition_unknown (s : Service) {e : Inquiry} (h : ¬Known e) :
    ((inquirePosition e.accountId e.instrumentId).run (exec e) (s, 1)).2.1 = s := by
  simp only [inquirePosition, Program.bind_eq, Program.perform_bind, Program.run_call, exec]
  rcases haccount : e.account e.accountId with error | _ | account
  · rfl
  · rfl
  · simp only [orRaise_ok_bind, Program.run_call, exec]
    rcases hbroker : e.brokerAccount account.brokerAccountId with error | _ | brokerAccount
    · rfl
    · rfl
    · exact absurd ⟨account, brokerAccount, haccount, hbroker⟩ h

/-- An exception caught at the end leaves what was written before. -/
theorem run_handled (e : Inquiry) (p : Code α) (a : α) (s : Service × Nat) :
    ((p.handle fun _ => return a).run (exec e) s).2 = (p.run (exec e) s).2 := by
  rw [Program.run_handle]
  cases p.run (exec e) s with
  | mk result s' =>
    cases result with
    | error e => rfl
    | ok a => rfl

theorem run_afterMarker_cooling {s : Service} {e : Inquiry} (h : Cooling s e) :
    ((afterMarker e.accountId e.instrumentId).run (exec e) (s, 0)).2.1 = s := by
  obtain ⟨ready, hrun, hready⟩ := run_checkKisInquiryCooldown s e
  have hfalse : ready = false := by
    cases ready with
    | true => exact absurd h (hready.mp rfl)
    | false => rfl
  rw [afterMarker, Program.bind_eq, Program.run_bind, hrun, hfalse]
  rfl

theorem run_afterMarker_ready {s : Service} {e : Inquiry} (h : ¬Cooling s e) :
    ((afterMarker e.accountId e.instrumentId).run (exec e) (s, 0)).2.1 =
      ((inquirePosition e.accountId e.instrumentId).run (exec e) (s, 1)).2.1 := by
  obtain ⟨ready, hrun, hready⟩ := run_checkKisInquiryCooldown s e
  rw [afterMarker, Program.bind_eq, Program.run_bind, hrun, hready.mpr h]
  exact congrArg Prod.fst (run_handled e _ none (s, 1))

theorem step_of_not_admitted {s : Service} {e : Inquiry} (h : ¬Admitted s e) : step s e = s := by
  unfold step Inquiry.code fetchKisCurrentPositionQty
  cases hbroker : e.broker with
  | false => rfl
  | true =>
    cases hcaller : e.callerOrderId with
    | none => exact absurd ⟨hbroker, fun id hid => nomatch hcaller.symm.trans hid⟩ h
    | some id =>
      cases hseen : s.kisInquirySeen id with
      | false =>
        refine absurd ⟨hbroker, fun id' hid => ?_⟩ h
        obtain rfl := Option.some.inj (hcaller.symm.trans hid)
        exact hseen
      | true =>
        simp only [if_true, Program.bind_eq, Program.perform_bind, Program.run_call, exec, hseen]
        rfl

theorem step_of_admitted {s : Service} {e : Inquiry} (h : Admitted s e) :
    step s e =
      ((afterMarker e.accountId e.instrumentId).run (exec e)
        (s.marked e.callerOrderId, 0)).2.1 := by
  unfold step Inquiry.code fetchKisCurrentPositionQty
  rw [h.broker, if_pos rfl]
  cases hcaller : e.callerOrderId with
  | none => rfl
  | some id =>
    have hunseen := h.unseen id hcaller
    simp only [Program.bind_eq, Program.perform_bind, Program.run_call, exec, hunseen,
      Bool.false_eq_true, if_false]
    rfl

theorem step_cases (s : Service) (e : Inquiry) :
    (¬Admitted s e ∧ step s e = s) ∨
    (Admitted s e ∧ (Cooling s e ∨ ¬Known e) ∧ step s e = s.marked e.callerOrderId) ∨
    (Admitted s e ∧ ¬Cooling s e ∧ Known e ∧
      step s e = (s.marked e.callerOrderId).inquired e) := by
  by_cases hadmitted : Admitted s e
  · have hsame : Cooling (s.marked e.callerOrderId) e ↔ Cooling s e := by
      rw [Cooling, marked_lastKisInquiryAt, Cooling]
    right
    by_cases hcooling : Cooling s e
    · left
      refine ⟨hadmitted, Or.inl hcooling, ?_⟩
      rw [step_of_admitted hadmitted, run_afterMarker_cooling (hsame.mpr hcooling)]
    · have hready := run_afterMarker_ready (mt hsame.mp hcooling)
      by_cases hknown : Known e
      · right
        refine ⟨hadmitted, hcooling, hknown, ?_⟩
        rw [step_of_admitted hadmitted, hready, run_inquirePosition_known _ hknown]
      · left
        refine ⟨hadmitted, Or.inr hknown, ?_⟩
        rw [step_of_admitted hadmitted, hready, run_inquirePosition_unknown _ hknown]
  · exact Or.inl ⟨hadmitted, step_of_not_admitted hadmitted⟩

theorem asks_iff (s : Service) (e : Inquiry) :
    Asks s e ↔ Admitted s e ∧ ¬Cooling s e ∧ Known e := by
  unfold Asks
  rcases step_cases s e with ⟨h, hstep⟩ | ⟨h, hturned, hstep⟩ | ⟨h, hready, hknown, hstep⟩
  · rw [hstep]
    exact iff_of_false (by simp) (fun hasks => h hasks.1)
  · rw [hstep, marked_asked]
    refine iff_of_false (by simp) (fun hasks => ?_)
    exact hturned.elim hasks.2.1 (fun hunknown => hunknown hasks.2.2)
  · rw [hstep, Service.inquired, marked_asked]
    exact iff_of_true rfl ⟨h, hready, hknown⟩

theorem marked_seen (s : Service) (caller : Option UUID) (id : UUID) :
    (s.marked caller).kisInquirySeen id = true ↔ s.kisInquirySeen id = true ∨ caller = some id := by
  cases caller with
  | none => simp [Service.marked]
  | some other =>
    rw [Service.marked, Option.some_inj]
    by_cases h : id = other
    · subst h
      simp
    · dsimp only
      rw [Function.update_of_ne h]
      exact (or_iff_left (Ne.symm h)).symm

/-- An inquiry that is admitted marks its order, whatever comes of it. -/
theorem step_seen (s : Service) (e : Inquiry) (id : UUID) :
    (step s e).kisInquirySeen id = true ↔
      s.kisInquirySeen id = true ∨ Admitted s e ∧ e.callerOrderId = some id := by
  rcases step_cases s e with ⟨h, hstep⟩ | ⟨h, -, hstep⟩ | ⟨h, -, -, hstep⟩
  · rw [hstep]
    exact (or_iff_left fun hmarks => h hmarks.1).symm
  · rw [hstep, marked_seen, and_iff_right h]
  · rw [hstep, Service.inquired, marked_seen, and_iff_right h]

theorem step_asked (s : Service) (e : Inquiry) (id : UUID) :
    some id ∈ (step s e).asked ↔ some id ∈ s.asked ∨ Asks s e ∧ e.callerOrderId = some id := by
  by_cases hasks : Asks s e
  · rw [show (step s e).asked = s.asked ++ [e.callerOrderId] from hasks, List.mem_append,
      List.mem_singleton, and_iff_right hasks]
    exact or_congr_right eq_comm
  · have hsame : (step s e).asked = s.asked := by
      rcases step_cases s e with ⟨-, hstep⟩ | ⟨-, -, hstep⟩ | ⟨h, hready, hknown, -⟩
      · rw [hstep]
      · rw [hstep, marked_asked]
      · exact absurd ((asks_iff s e).mpr ⟨h, hready, hknown⟩) hasks
    rw [hsame]
    exact (or_iff_left fun h => hasks h.1).symm

theorem not_asks_of_seen {s : Service} {id : UUID} (hseen : s.kisInquirySeen id = true)
    {e : Inquiry} (hcaller : e.callerOrderId = some id) : ¬Asks s e := by
  intro hasks
  have hunseen := ((asks_iff s e).mp hasks).1.unseen id hcaller
  rw [hseen] at hunseen
  cases hunseen

theorem run_seen {s : Service} {id : UUID} (hseen : s.kisInquirySeen id = true)
    (es : List Inquiry) : (Runs.run step s es).kisInquirySeen id = true := by
  apply Runs.run_keeps step (C := fun _ _ => True) (I := fun s => s.kisInquirySeen id = true) _ s es
    hseen (Runs.meets_true step s es)
  exact fun s e h _ => (step_seen s e id).mpr (Or.inl h)

theorem starved {s : Service} {e : Inquiry} (h : Suppressed s e) (es : List Inquiry)
    {later : Inquiry} (hlater : later.callerOrderId = e.callerOrderId) :
    ¬Asks (Runs.run step (step s e) es) later := by
  obtain ⟨id, hid⟩ := Option.isSome_iff_exists.mp h.order
  have hmarked : (step s e).kisInquirySeen id = true :=
    (step_seen s e id).mpr (Or.inr ⟨h.admitted, hid⟩)
  exact not_asks_of_seen (run_seen hmarked es) (hlater.trans hid)

/-! What is to hold of an inquiry, and when it does. -/

/-- Only orders for which the broker was asked are marked, and one that the cooldown turned away
can be inquired for later. -/
structure Kept (s : Service) (e : Inquiry) : Prop where
  recorded : ∀ id, (step s e).kisInquirySeen id = true → some id ∈ (step s e).asked
  retriable : Suppressed s e → ∃ later : Inquiry, later.accountId = e.accountId ∧
    later.callerOrderId = e.callerOrderId ∧ Asks (step s e) later

/-- An inquiry admitted for an order finds the cooldown over and its account. -/
def Unhindered (s : Service) (e : Inquiry) : Prop :=
  Admitted s e → e.callerOrderId.isSome = true → ¬Cooling s e ∧ Known e

/-- The marked orders are those for which the broker was asked. -/
def Exact (s : Service) : Prop := ∀ id, s.kisInquirySeen id = true ↔ some id ∈ s.asked

theorem exact_step {s : Service} {e : Inquiry} (hexact : Exact s) (h : Unhindered s e) :
    Exact (step s e) := by
  intro id
  rw [step_seen, step_asked, hexact id, asks_iff]
  apply or_congr_right
  apply and_congr_left
  intro hid
  constructor
  · exact fun hadmitted => ⟨hadmitted, h hadmitted (by rw [hid]; rfl)⟩
  · exact fun hasks => hasks.1

theorem kept_iff {s : Service} {e : Inquiry} (hexact : Exact s) : Kept s e ↔ Unhindered s e := by
  constructor
  · intro hkept hadmitted hsome
    obtain ⟨id, hid⟩ := Option.isSome_iff_exists.mp hsome
    have hasked := hkept.recorded id ((step_seen s e id).mpr (Or.inr ⟨hadmitted, hid⟩))
    rcases (step_asked s e id).mp hasked with hbefore | ⟨hasks, -⟩
    · have hunseen := hadmitted.unseen id hid
      rw [(hexact id).mpr hbefore] at hunseen
      cases hunseen
    · exact ((asks_iff s e).mp hasks).2
  · intro h
    refine ⟨fun id => (exact_step hexact h id).mp, fun hsuppressed => ?_⟩
    exact absurd hsuppressed.cooling (h hsuppressed.admitted hsuppressed.order).1

theorem inquiries_kept_iff (es : List Inquiry) :
    Runs.Meets step Kept {} es ↔ Runs.Meets step Unhindered {} es := by
  have hstart : Exact {} := fun id => by simp
  constructor
  · apply Runs.meets_of_invariant step (J := Exact) _ _ {} es hstart
    · exact fun s e hs hkept => exact_step hs ((kept_iff hs).mp hkept)
    · exact fun s e hs hkept => (kept_iff hs).mp hkept
  · apply Runs.meets_of_invariant step (J := Exact) _ _ {} es hstart
    · exact fun s e hs h => exact_step hs h
    · exact fun s e hs h => (kept_iff hs).mpr h

/-- An inquiry for an order of account 7 that finds its account at this time. -/
def inquiryOf (id : UUID) (time : Time) : Inquiry where
  accountId := 7
  instrumentId := 3
  callerOrderId := some id
  clock _ := time
  account _ := .ok (some ⟨2⟩)
  brokerAccount _ := .ok (some ⟨2, "koreainvestment", "50123456"⟩)
  positions _ := .ok [⟨some 3, 5⟩]

/-- Ten seconds after the inquiry for the first order the second one is turned away. -/
theorem second_starved :
    ¬Runs.Meets step Kept {} [inquiryOf 1 0, inquiryOf 2 (seconds 10)] ∧
      (Runs.run step {} [inquiryOf 1 0, inquiryOf 2 (seconds 10)]).kisInquirySeen 2 = true ∧
      (Runs.run step {} [inquiryOf 1 0, inquiryOf 2 (seconds 10)]).asked = [some 1] := by
  have hseen : (Runs.run step {} [inquiryOf 1 0, inquiryOf 2 (seconds 10)]).kisInquirySeen 2 =
      true := rfl
  have hasked : (Runs.run step {} [inquiryOf 1 0, inquiryOf 2 (seconds 10)]).asked = [some 1] := rfl
  refine ⟨fun h => ?_, hseen, hasked⟩
  have hmem := h.2.1.recorded 2 hseen
  exact absurd hmem (by rw [show (step _ _).asked = _ from hasked]; decide)

end AgentTrading.Sync.KisInquiry

import AgentTrading.Sync.PostSubmit

/-! `OrderSyncService.transition_to_authoritative`: an order in reconciliation is brought to
what the broker says of it. Where the broker has no record of a sell, its fill is inferred
from the position, and otherwise it is expired after hours. -/
namespace AgentTrading.Sync.Authoritative
open Domain Repositories Library

structure OrderStatusResult where
  brokerName : String
  clientOrderId : Option String
  brokerOrderId : Option String
  status : OrderStatus
  filledQuantity : ℚ := 0
  remainingQuantity : Option ℚ := none
  rawCode : Option String := none
  rawMessage : Option String := none
  deriving DecidableEq

/-- A position as an adapter returns it. The domain's own record names no instrument, and
asking it for one raises. -/
structure BrokerPosition where
  instrumentId : Option UUID
  quantity : ℚ
  deriving DecidableEq

/-- The operations of the synchronisation, the inquiries of this path, the service's record of
its inquiries, and a note of each fill the positions show. -/
inductive Op where
  | sync (op : Sync.Op)
  | accountsGet (accountId : UUID)
  | brokerAccountsGet (brokerAccountId : UUID)
  | brokerGetPositions (accountRef : String)
  | brokerResolveUnknownState (accountRef : String) (brokerOrderId symbol : Option String)
      (side : OrderSide) (orderCreatedAt : Option Time)
  | kisInquirySeenGet (orderRequestId : UUID)
  | kisInquirySeenSet (orderRequestId : UUID)
  | lastKisInquiryAtGet (accountId : UUID)
  | lastKisInquiryAtSet (accountId : UUID) (time : Time)
  | noteEvidence (orderRequestId : UUID) (status : OrderStatus)

abbrev Reply : Op → Type
  | .sync op => Sync.Reply op
  | .accountsGet _ => Except PyError (Option AccountEntity)
  | .brokerAccountsGet _ => Except PyError (Option BrokerAccountEntity)
  | .brokerGetPositions _ => Except PyError (List BrokerPosition)
  | .brokerResolveUnknownState .. => Except PyError OrderStatusResult
  | .kisInquirySeenGet _ => Bool
  | .kisInquirySeenSet _ => Unit
  | .lastKisInquiryAtGet _ => Option Time
  | .lastKisInquiryAtSet .. => Unit
  | .noteEvidence .. => Unit

abbrev Code (α : Type) := Program Op Reply PyError α

/-- The status an order's fill was inferred to have. -/
structure Evidence where
  orderRequestId : UUID
  status : OrderStatus
  deriving DecidableEq

structure State where
  sync : Sync.State
  kisInquirySeen : UUID → Bool := fun _ => false
  lastKisInquiryAt : UUID → Option Time := fun _ => none
  refreshes : Nat := 0
  evidence : List Evidence := []

/-- What the broker and the stored positions answer, and the time: it passes from `opened` on
and not beyond `span`. A refresh may change the latest positions and nothing else. -/
structure World where
  opened : Time
  span : Nat
  unknownState : Option String → Except PyError OrderStatusResult
  account : UUID → Except PyError (Option AccountEntity)
  brokerAccount : UUID → Except PyError (Option BrokerAccountEntity)
  positions : String → Except PyError (List BrokerPosition)
  latestBefore : UUID → UUID → Option Time → Except PyError (Option PositionSnapshotEntity)
  latestPositions : Nat → UUID → Except PyError (List PositionSnapshotEntity)

namespace World

/-- The latest time there is. -/
def closed (w : World) : Time := w.opened + w.span

/-- A clock at `clock` advances by at most what is left. -/
def within (w : World) (clock : Time) (c : Orders.Choice) : Orders.Choice :=
  { c with elapsed := min c.elapsed (w.closed - clock).toNat }

/-- The replies of the world in place of those chosen. -/
def choice (w : World) (s : State) (c : Sync.Choice) : Sync.Op → Sync.Choice
  | .orders _ => { c with orders := w.within s.sync.store.clock c.orders }
  | .positionSnapshotsLatestBefore accountId instrumentId before =>
    { c with latestBefore := w.latestBefore accountId instrumentId before }
  | .positionSnapshotsListLatest accountId =>
    { c with latestPositions := w.latestPositions s.refreshes accountId }
  | _ => c

def refreshed : Sync.Op → Nat
  | .snapshotRefresh _ => 1
  | _ => 0

def exec (w : World) (c : Sync.Choice) (op : Op) (s : State) : Reply op × State :=
  match op with
  | .sync op => ((Sync.exec (w.choice s c op) op s.sync).1,
      { s with
        sync := (Sync.exec (w.choice s c op) op s.sync).2
        refreshes := s.refreshes + refreshed op })
  | .accountsGet accountId => (w.account accountId, s)
  | .brokerAccountsGet brokerAccountId => (w.brokerAccount brokerAccountId, s)
  | .brokerGetPositions accountRef => (w.positions accountRef, s)
  | .brokerResolveUnknownState _ brokerOrderId .. => (w.unknownState brokerOrderId, s)
  | .kisInquirySeenGet id => (s.kisInquirySeen id, s)
  | .kisInquirySeenSet id =>
    ((), { s with kisInquirySeen := Function.update s.kisInquirySeen id true })
  | .lastKisInquiryAtGet accountId => (s.lastKisInquiryAt accountId, s)
  | .lastKisInquiryAtSet accountId time =>
    ((), { s with lastKisInquiryAt := Function.update s.lastKisInquiryAt accountId (some time) })
  | .noteEvidence id status => ((), { s with evidence := s.evidence ++ [⟨id, status⟩] })

end World

abbrev await (op : Op) : Code (Reply op) := Program.perform op

def orRaise : Except PyError α → Code α
  | .ok a => .ret a
  | .error e => .raise e

/-- A program of the synchronisation. -/
def ofSync (p : Sync.Code α) : Code α := p.lift Op.sync fun _ r => r

def now : Code Time := ofSync Sync.now

def inferredResult (order : OrderRequestEntity) (brokerOrder : BrokerOrderEntity)
    (inferred : OrderStatus) (message : String) : OrderStatusResult where
  brokerName := brokerOrder.brokerName
  clientOrderId := none
  brokerOrderId := brokerOrder.brokerNativeOrderId
  status := inferred
  filledQuantity := if inferred = .filled then order.requestedQuantity else 0
  remainingQuantity := some (if inferred = .filled then 0 else order.requestedQuantity)
  rawCode := some ""
  rawMessage := some message

def expiredResult (brokerOrder : BrokerOrderEntity) (message : String) : OrderStatusResult where
  brokerName := brokerOrder.brokerName
  clientOrderId := none
  brokerOrderId := brokerOrder.brokerNativeOrderId
  status := .expired
  filledQuantity := 0
  remainingQuantity := some 0
  rawCode := some ""
  rawMessage := some message

/-- `f"{seconds:.0f}"`: whole seconds, halves to the even one. -/
def secondsText (duration : Int) : String :=
  let whole := duration / seconds 1
  let rest := 2 * (duration % seconds 1)
  toString (if rest < seconds 1 ∨ (rest = seconds 1 ∧ whole % 2 = 0) then whole else whole + 1)

/-- A stage of the call: `some` is what the call returns, and `none` lets it go on. -/
abbrev Stage := Option (Option OrderStatusResult)

def andThen (stage : Code Stage) (next : Code (Option OrderStatusResult)) :
    Code (Option OrderStatusResult) := do
  let reached ← stage
  match reached with
  | some result => return result
  | none => next

structure FillInferenceResult where
  inferredFillQty : ℚ
  source : String
  deriving DecidableEq

def inquiryCooldown : Int := seconds 30

def checkKisInquiryCooldown (accountId : UUID) : Code Bool := do
  let now ← now
  let last ← await (.lastKisInquiryAtGet accountId)
  return last.all fun last => inquiryCooldown ≤ now - last

/-- The quantity of an instrument that is not among the positions is zero. -/
def positionOf (instrumentId : UUID) : List BrokerPosition → Except PyError ℚ
  | [] => .ok 0
  | position :: rest =>
    match position.instrumentId with
    | none => .error (.other "AttributeError")
    | some id => if id = instrumentId then .ok position.quantity else positionOf instrumentId rest

def inquireKisPosition (accountId instrumentId : UUID) : Code (Option ℚ) := do
  let found ← await (.accountsGet accountId)
  let account ← orRaise found
  match account with
  | none => return none
  | some account =>
    let found ← await (.brokerAccountsGet account.brokerAccountId)
    let brokerAccount ← orRaise found
    match brokerAccount with
    | none => return none
    | some brokerAccount =>
      let now ← now
      await (.lastKisInquiryAtSet accountId now)
      let listed ← await (.brokerGetPositions brokerAccount.accountRef)
      let positions ← orRaise listed
      let quantity ← orRaise (positionOf instrumentId positions)
      return some quantity

/-- `_fetch_kis_current_position_qty`: once for each order, and not within the cooldown. -/
def fetchKisCurrentPositionQty (order : OrderRequestEntity) : Code (Option ℚ) := do
  let seen ← await (.kisInquirySeenGet order.orderRequestId)
  if seen then return none
  else do
    await (.kisInquirySeenSet order.orderRequestId)
    let ready ← checkKisInquiryCooldown order.accountId
    if ready then
      (inquireKisPosition order.accountId order.instrumentId).handle fun _ => return none
    else return none

/-- The stored position stands in for one the broker did not give. -/
def currentQty (order : OrderRequestEntity) : Option ℚ → Code (Option ℚ)
  | some quantity => return some quantity
  | none => ofSync (getLatestPositionQty order.accountId order.instrumentId)

def tryKisTruthFallback (order : OrderRequestEntity) (brokerOrder : BrokerOrderEntity) :
    Code (Option FillInferenceResult) :=
  if order.side ≠ .sell then return none
  else do
    let before ← await (.sync (.positionSnapshotsLatestBefore order.accountId order.instrumentId
      brokerOrder.createdAt))
    match before with
    | .error _ => return none
    | .ok none => return none
    | .ok (some pre) =>
      if pre.quantity = 0 then return none
      else do
        let held ← fetchKisCurrentPositionQty order
        let current ← currentQty order held
        let delta := pre.quantity - current.getD 0
        if 0 < delta then return some ⟨delta, "kis_truth_fallback"⟩ else return none

/-- The broker order and the snapshots follow a complete fill. -/
def followFill (order : OrderRequestEntity) (brokerOrder : BrokerOrderEntity) (refresh : Bool)
    (inferred : OrderStatus) : Code Unit :=
  if inferred = .filled then do
    let now ← now
    ofSync (updateBrokerOrderRow brokerOrder.brokerOrderId (some "filled") none (some now))
    let _ ← ofSync (refreshSnapshots refresh order.accountId)
    return ()
  else return ()

/-- A transition that does not change the status lets the call go on; one that raises ends
it. -/
def settleInferred (svc : OrderSyncService) (order : OrderRequestEntity)
    (brokerOrder : BrokerOrderEntity) (refresh : Bool) (inferred : OrderStatus)
    (message : String) : Code Stage :=
  let settled : Code Stage := do
    let updated ← ofSync (svc.tryTransition order inferred none none)
    if updated.status ≠ order.status then do
      followFill order brokerOrder refresh inferred
      return some (some (inferredResult order brokerOrder inferred message))
    else return none
  settled.handle fun _ => return some none

def settleByPosition (svc : OrderSyncService) (order : OrderRequestEntity)
    (brokerOrder : BrokerOrderEntity) (refresh : Bool) (message : OrderStatus → String) :
    Code Stage :=
  if order.side = .sell then do
    let inferred ← ofSync (inferSellOrderFillViaPosition order brokerOrder refresh)
    match inferred with
    | none => return none
    | some inferred => do
      await (.noteEvidence order.orderRequestId inferred)
      settleInferred svc order brokerOrder refresh inferred (message inferred)
  else return none

def settleByKis (svc : OrderSyncService) (order : OrderRequestEntity)
    (brokerOrder : BrokerOrderEntity) (refresh : Bool)
    (message : ℚ → OrderStatus → String) : Code Stage :=
  if order.side = .sell then do
    let fill ← tryKisTruthFallback order brokerOrder
    match fill with
    | none => return none
    | some fill =>
      if 0 < fill.inferredFillQty then do
        let inferred := statusOfDelta order fill.inferredFillQty
        await (.noteEvidence order.orderRequestId inferred)
        settleInferred svc order brokerOrder refresh inferred
          (message fill.inferredFillQty inferred)
      else return none
  else return none

def stuckExpiry : Int := seconds 7200

/-- An order that has only just been created is not expired. -/
def tooYoung (order : OrderRequestEntity) (brokerOrder : BrokerOrderEntity) : Code Bool :=
  match order.createdAt with
  | none => return false
  | some createdAt => do
    let now ← now
    return now - createdAt < resolveAfterHoursGracePeriod order brokerOrder

/-- The last resort for a sell, after hours only. -/
def fallBackToExpired (svc : OrderSyncService) (order : OrderRequestEntity)
    (brokerOrder : BrokerOrderEntity) (afterHours : Bool) (message : String) :
    Code (Option OrderStatusResult) :=
  if order.side ≠ .sell then return none
  else if !afterHours then return none
  else do
    let young ← tooYoung order brokerOrder
    if young then return none
    else
      let expired : Code (Option OrderStatusResult) := do
        let updated ← ofSync (svc.tryTransition order .expired none none)
        if updated.status ≠ order.status then return some (expiredResult brokerOrder message)
        else return none
      expired.handle fun _ => return none

def stuckMessage (stuck : Int) : String :=
  "Stuck timeout EXPIRED: RECONCILE_REQUIRED for " ++ secondsText stuck ++ "s (threshold=" ++
    toString (stuckExpiry / seconds 1) ++ "s)"

/-- The expiry of a stuck order is written to the broker order, too. -/
def expireStuckOrder (svc : OrderSyncService) (order : OrderRequestEntity)
    (brokerOrder : BrokerOrderEntity) (stuck : Int) : Code Stage :=
  let expired : Code Stage := do
    let updated ← ofSync (svc.tryTransition order .expired none none)
    if updated.status ≠ order.status then do
      let now ← now
      ofSync (updateBrokerOrderRow brokerOrder.brokerOrderId (some "expired") none (some now))
      return some (some (expiredResult brokerOrder (stuckMessage stuck)))
    else return none
  expired.handle fun _ => return some none

/-- A stuck order after hours: once more the position at the broker, then expiry. -/
def resolveStuck (svc : OrderSyncService) (order : OrderRequestEntity)
    (brokerOrder : BrokerOrderEntity) (refresh : Bool) (stuck : Int) : Code Stage :=
  if order.side = .buy then return some none
  else do
    let reached ← settleByKis svc order brokerOrder refresh fun quantity inferred =>
      "Stuck expiry KIS truth " ++ inferred.value ++ ": fill=" ++ svc.text quantity
    match reached with
    | some result => return some result
    | none => expireStuckOrder svc order brokerOrder stuck

/-- Stage 2.5: an order that is older than the stuck timeout. -/
def stuckTimeout (svc : OrderSyncService) (order : OrderRequestEntity)
    (brokerOrder : BrokerOrderEntity) (refresh afterHours : Bool) : Code Stage :=
  match order.createdAt with
  | none => return none
  | some createdAt => do
    let now ← now
    if stuckExpiry < now - createdAt then
      if afterHours then resolveStuck svc order brokerOrder refresh (now - createdAt)
      else if truthy brokerOrder.brokerNativeOrderId ∧ order.orderType = .market then
        return some none
      else return none
    else return none

/-- The inquiry raised. -/
def withoutTruth (svc : OrderSyncService) (order : OrderRequestEntity)
    (brokerOrder : BrokerOrderEntity) (refresh afterHours : Bool) (e : PyError) :
    Code (Option OrderStatusResult) :=
  let failed := "resolve_unknown_state failed: " ++ svc.errorText e
  andThen (settleByPosition svc order brokerOrder refresh fun inferred =>
      "Position-delta inferred " ++ inferred.value ++ ": " ++ failed)
    (fallBackToExpired svc order brokerOrder afterHours ("Fallback EXPIRED: " ++ failed))

/-- The broker has no record of the order. -/
def withoutRecord (svc : OrderSyncService) (order : OrderRequestEntity)
    (brokerOrder : BrokerOrderEntity) (refresh afterHours : Bool) :
    Code (Option OrderStatusResult) :=
  andThen (settleByKis svc order brokerOrder refresh fun _ inferred =>
      "KIS truth fallback " ++ inferred.value ++ ": position decrease detected") <|
  andThen (settleByPosition svc order brokerOrder refresh fun inferred =>
      "Position-delta inferred " ++ inferred.value ++ ": broker has no record of order") <|
  andThen (stuckTimeout svc order brokerOrder refresh afterHours) <|
  fallBackToExpired svc order brokerOrder afterHours
    "Fallback EXPIRED: broker has no record of order"

/-- `_is_genuine_manual_reconciliation`; what it asks of the status decides nothing. -/
def isGenuineManualReconciliation (order : OrderRequestEntity) (result : OrderStatusResult) :
    Code Bool :=
  if truthy result.brokerOrderId then do
    let now ← now
    match order.createdAt with
    | none => .raise (.other "TypeError")
    | some createdAt => return seconds 86400 < now - createdAt
  else return true

/-- The broker answered. -/
def reflectTruth (svc : OrderSyncService) (order : OrderRequestEntity)
    (brokerOrder : BrokerOrderEntity) (refresh afterHours : Bool) (result : OrderStatusResult) :
    Code (Option OrderStatusResult) := do
  let now ← now
  ofSync (OrderSyncService.updateBrokerStatus brokerOrder result.status now)
  if result.status ≠ .reconcileRequired then do
    let updated ← ofSync (svc.tryTransition order result.status none none)
    if updated.status ≠ order.status then return some result else return none
  else do
    let manual ← isGenuineManualReconciliation order result
    if manual then return none else withoutRecord svc order brokerOrder refresh afterHours

def transitionToAuthoritative (svc : OrderSyncService) (accountRef : String)
    (order : OrderRequestEntity) (brokerOrder : BrokerOrderEntity) (refresh afterHours : Bool) :
    Code (Option OrderStatusResult) :=
  if order.status ≠ .reconcileRequired then return none
  else do
    let found ← await (.sync (.instrumentsGet order.instrumentId))
    let symbol ← orRaise found
    let reply ← await (.brokerResolveUnknownState accountRef brokerOrder.brokerNativeOrderId symbol
      order.side (orderTime order))
    match reply with
    | .error e => withoutTruth svc order brokerOrder refresh afterHours e
    | .ok result => reflectTruth svc order brokerOrder refresh afterHours result

end AgentTrading.Sync.Authoritative

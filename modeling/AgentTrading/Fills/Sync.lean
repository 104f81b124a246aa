import AgentTrading.Fills.Incremental

/-! `OrderSyncService._sync_fills`. The resolver has advanced the cumulative state before the
increments meet the keys of the stored fills. -/
namespace AgentTrading.Fills
open Domain

/-- The rows of one broker order. `ledger` lists the fills handed to the realized-PnL ledger,
whose failures do not come back. -/
structure FillBook where
  cumulative : Option KisFillCumulativeStateEntity := none
  fillEvents : List FillEventEntity := []
  ledger : List FillEventEntity := []
  nextId : UUID := 0
  deriving DecidableEq

/-- What `_sync_fills` knows of the order. -/
structure OrderContext where
  brokerOrderId : UUID
  brokerName : String
  brokerNativeOrderId : Option String
  accountId : UUID
  appendEnabled : Bool := true

structure FeeTax where
  fee : Option ℚ
  tax : Option ℚ
  source : Option String

/-- What one call meets: the answer of `get_fills`, the time, and the fee and tax policy, which
is absent when the account or the instrument is unknown and raises when it is malformed. -/
structure FillCall where
  observations : Except PyError (List FillEvent)
  now : Time
  feeTaxPolicy : Option (FillEvent → Except PyError FeeTax)

structure Counters where
  noNewFill : Nat := 0
  newFill : Nat := 0
  shadowSkipped : Nat := 0
  anomalyNegativeDelta : Nat := 0
  anomalyUnpriceableDelta : Nat := 0
  deriving DecidableEq

/-- The candidates found so far, with the counters and the stored state. -/
structure Interpretation where
  counters : Counters := {}
  candidates : List FillEvent := []
  cumulative : Option KisFillCumulativeStateEntity
  nextId : UUID

/-- One observation of the interpretation loop. -/
def interpretOne (ctx : OrderContext) (nativeId : String) (now : Time) (acc : Interpretation)
    (observation : FillEvent) : Interpretation :=
  let counters := acc.counters
  match resolveIncrementalFill acc.cumulative {
      accountId := ctx.accountId
      brokerName := ctx.brokerName
      brokerNativeOrderId := nativeId
      currentCumulativeQuantity := observation.fillQuantity
      currentAveragePrice := some observation.fillPrice } now acc.nextId with
  | (.noNewFill, state) =>
    { acc with
      counters := { counters with noNewFill := counters.noNewFill + 1 }
      cumulative := state
      nextId := acc.nextId + 1 }
  | (.anomaly .negativeDelta, state) =>
    { acc with
      counters := { counters with anomalyNegativeDelta := counters.anomalyNegativeDelta + 1 }
      cumulative := state }
  | (.anomaly .unpriceableDelta, state) =>
    { acc with
      counters := { counters with
        anomalyUnpriceableDelta := counters.anomalyUnpriceableDelta + 1 }
      cumulative := state }
  | (.newFill delta price, state) =>
    let counters := { counters with newFill := counters.newFill + 1 }
    if ctx.appendEnabled then
      { counters := counters
        candidates := acc.candidates ++
          [{ observation with fillQuantity := delta, fillPrice := price }]
        cumulative := state
        nextId := acc.nextId + 1 }
    else
      { acc with
        counters := { counters with shadowSkipped := counters.shadowSkipped + 1 }
        cumulative := state
        nextId := acc.nextId + 1 }

/-- The interpretation loop; an order without a native identifier is passed over. -/
def interpret (ctx : OrderContext) (now : Time) (book : FillBook) (observations : List FillEvent) :
    Interpretation :=
  let start : Interpretation := { cumulative := book.cumulative, nextId := book.nextId }
  match ctx.brokerNativeOrderId with
  | none => start
  | some nativeId => observations.foldl (interpretOne ctx nativeId now) start

/-- An empty identifier counts as none. -/
def fillIdOf (id : Option String) : Option String := id.filter (· ≠ "")

/-- The key of a candidate is among the stored fills: by the broker's identifier where there
is one, else by time, price and quantity. -/
def isDuplicate (existing : List FillEventEntity) (fill : FillEvent) : Bool :=
  match fillIdOf fill.brokerFillId with
  | some id => existing.any fun e => fillIdOf e.brokerFillId = some id
  | none => existing.any fun e => fillIdOf e.brokerFillId = none ∧
      e.fillTimestamp = fill.fillTimestamp ∧ e.fillPrice = fill.fillPrice ∧
      e.fillQuantity = fill.fillQuantity

/-- Reported fees and taxes are kept, others come from the policy. -/
def feeTaxOf (policy : Option (FillEvent → Except PyError FeeTax)) (fill : FillEvent) :
    Except PyError FeeTax :=
  if fill.fee.isSome ∨ fill.tax.isSome then .ok ⟨fill.fee, fill.tax, none⟩
  else
    match policy with
    | some policy => policy fill
    | none => .ok ⟨none, none, none⟩

def entityOf (ctx : OrderContext) (id : UUID) (fill : FillEvent) (feeTax : FeeTax) :
    FillEventEntity where
  fillEventId := id
  brokerOrderId := ctx.brokerOrderId
  fillTimestamp := fill.fillTimestamp
  fillPrice := fill.fillPrice
  fillQuantity := fill.fillQuantity
  sourceChannel := "rest_poll"
  brokerFillId := fillIdOf fill.brokerFillId
  fillFee := feeTax.fee
  fillTax := feeTax.tax
  feeTaxSource := feeTax.source

def addFill (book : FillBook) (entity : FillEventEntity) : FillBook :=
  { book with
    fillEvents := book.fillEvents ++ [entity]
    ledger := book.ledger ++ [entity]
    nextId := book.nextId + 1 }

/-- The storing loop, with the numbers of fills stored and passed over. A fee policy that
raises ends it. -/
def appendFills (ctx : OrderContext) (policy : Option (FillEvent → Except PyError FeeTax)) :
    List FillEvent → Nat → Nat → FillBook → Except PyError (Nat × Nat) × FillBook
  | [], synced, skipped, book => (.ok (synced, skipped), book)
  | fill :: fills, synced, skipped, book =>
    if isDuplicate book.fillEvents fill then
      appendFills ctx policy fills synced (skipped + 1) book
    else
      match feeTaxOf policy fill with
      | .error e => (.error e, book)
      | .ok feeTax =>
        appendFills ctx policy fills (synced + 1) skipped
          (addFill book (entityOf ctx book.nextId fill feeTax))

/-- `_sync_fills`: the numbers of fills stored and passed over. -/
def syncFills (ctx : OrderContext) (call : FillCall) (book : FillBook) :
    Except PyError (Nat × Nat) × FillBook :=
  match call.observations with
  | .error _ => (.ok (0, 0), book)
  | .ok [] => (.ok (0, 0), book)
  | .ok observations =>
    let found := interpret ctx call.now book observations
    let book := { book with cumulative := found.cumulative, nextId := found.nextId }
    if found.candidates = [] then (.ok (0, found.counters.noNewFill), book)
    else
      match appendFills ctx call.feeTaxPolicy found.candidates 0 0 book with
      | (.ok (synced, skipped), book) => (.ok (synced, skipped + found.counters.noNewFill), book)
      | (.error e, book) => (.error e, book)

end AgentTrading.Fills

import Mathlib.Init

/-! Enumerations of the trading domain with the texts they are stored under. -/
namespace AgentTrading.Domain

inductive BrokerName where
  | koreaInvestment
  | kiwoom
  deriving DecidableEq, Repr

def BrokerName.value : BrokerName → String
  | koreaInvestment => "koreainvestment"
  | kiwoom => "kiwoom"

inductive OrderSide where
  | buy
  | sell
  deriving DecidableEq, Repr

def OrderSide.value : OrderSide → String
  | buy => "buy"
  | sell => "sell"

inductive OrderType where
  | market
  | limit
  | stop
  | stopLimit
  deriving DecidableEq, Repr

inductive TimeInForce where
  | day
  | ioc
  | fok
  deriving DecidableEq, Repr

inductive OrderStatus where
  | draft
  | validated
  | pendingSubmit
  | submitted
  | acknowledged
  | partiallyFilled
  | filled
  | cancelPending
  | cancelled
  | rejected
  | expired
  | reconcileRequired
  deriving DecidableEq, Repr

def OrderStatus.value : OrderStatus → String
  | draft => "draft"
  | validated => "validated"
  | pendingSubmit => "pending_submit"
  | submitted => "submitted"
  | acknowledged => "acknowledged"
  | partiallyFilled => "partially_filled"
  | filled => "filled"
  | cancelPending => "cancel_pending"
  | cancelled => "cancelled"
  | rejected => "rejected"
  | expired => "expired"
  | reconcileRequired => "reconcile_required"

inductive BrokerErrorType where
  | authentication
  | authorization
  | rateLimit
  | network
  | networkError
  | invalidRequest
  | unsupportedCapability
  | orderRejected
  | temporaryBroker
  | dataUnavailable
  | apiError
  | timeout
  deriving DecidableEq, Repr

def BrokerErrorType.value : BrokerErrorType → String
  | authentication => "authentication"
  | authorization => "authorization"
  | rateLimit => "rate_limit"
  | network => "network"
  | networkError => "network_error"
  | invalidRequest => "invalid_request"
  | unsupportedCapability => "unsupported_capability"
  | orderRejected => "order_rejected"
  | temporaryBroker => "temporary_broker"
  | dataUnavailable => "data_unavailable"
  | apiError => "api_error"
  | timeout => "timeout"

inductive EventSource where
  | internal
  | brokerRest
  | brokerWs
  | reconciliation
  | operator
  deriving DecidableEq, Repr

/-- Status texts a reconciliation run is stored with. -/
inductive RunStatus where
  | started
  | resolved
  | halted
  | reflectionFailed
  | failed
  deriving DecidableEq, Repr

end AgentTrading.Domain

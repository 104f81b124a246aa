import AgentTrading.Kis.Json

/-! `get_cash_and_positions`: the pages of one balance inquiry, and the empty result that stands
in for an inquiry that failed. -/
namespace AgentTrading.Snapshots
open Domain Kis

/-- A row of `output1`, as texts. -/
structure PositionRow where
  pdno : Option String
  hldgQty : Option String := none
  pchsAvgPric : Option String := none
  prpr : Option String := none
  evluPflsAmt : Option String := none
  deriving DecidableEq

/-- A page of the answer; of `output2` only whether it is there. -/
structure BalancePage where
  output : List PositionRow
  output2 : Bool
  ctxFk : String := ""
  ctxNk : String := ""
  trCont : String := ""

/-- The pages of an inquiry, and whether the last was reached. -/
structure BalanceReply where
  positions : List PositionRow
  cash : Bool
  complete : Bool
  deriving DecidableEq

structure CashAndPositionsResult where
  cashBalance : Bool
  positions : List PositionRow

/-- The client's environment, whether the inquiry budget suffices, and what the pages of each
attempt bring. -/
structure BalanceSource where
  paper : Bool
  budget : Except PyError Bool
  page : Nat → Nat → Except PyError BalancePage

def BalancePage.last (page : BalancePage) : Bool :=
  let trCont := upper (String.ofList (strip page.trCont.toList))
  (trCont ≠ "F" ∧ trCont ≠ "M") ∨ (page.ctxFk = "" ∧ page.ctxNk = "")

/-- `_fetch_inquire_balance_pages`, with the pages left. -/
def fetchPages (page : Nat → Except PyError BalancePage) :
    Nat → Nat → List PositionRow → Bool → Except PyError BalanceReply
  | 0, _, positions, cash => .ok ⟨positions, cash, false⟩
  | left + 1, fetched, positions, cash =>
    match page fetched with
    | .error e => .error e
    | .ok found =>
      let positions := positions ++ found.output
      let cash := cash || found.output2
      if found.last then .ok ⟨positions, cash, true⟩
      else fetchPages page left (fetched + 1) positions cash

def maxPages : Nat := 50

/-- What is tried again in the paper environment. -/
def retried : PyError → Bool
  | .budgetExhausted bucket => bucket = "inquiry"
  | .broker e => e.errorType = .rateLimit
  | _ => false

namespace BalanceSource

variable (source : BalanceSource)

/-- The attempts left, from the given one on. -/
def attempts : Nat → Nat → Option BalanceReply
  | 0, _ => none
  | left + 1, attempt =>
    match fetchPages (source.page attempt) maxPages 0 [] false with
    | .ok reply => some reply
    | .error e => if source.paper ∧ retried e ∧ 0 < left then attempts left (attempt + 1) else none

/-- The answer of the broker, absent when the budget or every attempt failed. -/
def reply : Option BalanceReply :=
  match source.budget with
  | .ok true => source.attempts (if source.paper then 2 else 1) 0
  | _ => none

/-- `get_cash_and_positions`. Only the budget check can raise. -/
def getCashAndPositions : Except PyError CashAndPositionsResult :=
  match source.budget with
  | .error e => .error e
  | .ok _ =>
    match source.reply with
    | none => .ok ⟨false, []⟩
    | some reply => .ok ⟨reply.cash, reply.positions⟩

end BalanceSource

end AgentTrading.Snapshots

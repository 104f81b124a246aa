import AgentTrading.Kis.TokenBalance
import AgentTrading.Kis.UnknownState

/-! The reconciliation reserve. A request that the budget turns away takes a token of the reserve
and is repeated; whether it then leaves depends on the bucket that was empty. -/
namespace AgentTrading.Kis
open Domain Brokers Library

/-- A request to the endpoint was handed to the HTTP client. One for a token has no headers. -/
def Handed (endpointKey : String) (steps : RestSteps) : Prop :=
  ∃ request reply, (⟨.send request, reply⟩ : (op : RestOp) × RestReply op) ∈ steps ∧
    endpointUrl endpointKey = .ok request.url ∧ request.headers ≠ []

theorem handed_append {endpointKey : String} {steps later : RestSteps} :
    Handed endpointKey (steps ++ later) ↔ Handed endpointKey steps ∨ Handed endpointKey later := by
  simp only [Handed, List.mem_append, or_and_right, exists_or]

theorem not_handed_nil (endpointKey : String) : ¬Handed endpointKey [] := by
  rintro ⟨_, _, hmem, _⟩
  exact List.not_mem_nil hmem

/-- The circuit breaker lets a request by, its transaction and its endpoint are known, and the
client holds or gets an access token. -/
def Prepares (client : KISRestClient) (trIdKey endpointKey : String) (w : World) : Prop :=
  (restExec .circuitState w).1 ≠ .opened ∧ (∃ trId, client.getTrId trIdKey = .ok trId) ∧
    (∃ token, (client.authenticate.run restExec (restExec .circuitState w).2).1 = .ok token) ∧
    ∃ url, endpointUrl endpointKey = .ok url

/-! Programs that hand no request to an endpoint, and those that never run out of budget. -/

def RestOp.Bare : RestOp → Prop
  | .send request => request.headers = []
  | _ => True

theorem not_handed_of_only {α : Type} {Q : Except PyError α → Prop} {p : RestCode α}
    (hp : p.Only RestOp.Bare Q) (endpointKey : String) (w : World) :
    ¬Handed endpointKey (p.trace restExec w) := by
  rintro ⟨request, reply, hmem, _, hheaders⟩
  exact hheaders (hp.trace restExec w _ hmem)

def Unexhausted {α : Type} (r : Except PyError α) : Prop :=
  ∀ bucket, r ≠ .error (.budgetExhausted bucket)

theorem unexhausted_ok {α : Type} (a : α) : Unexhausted (.ok a : Except PyError α) := nofun

theorem unexhausted_other {α : Type} (className : String) :
    Unexhausted (.error (.other className) : Except PyError α) := nofun

theorem unexhausted_broker {α : Type} (e : BrokerError) :
    Unexhausted (.error (.broker e) : Except PyError α) := nofun

theorem Unexhausted.error {α β : Type} {e : PyError}
    (h : Unexhausted (.error e : Except PyError α)) :
    Unexhausted (.error e : Except PyError β) := by
  intro bucket heq
  exact h bucket (by rw [Except.error.inj heq])

section Orderly

variable {α β : Type} {P : RestOp → Prop}

theorem only_orRaises {x : Except PyError α} (hx : Unexhausted x) :
    (orRaises x).Only P Unexhausted := by
  cases x with
  | ok a => exact hx
  | error e => exact hx

theorem Unexhausted.bind {p : RestCode α} {f : α → RestCode β} (hp : p.Only P Unexhausted)
    (hf : ∀ a, (f a).Only P Unexhausted) : (p.bind f).Only P Unexhausted :=
  Program.Only.bind hp (fun a _ => hf a) fun _ he => he.error

end Orderly

theorem unexhausted_except_bind {α β : Type} {x : Except PyError α} {f : α → Except PyError β}
    (hx : Unexhausted x) (hf : ∀ a, Unexhausted (f a)) : Unexhausted (x >>= f) := by
  cases x with
  | ok a => exact hf a
  | error e => exact hx.error

theorem Json.isIn_unexhausted (j : Json) (codes : List String) : Unexhausted (j.isIn codes) := by
  cases j <;> exact nofun

theorem isRateLimitError_unexhausted (msgCd rtCd msg : Json) :
    Unexhausted (isRateLimitError msgCd rtCd msg) := by
  unfold isRateLimitError
  extract_lets judge
  have hjudge : ∀ normalized, Unexhausted (judge normalized) := by
    intro normalized
    simp only [judge]
    split
    · exact nofun
    · apply unexhausted_except_bind (Json.isIn_unexhausted _ _)
      intro found
      split
      · exact nofun
      · exact Json.isIn_unexhausted _ _
  split
  · split
    · exact hjudge _
    · exact nofun
  · exact hjudge []

theorem inEither_unexhausted (msgCd rtCd : Json) (codes : List String) :
    Unexhausted (inEither msgCd rtCd codes) := by
  apply unexhausted_except_bind (Json.isIn_unexhausted _ _)
  intro found
  split
  · exact nofun
  · exact Json.isIn_unexhausted _ _

theorem ne_of_chosen {test : Except PyError Bool} (htest : Unexhausted test)
    {yes no : Except PyError PyError} {bucket : String}
    (hyes : yes ≠ .ok (.budgetExhausted bucket) ∧ yes ≠ .error (.budgetExhausted bucket))
    (hno : no ≠ .ok (.budgetExhausted bucket) ∧ no ≠ .error (.budgetExhausted bucket)) :
    (test >>= fun chosen => if chosen then yes else no) ≠ .ok (.budgetExhausted bucket) ∧
      (test >>= fun chosen => if chosen then yes else no) ≠ .error (.budgetExhausted bucket) := by
  cases test with
  | error e => exact ⟨nofun, htest.error bucket⟩
  | ok chosen =>
    cases chosen with
    | true => exact hyes
    | false => exact hno

/-- An error response is never an exhausted budget. -/
theorem errorOf_ne (endpoint : String) (msgCd rtCd msg : Json) (fallback bucket : String) :
    errorOf endpoint msgCd rtCd msg fallback ≠ .budgetExhausted bucket := by
  have hclassify : errorOf.classify endpoint msgCd rtCd msg fallback ≠
        .ok (.budgetExhausted bucket) ∧
      errorOf.classify endpoint msgCd rtCd msg fallback ≠ .error (.budgetExhausted bucket) := by
    apply ne_of_chosen (inEither_unexhausted _ _ _)
    · exact ⟨nofun, nofun⟩
    · apply ne_of_chosen (isRateLimitError_unexhausted _ _ _)
      · exact ⟨nofun, nofun⟩
      · apply ne_of_chosen (inEither_unexhausted _ _ _)
        · exact ⟨nofun, nofun⟩
        · apply ne_of_chosen (inEither_unexhausted _ _ _)
          · exact ⟨nofun, nofun⟩
          · exact ⟨nofun, nofun⟩
  unfold errorOf
  split
  · next e he =>
    rintro rfl
    exact hclassify.1 he
  · next e he =>
    rintro rfl
    exact hclassify.2 he

theorem raiseOnError_unexhausted (resp : Response) (endpoint : String) :
    Unexhausted (raiseOnError resp endpoint) := by
  intro bucket
  unfold raiseOnError
  split
  · exact nofun
  · dsimp only
    split
    · exact fun h => errorOf_ne _ _ _ _ _ bucket (Except.error.inj h)
    · split
      · exact nofun
      · exact fun h => errorOf_ne _ _ _ _ _ bucket (Except.error.inj h)
  · exact nofun

theorem parseInt_unexhausted (s : String) : Unexhausted (parseInt s) := by
  unfold parseInt
  extract_lets signed
  have hsigned : ∀ negative cs, Unexhausted (signed negative cs) := by
    intro negative cs
    simp only [signed]
    split <;> exact nofun
  split <;> exact hsigned _ _

theorem Json.toInt_unexhausted (j : Json) : Unexhausted j.toInt := by
  unfold Json.toInt
  split
  case h_6 => exact parseInt_unexhausted _
  all_goals exact nofun

theorem Dict.getItem_unexhausted (d : Dict) (key : String) : Unexhausted (d.getItem key) := by
  unfold Dict.getItem
  split <;> exact nofun

theorem endpointUrl_unexhausted (endpointKey : String) : Unexhausted (endpointUrl endpointKey) := by
  unfold endpointUrl
  split <;> exact nofun

theorem HttpError.raised_unexhausted {α : Type} (e : HttpError) :
    Unexhausted (.error e.raised : Except PyError α) := by
  cases e <;> exact nofun

namespace KISRestClient

variable (client : KISRestClient)

theorem getTrId_unexhausted (key : String) : Unexhausted (client.getTrId key) := by
  unfold getTrId
  split
  · exact nofun
  · split
    · split <;> exact nofun
    · exact nofun

theorem requestToken_bare (wall mono : ℚ) :
    (client.requestToken wall mono).Only RestOp.Bare Unexhausted := by
  apply Unexhausted.bind (only_orRaises (endpointUrl_unexhausted _))
  intro url
  refine ⟨rfl, fun outcome => ?_⟩
  cases outcome with
  | error e => exact e.raised_unexhausted
  | ok resp =>
    apply Unexhausted.bind (only_orRaises (raiseOnError_unexhausted _ _))
    intro data
    apply Unexhausted.bind (only_orRaises (Dict.getItem_unexhausted _ _))
    intro token
    refine ⟨trivial, fun _ => ?_⟩
    apply Unexhausted.bind (only_orRaises (Json.toInt_unexhausted _))
    intro expiresIn
    exact ⟨trivial, fun _ => ⟨trivial, fun _ => ⟨trivial, fun _ => unexhausted_ok _⟩⟩⟩

theorem freshToken_bare (wall : ℚ) :
    (client.freshToken wall).Only RestOp.Bare Unexhausted := by
  refine ⟨trivial, fun mono => ⟨trivial, fun last => ?_⟩⟩
  simp only [Program.ret_bind]
  split
  · exact ⟨trivial, fun _ => ⟨trivial, fun mono => client.requestToken_bare wall mono⟩⟩
  · exact client.requestToken_bare wall mono

theorem authenticate_bare : client.authenticate.Only RestOp.Bare Unexhausted := by
  refine ⟨trivial, fun now => ⟨trivial, fun held => ?_⟩⟩
  simp only [Program.ret_bind]
  split
  · exact unexhausted_ok _
  · apply Unexhausted.bind
    · unfold authenticate.cachedToken
      split
      · exact ⟨trivial, fun _ => unexhausted_ok _⟩
      · exact unexhausted_ok _
    · intro cached
      cases cached with
      | none => exact client.freshToken_bare _
      | some t => exact ⟨trivial, fun _ => ⟨trivial, fun _ => unexhausted_ok _⟩⟩

theorem signedHeaders_bare (call : Call) :
    (buildRequest.signedHeaders client call).Only RestOp.Bare Unexhausted := by
  apply Unexhausted.bind (only_orRaises (client.getTrId_unexhausted _))
  intro trId
  apply Unexhausted.bind
  · apply Unexhausted.bind client.authenticate_bare
    exact fun _ => unexhausted_ok _
  · exact fun _ => unexhausted_ok _

theorem buildRequest_bare (call : Call) :
    (client.buildRequest call).Only RestOp.Bare Unexhausted := by
  refine ⟨trivial, fun state => ?_⟩
  simp only [Program.ret_bind]
  split
  · exact unexhausted_broker _
  · apply Unexhausted.bind (client.signedHeaders_bare call)
    intro headers
    apply Unexhausted.bind (only_orRaises (endpointUrl_unexhausted _))
    exact fun _ => unexhausted_ok _

theorem transmit_unexhausted (key : String) (request : HttpRequest) (left : Nat) :
    (transmit key request left).Only (fun _ => True) Unexhausted := by
  have hattempt : ∀ {onTimeout : RestCode Response},
      onTimeout.Only (fun _ => True) Unexhausted →
        (transmit.attempt key request onTimeout).Only (fun _ => True) Unexhausted := by
    intro onTimeout htimeout
    refine ⟨trivial, fun outcome => ?_⟩
    cases outcome with
    | ok resp => exact unexhausted_ok _
    | error e =>
      cases e with
      | timeout => exact htimeout
      | request message => exact ⟨trivial, fun _ => unexhausted_broker _⟩
      | runtime => exact unexhausted_other _
      | other c => exact unexhausted_other _
  induction left with
  | zero => exact hattempt ⟨trivial, fun _ => unexhausted_broker _⟩
  | succ left ih => exact hattempt ⟨trivial, fun _ => ih⟩

theorem decode_unexhausted (call : Call) (request : HttpRequest) (left : Nat) (resp : Response) :
    (client.decode call request left resp).Only (fun _ => True) Unexhausted := by
  have hplain : ∀ {α : Type} {p : RestCode α}, p.Only RestOp.Bare Unexhausted →
      p.Only (fun _ => True) Unexhausted :=
    fun hp => hp.mono (fun _ _ => trivial) fun _ => id
  have haccept : ∀ (resp : Response) {onError : PyError → RestCode Dict},
      (∀ e, Unexhausted (.error e : Except PyError Dict) →
        (onError e).Only (fun _ => True) Unexhausted) →
      (decode.accept call resp onError).Only (fun _ => True) Unexhausted := by
    intro resp onError herror
    have hraised := raiseOnError_unexhausted resp call.endpointKey
    unfold decode.accept
    split
    · exact ⟨trivial, fun _ => unexhausted_ok _⟩
    · next e he => exact herror e (he ▸ hraised)
  induction left generalizing resp with
  | zero =>
    apply haccept
    exact fun e he => he
  | succ left ih =>
    apply haccept
    intro e he
    split
    · apply Unexhausted.bind _ ih
      refine ⟨trivial, fun _ => ?_⟩
      apply Unexhausted.bind (hplain client.authenticate_bare)
      intro _
      apply Unexhausted.bind (hplain (client.signedHeaders_bare call))
      intro headers
      refine ⟨trivial, fun outcome => ?_⟩
      cases outcome with
      | ok resp => exact unexhausted_ok _
      | error e =>
        cases e with
        | request message => exact ⟨trivial, fun _ => unexhausted_broker _⟩
        | timeout => exact unexhausted_broker _
        | runtime => exact unexhausted_other _
        | other c => exact unexhausted_other _
    · exact he

theorem exchange_unexhausted (call : Call) :
    (client.exchange call).Only (fun _ => True) Unexhausted := by
  apply Unexhausted.bind ((client.buildRequest_bare call).mono (fun _ _ => trivial) fun _ => id)
  intro request
  apply Unexhausted.bind (transmit_unexhausted call.endpointKey request 2)
  exact client.decode_unexhausted call request _

theorem pacing_bare (call : Call) (skip : Bool) :
    (client.pacing call skip).Only RestOp.Bare fun _ => True := by
  unfold pacing
  split
  · refine ⟨trivial, fun now => ⟨trivial, fun last => ?_⟩⟩
    simp only [Program.ret_bind]
    split
    · exact ⟨trivial, fun _ => ⟨trivial, fun _ => ⟨trivial, fun _ => trivial⟩⟩⟩
    · exact ⟨trivial, fun _ => trivial⟩
  · trivial

theorem pollGlobalRest_bare (interval : ℚ) (deadline : Time) (polls : Nat) :
    (pollGlobalRest interval deadline polls).Only RestOp.Bare fun _ => True := by
  induction polls with
  | zero =>
    refine ⟨trivial, fun taken => ?_⟩
    simp only [Program.ret_bind]
    split <;> trivial
  | succ polls ih =>
    refine ⟨trivial, fun taken => ?_⟩
    simp only [Program.ret_bind]
    split
    · trivial
    · refine ⟨trivial, fun now => ?_⟩
      simp only [Program.ret_bind]
      split
      · trivial
      · exact ⟨trivial, fun _ => ih⟩

theorem consumeBudget_bare (bucket : BucketType) (held : Bool) (left : Nat) (skip : Bool) :
    (consumeBudget bucket held left skip).Only RestOp.Bare fun _ => True := by
  have hattempt : ∀ (skip : Bool) {onGlobal : RestCode Bool},
      onGlobal.Only RestOp.Bare (fun _ => True) →
        (consumeBudget.attempt bucket held skip onGlobal).Only RestOp.Bare fun _ => True := by
    intro skip onGlobal hglobal
    refine ⟨trivial, fun consumed => ?_⟩
    cases consumed with
    | ok _ => trivial
    | error e =>
      cases e with
      | budgetExhausted b =>
        simp only [Program.ret_bind]
        split
        · exact hglobal
        · trivial
      | _ => trivial
  induction left generalizing skip with
  | zero =>
    apply hattempt
    trivial
  | succ left ih =>
    apply hattempt
    apply Program.Only.bind (Q := fun _ => True)
    · refine ⟨trivial, fun interval => ?_⟩
      cases interval with
      | none => trivial
      | some interval => exact ⟨trivial, fun now => pollGlobalRest_bare _ _ _⟩
    · exact fun _ _ => ih true
    · exact fun _ _ => trivial

theorem buildRequest_ok_iff (call : Call) (w : World) :
    (∃ request, ((client.buildRequest call).run restExec w).1 = .ok request) ↔
      Prepares client call.trIdKey call.endpointKey w := by
  unfold Prepares
  by_cases hopen : (restExec .circuitState w).1 = .opened
  · simp [buildRequest, perform, Program.perform, hopen]
  · simp only [buildRequest, buildRequest.signedHeaders, buildHeaders, Program.bind_eq, perform,
      Program.perform, Program.call_bind, Program.ret_bind, Program.run_call, hopen, if_false,
      Program.bind_assoc, Program.run_bind]
    cases client.getTrId call.trIdKey with
    | error e => simp [orRaises]
    | ok trId =>
      simp only [orRaises, Program.run_ret]
      cases client.authenticate.run restExec (restExec .circuitState w).2 with
      | mk r v =>
        cases r with
        | error e => simp
        | ok token => cases endpointUrl call.endpointKey <;> simp [hopen]

theorem buildRequest_headers (call : Call) :
    (client.buildRequest call).Only (fun _ => True) fun r => ∀ request, r = .ok request →
      endpointUrl call.endpointKey = .ok request.url ∧ request.headers ≠ [] := by
  refine ⟨trivial, fun state => ?_⟩
  simp only [Program.ret_bind]
  split
  · exact nofun
  · apply Program.Only.bind (Q := fun r => ∀ headers, r = .ok headers → headers ≠ [])
    · apply Program.Only.bind (Program.only_true _) _ fun _ _ => nofun
      intro trId _
      apply Program.Only.bind (Q := fun r => ∀ headers, r = .ok headers → headers ≠ [])
      · apply Program.Only.bind (Program.only_true _) _ fun _ _ => nofun
        rintro token _ headers ⟨rfl⟩
        simp
      · intro headers hheaders
        rintro _ ⟨rfl⟩
        simp [hheaders headers rfl]
      · exact fun _ _ => nofun
    · intro headers hheaders
      cases hurl : endpointUrl call.endpointKey with
      | error e => exact nofun
      | ok url =>
        rintro request ⟨rfl⟩
        exact ⟨rfl, hheaders headers rfl⟩
    · exact fun _ _ => nofun

theorem handed_transmit {endpointKey : String} {request : HttpRequest}
    (hurl : endpointUrl endpointKey = .ok request.url) (hheaders : request.headers ≠ [])
    (left : Nat) (w : World) :
    Handed endpointKey ((transmit endpointKey request left).trace restExec w) := by
  cases left with
  | zero => exact ⟨request, _, List.mem_cons_self, hurl, hheaders⟩
  | succ left => exact ⟨request, _, List.mem_cons_self, hurl, hheaders⟩

theorem handed_exchange_iff (call : Call) (w : World) :
    Handed call.endpointKey ((client.exchange call).trace restExec w) ↔
      Prepares client call.trIdKey call.endpointKey w := by
  have hbare := not_handed_of_only (client.buildRequest_bare call) call.endpointKey w
  have hresult := (client.buildRequest_headers call).run_result restExec w
  rw [← buildRequest_ok_iff, exchange, Program.bind_eq, Program.trace_bind, handed_append]
  cases hbuild : (client.buildRequest call).run restExec w with
  | mk r v =>
    rw [hbuild] at hresult
    cases r with
    | error e => simp [hbare, not_handed_nil]
    | ok request =>
      obtain ⟨hurl, hheaders⟩ := hresult request rfl
      have hsent := handed_transmit hurl hheaders 2 v
      simp only [Program.bind_eq, Program.trace_bind, handed_append, hsent, true_or, or_true,
        Except.ok.injEq, exists_eq']

theorem handed_of_exchange_ok {call : Call} {w v : World} {data : Dict}
    (h : (client.exchange call).run restExec w = (.ok data, v)) :
    Handed call.endpointKey ((client.exchange call).trace restExec w) := by
  rw [handed_exchange_iff, ← buildRequest_ok_iff]
  have hok : ∃ data, ((client.exchange call).run restExec w).1 = .ok data :=
    ⟨data, congrArg Prod.fst h⟩
  rw [exchange, Program.bind_eq, Program.run_bind_ok_iff] at hok
  obtain ⟨request, u, hbuild, _⟩ := hok
  exact ⟨request, congrArg Prod.fst hbuild⟩

theorem prepares_withBudget (call : Call) {w : World} (hw : w.Alone) (m : RateLimitBudgetManager) :
    Prepares client call.trIdKey call.endpointKey (w.withBudget m) ↔
      Prepares client call.trIdKey call.endpointKey w := by
  rw [← buildRequest_ok_iff, ← buildRequest_ok_iff,
    (client.buildRequest_unbudgeted call).run_withBudget hw m]

/-- The budget turns the request away. -/
def Refused (m : RateLimitBudgetManager) (type : BucketType) (skip : Bool) : Prop :=
  m.shortOfGlobal skip ∨ m.count (.operation type) < 1

theorem handed_budgetedExchange_iff (hmanager : client.hasBudgetManager) {call : Call}
    {skip kept : Bool} {w v : World}
    (h : (consumeBudget call.bucket call.heldPositionSell 2 skip).run restExec w = (.ok kept, v)) :
    Handed call.endpointKey ((client.budgetedExchange call skip).trace restExec w) ↔
      Handed call.endpointKey ((client.exchange call).trace restExec v) := by
  have hbare := not_handed_of_only
    (consumeBudget_bare call.bucket call.heldPositionSell 2 skip) call.endpointKey w
  rw [budgetedExchange, if_pos hmanager, Program.bind_eq, Program.trace_bind, h, handed_append,
    or_iff_right hbare]
  dsimp only
  rw [Program.trace_handle, handed_append]
  apply or_iff_left
  split
  · exact not_handed_nil _
  · next e u _ =>
    apply not_handed_of_only (Q := fun _ => True)
    exact ⟨trivial, fun _ => trivial⟩

theorem handed_request_iff (call : Call) (skip : Bool) (w : World) :
    Handed call.endpointKey ((client.request call skip).trace restExec w) ↔
      Handed call.endpointKey ((client.budgetedExchange call skip).trace restExec
        ((client.pacing call skip).run restExec w).2) := by
  have hpacing := client.pacing_ok call skip w
  have hbare := not_handed_of_only (client.pacing_bare call skip) call.endpointKey w
  rw [request, Program.bind_eq, Program.trace_bind, handed_append, or_iff_right hbare]
  cases hrun : (client.pacing call skip).run restExec w with
  | mk r v =>
    rw [hrun] at hpacing
    cases hpacing
    rfl

/-- The program runs out of budget; it takes nothing and sends nothing. -/
structure TurnedAway {α : Type} (endpointKey : String) (p : RestCode α) (w : World) : Prop where
  exhausted : ∃ bucket, (p.run restExec w).1 = .error (.budgetExhausted bucket)
  alone : (p.run restExec w).2.Alone
  idle : (p.run restExec w).2.session.budget.Idle
  count : (p.run restExec w).2.session.budget.count = w.session.budget.count
  unsent : ¬Handed endpointKey (p.trace restExec w)

section Request

variable {w : World} (hw : w.Alone) (hidle : w.session.budget.Idle)
  (hmanager : client.hasBudgetManager) {call : Call} (skip : Bool)
  (hlane : call.bucket ≠ .order ∧ call.bucket ≠ .restGlobal)
include hw hidle hmanager hlane

theorem budgetedExchange_turnedAway (hrefused : Refused w.session.budget call.bucket skip) :
    ∃ bucket v, (client.budgetedExchange call skip).run restExec w =
        (.error (.budgetExhausted bucket), v) ∧ v.session.budget.Idle ∧
      v.session.budget.count = w.session.budget.count ∧
      ¬Handed call.endpointKey ((client.budgetedExchange call skip).trace restExec w) := by
  have hconsume : ∃ bucket v, (consumeBudget call.bucket call.heldPositionSell 2 skip).run
      restExec w = (.error (.budgetExhausted bucket), v) ∧ v.session.budget.Idle ∧
        v.session.budget.count = w.session.budget.count := by
    by_cases hshort : w.session.budget.shortOfGlobal skip
    · obtain ⟨v, hrun, hv⟩ :=
        consumeBudget_short hw hidle hshort call.bucket call.heldPositionSell 2
      exact ⟨_, v, hrun, hv.idle, hv.count_eq⟩
    · have hnone := hrefused.resolve_left hshort
      have huses : ¬w.session.budget.usesReserve call.bucket call.heldPositionSell :=
        fun h => hlane.1 h.2.1
      obtain ⟨m, htaken, hm, hcount⟩ := RateLimitBudgetManager.consumeOrRaise_none hidle hshort
        huses hlane.2 hnone (w.interludes 0).clock
      have hvalue : call.bucket.value ≠ "global" := by
        cases hb : call.bucket with
        | restGlobal => exact absurd hb hlane.2
        | _ => simp [BucketType.value]
      exact ⟨_, _, consumeBudget_through hw 2 htaken (by simpa using hvalue), hm, hcount⟩
  obtain ⟨bucket, v, hrun, hv, hcount⟩ := hconsume
  refine ⟨bucket, v, client.budgetedExchange_refused hmanager hrun, hv, hcount, ?_⟩
  have hbare := not_handed_of_only
    (consumeBudget_bare call.bucket call.heldPositionSell 2 skip) call.endpointKey w
  simp only [budgetedExchange, hmanager, if_true, Program.bind_eq, Program.trace_bind, hrun,
    List.append_nil]
  exact hbare

/-- One that is let through is handed on just when it can be built, and gives its tokens back
when it fails. -/
theorem budgetedExchange_let (hadmitted : ¬Refused w.session.budget call.bucket skip) :
    ∃ r v, (client.budgetedExchange call skip).run restExec w = (r, v) ∧
      v.session.budget.Idle ∧ Unexhausted r ∧
      (match r with
        | .ok _ => v.session.budget.count =
              w.session.budget.count - w.session.budget.charge call.bucket skip
                call.heldPositionSell ∧
            Handed call.endpointKey ((client.budgetedExchange call skip).trace restExec w)
        | .error _ => v.session.budget.count = w.session.budget.count) ∧
      (Handed call.endpointKey ((client.budgetedExchange call skip).trace restExec w) ↔
        Prepares client call.trIdKey call.endpointKey w.enter) := by
  obtain ⟨hshort, hsome⟩ := not_or.mp hadmitted
  have huses : ¬w.session.budget.usesReserve call.bucket call.heldPositionSell :=
    fun h => hlane.1 h.2.1
  obtain ⟨m, htaken, hm⟩ := RateLimitBudgetManager.consumeOrRaise_some hidle hshort huses hlane.2
    (not_lt.mp hsome) (w.interludes 0).clock
  have hconsume := consumeBudget_through hw 2 htaken (by simp)
  have henter : w.enter.Alone := hw.restExec .now
  have hhanded := client.handed_budgetedExchange_iff hmanager hconsume
  obtain ⟨r, v, hrun, hv, hcount⟩ := client.budgetedExchange_some hw hidle hmanager hshort huses
    hlane.2 (not_lt.mp hsome)
  have hadmitted := client.budgetedExchange_admitted hmanager hconsume
  have hunexhausted := (client.exchange_unexhausted call).run_result restExec
    (w.enter.withBudget m)
  rw [hrun] at hadmitted
  refine ⟨r, v, hrun, hv, ?_, ?_, ?_⟩
  · cases hexchange : (client.exchange call).run restExec (w.enter.withBudget m) with
    | mk result u =>
      rw [hexchange] at hadmitted hunexhausted
      cases result <;> cases hadmitted <;> exact hunexhausted
  · cases hexchange : (client.exchange call).run restExec (w.enter.withBudget m) with
    | mk result u =>
      rw [hexchange] at hadmitted
      cases result with
      | ok data =>
        cases hadmitted
        exact ⟨hcount, hhanded.mpr (client.handed_of_exchange_ok hexchange)⟩
      | error e =>
        cases hadmitted
        exact hcount
  · rw [hhanded, handed_exchange_iff, client.prepares_withBudget call henter m]

theorem request_turnedAway (hrefused : Refused w.session.budget call.bucket skip) :
    TurnedAway call.endpointKey (client.request call skip) w := by
  have hpaced := hw.run (client.pacing call skip)
  have hbudget := (client.pacing_unbudgeted call skip).run_budget hw
  rw [← hbudget] at hidle hrefused
  obtain ⟨bucket, v, hrun, hv, hcount, hnot⟩ :=
    client.budgetedExchange_turnedAway hpaced hidle hmanager skip hlane hrefused
  have halone := hpaced.run (client.budgetedExchange call skip)
  rw [← request_run] at halone hrun
  constructor
  · exact ⟨bucket, congrArg Prod.fst hrun⟩
  · exact halone
  · rw [hrun]
    exact hv
  · rw [hrun, ← hbudget]
    exact hcount
  · rwa [handed_request_iff]

theorem request_let (hadmitted : ¬Refused w.session.budget call.bucket skip) :
    ∃ r v, (client.request call skip).run restExec w = (r, v) ∧ v.session.budget.Idle ∧
      Unexhausted r ∧
      (match r with
        | .ok _ => v.session.budget.count =
              w.session.budget.count - w.session.budget.charge call.bucket skip
                call.heldPositionSell ∧
            Handed call.endpointKey ((client.request call skip).trace restExec w)
        | .error _ => v.session.budget.count = w.session.budget.count) ∧
      (Handed call.endpointKey ((client.request call skip).trace restExec w) ↔
        Prepares client call.trIdKey call.endpointKey
          ((client.pacing call skip).run restExec w).2.enter) := by
  have hpaced := hw.run (client.pacing call skip)
  have hbudget := (client.pacing_unbudgeted call skip).run_budget hw
  rw [← hbudget] at hidle hadmitted ⊢
  rw [handed_request_iff, request_run]
  exact client.budgetedExchange_let hpaced hidle hmanager skip hlane hadmitted

end Request

theorem reserveReconciliation_bare :
    client.reserveReconciliation.Only RestOp.Bare fun _ => True := by
  unfold reserveReconciliation
  split
  · refine ⟨trivial, fun reserved => ?_⟩
    cases reserved <;> trivial
  · trivial

section Reserve

variable {w : World} (hw : w.Alone) (hidle : w.session.budget.Idle)
  (hmanager : client.hasBudgetManager)
include hw hidle hmanager

theorem reserveReconciliation_some
    (hsome : 1 ≤ w.session.budget.count (.operation .reconciliation)) :
    ∃ v, client.reserveReconciliation.run restExec w = (.ok (), v) ∧ v.Alone ∧
      v.session.budget.Idle ∧ v.session.budget.count =
        w.session.budget.count - Pi.single (.operation .reconciliation) 1 := by
  have hbucket : w.session.budget.bucket .reconciliation =
      .ok w.session.budget.reconciliation := rfl
  obtain ⟨b, htake, hb, hremaining, _⟩ := (hidle.bucket .reconciliation _ hbucket).tryConsume_some
    ((w.interludes 0).clock 0) hsome
  refine ⟨w.enter.withBudget (w.session.budget.setBucket .reconciliation b), ?_, ?_, ?_, ?_⟩
  · simp [reserveReconciliation, hmanager, perform, Program.perform, restExec, restRespond,
      hw.enter_session, RateLimitBudgetManager.reserveReconciliationOrRaise, htake, orRaises,
      World.withBudget, RateLimitBudgetManager.setBucket]
  · exact hw.restExec .now
  · exact hidle.setBucket hbucket hb
  · rw [World.withBudget_budget, RateLimitBudgetManager.count_setBucket hbucket, hremaining]
    simp [sub_eq_add_neg, Pi.single_neg]

theorem reserveReconciliation_none
    (hnone : w.session.budget.count (.operation .reconciliation) < 1) :
    ∃ v, client.reserveReconciliation.run restExec w =
        (.error (.budgetExhausted "reconciliation"), v) ∧ v.session.budget.Idle ∧
      v.session.budget.count = w.session.budget.count := by
  have hbucket : w.session.budget.bucket .reconciliation =
      .ok w.session.budget.reconciliation := rfl
  have hreserve := hidle.bucket .reconciliation _ hbucket
  refine ⟨w.enter.withBudget (w.session.budget.setBucket .reconciliation
    (w.session.budget.reconciliation.refill ((w.interludes 0).clock 0))), ?_, ?_, ?_⟩
  · simp [reserveReconciliation, hmanager, perform, Program.perform, restExec, restRespond,
      hw.enter_session, RateLimitBudgetManager.reserveReconciliationOrRaise,
      hreserve.tryConsume_none _ hnone, orRaises, World.withBudget,
      RateLimitBudgetManager.setBucket, BucketType.value]
  · exact hidle.setBucket hbucket (hreserve.refill _)
  · rw [World.withBudget_budget, RateLimitBudgetManager.count_setBucket hbucket,
      hreserve.refill_remaining]
    simp

end Reserve

/-! A program that is repeated once the reserve is charged. -/

/-- The world in which the program is repeated. -/
def atRetry {α : Type} (p : RestCode α) (w : World) : World :=
  (client.reserveReconciliation.run restExec (p.run restExec w).2).2

/-- The tokens of the reserve. -/
def reserveTokens (w : World) : Int := w.session.budget.count (.operation .reconciliation)

section Retry

variable {α : Type} {endpointKey : String} {p : RestCode α} {w : World} (retry : RestCode α)

theorem fallback_unexhausted (hp : Unexhausted (p.run restExec w).1) :
    (p.handle (client.onBudgetExhausted retry)).run restExec w = p.run restExec w ∧
      (p.handle (client.onBudgetExhausted retry)).trace restExec w = p.trace restExec w := by
  rw [Program.run_handle, Program.trace_handle]
  cases hrun : p.run restExec w with
  | mk r v =>
    rw [hrun] at hp
    cases r with
    | ok a => simp
    | error e =>
      cases e with
      | budgetExhausted bucket => exact absurd rfl (hp bucket)
      | _ => simp [onBudgetExhausted]

theorem TurnedAway.fallback_none {client : KISRestClient} (hmanager : client.hasBudgetManager)
    (h : TurnedAway endpointKey p w) (hnone : reserveTokens w < 1) :
    TurnedAway endpointKey (p.handle (client.onBudgetExhausted retry)) w := by
  obtain ⟨bucket, hbucket⟩ := h.exhausted
  unfold reserveTokens at hnone
  rw [← h.count] at hnone
  obtain ⟨v, hreserve, hidle, hcount⟩ :=
    client.reserveReconciliation_none h.alone h.idle hmanager hnone
  have hbare := not_handed_of_only client.reserveReconciliation_bare endpointKey
    (p.run restExec w).2
  have hunsent := h.unsent
  have halone := h.alone.run client.reserveReconciliation
  rw [h.count] at hcount
  cases hrun : p.run restExec w with
  | mk r u =>
    rw [hrun] at hbucket hreserve hbare halone
    obtain rfl : r = _ := hbucket
    dsimp only at hreserve hbare halone
    rw [hreserve] at halone
    have hend : (p.handle (client.onBudgetExhausted retry)).run restExec w =
        (.error (.budgetExhausted "reconciliation"), v) := by
      simp only [Program.run_handle, hrun, onBudgetExhausted, Program.bind_eq, Program.run_bind,
        hreserve]
    constructor
    · exact ⟨_, congrArg Prod.fst hend⟩
    · rw [hend]
      exact halone
    · rw [hend]
      exact hidle
    · rw [hend]
      exact hcount
    · rw [Program.trace_handle, hrun, handed_append, or_iff_right hunsent]
      simp only [onBudgetExhausted, Program.bind_eq, Program.trace_bind, hreserve,
        List.append_nil]
      exact hbare

theorem TurnedAway.fallback_some {client : KISRestClient} (hmanager : client.hasBudgetManager)
    (h : TurnedAway endpointKey p w) (hsome : 1 ≤ reserveTokens w) :
    (client.atRetry p w).Alone ∧ (client.atRetry p w).session.budget.Idle ∧
      (client.atRetry p w).session.budget.count =
        w.session.budget.count - Pi.single (.operation .reconciliation) 1 ∧
      (p.handle (client.onBudgetExhausted retry)).run restExec w =
        retry.run restExec (client.atRetry p w) ∧
      (Handed endpointKey ((p.handle (client.onBudgetExhausted retry)).trace restExec w) ↔
        Handed endpointKey (retry.trace restExec (client.atRetry p w))) := by
  obtain ⟨bucket, hbucket⟩ := h.exhausted
  have hsome' := hsome
  unfold reserveTokens at hsome'
  rw [← h.count] at hsome'
  obtain ⟨v, hreserve, hv, hidle, hcount⟩ :=
    client.reserveReconciliation_some h.alone h.idle hmanager hsome'
  have hbare := not_handed_of_only client.reserveReconciliation_bare endpointKey
    (p.run restExec w).2
  have hunsent := h.unsent
  rw [h.count] at hcount
  rw [Program.run_handle, Program.trace_handle]
  unfold atRetry
  rw [hreserve]
  refine ⟨hv, hidle, hcount, ?_⟩
  cases hrun : p.run restExec w with
  | mk r u =>
    rw [hrun] at hbucket hreserve hbare
    obtain rfl : r = _ := hbucket
    dsimp only at hreserve hbare ⊢
    simp only [onBudgetExhausted, Program.bind_eq, Program.run_bind, hreserve, true_and]
    rw [handed_append, or_iff_right hunsent, Program.trace_bind, handed_append, or_iff_right hbare,
      hreserve]

end Retry

/-- The inquiry or the global bucket is empty: with a token in the reserve the request is handed
on, and that token is all the reserve loses. A reserve that loses a token has bought a request. -/
structure FallbackLaw (call : Call) (w : World) : Prop where
  sent : Refused w.session.budget .inquiry false → 1 ≤ reserveTokens w →
    Handed call.endpointKey ((client.requestWithFallback call).trace restExec w) ∧
      reserveTokens ((client.requestWithFallback call).run restExec w).2 = reserveTokens w - 1
  kept : ¬Handed call.endpointKey ((client.requestWithFallback call).trace restExec w) →
    reserveTokens ((client.requestWithFallback call).run restExec w).2 = reserveTokens w

theorem charge_reserve (m : RateLimitBudgetManager) {type : BucketType}
    (htype : type ≠ .reconciliation) (skip held : Bool) :
    m.charge type skip held (.operation .reconciliation) = 0 := by
  unfold RateLimitBudgetManager.charge RateLimitBudgetManager.globalCharge
  split <;> split <;> simp [htype.symm]

theorem refused_true {m : RateLimitBudgetManager} {type : BucketType} :
    Refused m type true ↔ m.count (.operation type) < 1 := by
  simp [Refused, RateLimitBudgetManager.shortOfGlobal, RateLimitBudgetManager.chargesGlobal]

theorem pacing_true (call : Call) (w : World) :
    ((client.pacing call true).run restExec w).2 = w := by
  simp [pacing]

section Fallback

variable {w : World} (hw : w.Alone) (hidle : w.session.budget.Idle)
  (hmanager : client.hasBudgetManager) {call : Call} (hbucket : call.bucket = .inquiry)
include hw hidle hmanager hbucket

theorem fallback_let (hadmitted : ¬Refused w.session.budget .inquiry false) :
    reserveTokens ((client.requestWithFallback call).run restExec w).2 = reserveTokens w := by
  have hlane : call.bucket ≠ .order ∧ call.bucket ≠ .restGlobal := by
    rw [hbucket]
    exact ⟨nofun, nofun⟩
  obtain ⟨r, v, hrun, -, hr, hcount, -⟩ :=
    client.request_let hw hidle hmanager false hlane (by rwa [hbucket])
  have hplain : (client.requestWithFallback call).run restExec w = (r, v) :=
    (client.fallback_unexhausted _ (by rwa [hrun])).1.trans hrun
  rw [hplain]
  unfold reserveTokens
  cases r with
  | ok data =>
    rw [hcount.1, Pi.sub_apply, charge_reserve _ (by rw [hbucket]; exact nofun), sub_zero]
  | error e => rw [hcount]

/-- One that is repeated takes a token of the reserve, and is handed on just when the inquiry
bucket has a token too and the request can be built. -/
theorem fallback_repeated (hrefused : Refused w.session.budget .inquiry false)
    (hsome : 1 ≤ reserveTokens w) :
    reserveTokens ((client.requestWithFallback call).run restExec w).2 = reserveTokens w - 1 ∧
      (Handed call.endpointKey ((client.requestWithFallback call).trace restExec w) ↔
        1 ≤ w.session.budget.count (.operation .inquiry) ∧
          Prepares client call.trIdKey call.endpointKey
            (client.atRetry (client.request call false) w).enter) := by
  have hlane : call.bucket ≠ .order ∧ call.bucket ≠ .restGlobal := by
    rw [hbucket]
    exact ⟨nofun, nofun⟩
  have hfirst : TurnedAway call.endpointKey (client.request call false) w :=
    client.request_turnedAway hw hidle hmanager false hlane (by rwa [hbucket])
  obtain ⟨halone, hvidle, hcount, hrun, hhanded⟩ :=
    hfirst.fallback_some (client.request call true) hmanager hsome
  have hinquiry : (client.atRetry (client.request call false) w).session.budget.count
      (.operation .inquiry) = w.session.budget.count (.operation .inquiry) := by
    rw [hcount]
    simp
  have hreserve : reserveTokens (client.atRetry (client.request call false) w) =
      reserveTokens w - 1 := by
    unfold reserveTokens
    rw [hcount]
    simp
  unfold requestWithFallback
  rw [hrun, hhanded]
  by_cases hnone : w.session.budget.count (.operation .inquiry) < 1
  · have hagain := client.request_turnedAway halone hvidle hmanager true hlane
      (by rwa [hbucket, refused_true, hinquiry])
    constructor
    · rw [← hreserve]
      exact congrFun hagain.count (.operation .reconciliation)
    · exact iff_of_false hagain.unsent fun h => absurd h.1 (not_le.mpr hnone)
  · obtain ⟨r, v, hretry, -, -, hcharged, hsent⟩ := client.request_let halone hvidle
      hmanager true hlane (by rwa [hbucket, refused_true, hinquiry])
    rw [pacing_true] at hsent
    constructor
    · rw [hretry, ← hreserve]
      unfold reserveTokens
      cases r with
      | ok data =>
        rw [hcharged.1, Pi.sub_apply, charge_reserve _ (by rw [hbucket]; exact nofun), sub_zero]
      | error e => rw [hcharged]
    · rw [hsent]
      exact (and_iff_right (not_lt.mp hnone)).symm

theorem fallbackLaw_iff :
    client.FallbackLaw call w ↔
      (Refused w.session.budget .inquiry false → 1 ≤ reserveTokens w →
        1 ≤ w.session.budget.count (.operation .inquiry) ∧
          Prepares client call.trIdKey call.endpointKey
            (client.atRetry (client.request call false) w).enter) := by
  have hlane : call.bucket ≠ .order ∧ call.bucket ≠ .restGlobal := by
    rw [hbucket]
    exact ⟨nofun, nofun⟩
  by_cases hrefused : Refused w.session.budget .inquiry false
  · by_cases hsome : 1 ≤ reserveTokens w
    · obtain ⟨hspent, hhanded⟩ :=
        client.fallback_repeated hw hidle hmanager hbucket hrefused hsome
      constructor
      · exact fun law _ _ => hhanded.mp (law.sent hrefused hsome).1
      · intro hready
        have hsent := hhanded.mpr (hready hrefused hsome)
        exact ⟨fun _ _ => ⟨hsent, hspent⟩, fun hunsent => absurd hsent hunsent⟩
    · have hfirst : TurnedAway call.endpointKey (client.request call false) w :=
        client.request_turnedAway hw hidle hmanager false hlane (by rwa [hbucket])
      have hend := hfirst.fallback_none (client.request call true) hmanager
        (not_le.mp hsome)
      apply iff_of_true
      · exact ⟨fun _ h => absurd h hsome, fun _ => congrFun hend.count _⟩
      · exact fun _ h => absurd h hsome
  · apply iff_of_true
    · refine ⟨fun h => absurd h hrefused, fun _ => ?_⟩
      exact client.fallback_let hw hidle hmanager hbucket hrefused
    · exact fun h => absurd h hrefused

end Fallback

/-- The program hands its request on just when it is `ready`, and otherwise fails without taking
anything. -/
structure LetBy {α : Type} (endpointKey : String) (ready : Prop) (p : RestCode α) (w : World) :
    Prop where
  handed : Handed endpointKey (p.trace restExec w) ↔ ready
  failed : ¬ready → ∃ e, (p.run restExec w).1 = .error e ∧ Unexhausted (p.run restExec w).1
  count : ¬ready → (p.run restExec w).2.session.budget.count = w.session.budget.count

theorem request_letBy {w : World} (hw : w.Alone) (hidle : w.session.budget.Idle)
    (hmanager : client.hasBudgetManager) (call : Call) (skip : Bool)
    (hlane : call.bucket ≠ .order ∧ call.bucket ≠ .restGlobal)
    (hadmitted : ¬Refused w.session.budget call.bucket skip) :
    LetBy call.endpointKey (Prepares client call.trIdKey call.endpointKey
      ((client.pacing call skip).run restExec w).2.enter) (client.request call skip) w := by
  obtain ⟨r, v, hrun, -, hr, hcount, hhanded⟩ :=
    client.request_let hw hidle hmanager skip hlane hadmitted
  have hfails : ¬Prepares client call.trIdKey call.endpointKey
      ((client.pacing call skip).run restExec w).2.enter → ∃ e, r = .error e := by
    intro hready
    cases r with
    | ok data => exact absurd (hhanded.mp hcount.2) hready
    | error e => exact ⟨e, rfl⟩
  constructor
  · exact hhanded
  · intro hready
    rw [hrun]
    obtain ⟨e, he⟩ := hfails hready
    exact ⟨e, he, hr⟩
  · intro hready
    rw [hrun]
    obtain ⟨e, rfl⟩ := hfails hready
    exact hcount

section Composed

variable {α β : Type} {endpointKey : String} {ready : Prop} {p : RestCode α} {w : World}

theorem TurnedAway.bind (h : TurnedAway endpointKey p w) (f : α → RestCode β) :
    TurnedAway endpointKey (p.bind f) w := by
  obtain ⟨bucket, hbucket⟩ := h.exhausted
  obtain ⟨-, halone, hidle, hcount, hunsent⟩ := h
  cases hrun : p.run restExec w with
  | mk r v =>
    rw [hrun] at hbucket halone hidle hcount
    obtain rfl : r = _ := hbucket
    have hend : (p.bind f).run restExec w = (.error (.budgetExhausted bucket), v) := by
      rw [Program.run_bind, hrun]
    constructor
    · exact ⟨bucket, congrArg Prod.fst hend⟩
    · rwa [hend]
    · rwa [hend]
    · rwa [hend]
    · rw [Program.trace_bind, hrun, List.append_nil]
      exact hunsent

theorem handed_now {k : Time → RestCode α} :
    Handed endpointKey (((perform .now).bind k).trace restExec w) ↔
      Handed endpointKey ((k ((w.interludes 0).clock 0)).trace restExec w.enter) := by
  simp only [perform, Program.perform, Program.call_bind, Program.trace_call, Program.ret_bind]
  constructor
  · rintro ⟨request, reply, hmem, hsent⟩
    rcases List.mem_cons.mp hmem with heq | hmem
    · cases congrArg Sigma.fst heq
    · exact ⟨request, reply, hmem, hsent⟩
  · rintro ⟨request, reply, hmem, hsent⟩
    exact ⟨request, reply, List.mem_cons_of_mem _ hmem, hsent⟩

theorem run_now {k : Time → RestCode α} : ((perform .now).bind k).run restExec w =
    (k ((w.interludes 0).clock 0)).run restExec w.enter := rfl

theorem TurnedAway.now {k : Time → RestCode α} (hw : w.Alone)
    (h : TurnedAway endpointKey (k ((w.interludes 0).clock 0)) w.enter) :
    TurnedAway endpointKey ((perform .now).bind k) w := by
  constructor
  · exact h.exhausted
  · exact h.alone
  · exact h.idle
  · rw [run_now, h.count, hw.enter_session]
  · rw [handed_now]
    exact h.unsent

theorem LetBy.now {k : Time → RestCode α} (hw : w.Alone)
    (h : LetBy endpointKey ready (k ((w.interludes 0).clock 0)) w.enter) :
    LetBy endpointKey ready ((perform .now).bind k) w := by
  constructor
  · rw [handed_now]
    exact h.handed
  · exact h.failed
  · intro hready
    rw [run_now, h.count hready, hw.enter_session]

theorem LetBy.bind (h : LetBy endpointKey ready p w) (f : α → RestCode β) :
    LetBy endpointKey ready (p.bind f) w := by
  by_cases hready : ready
  · refine ⟨iff_of_true ?_ hready, fun h => absurd hready h, fun h => absurd hready h⟩
    rw [Program.trace_bind, handed_append]
    exact Or.inl (h.handed.mpr hready)
  · obtain ⟨e, he, hunexhausted⟩ := h.failed hready
    have hcount := h.count hready
    have hunsent := mt h.handed.mp hready
    cases hrun : p.run restExec w with
    | mk r v =>
      rw [hrun] at he hunexhausted hcount
      obtain rfl : r = _ := he
      have hend : (p.bind f).run restExec w = (.error e, v) := by
        rw [Program.run_bind, hrun]
      constructor
      · rw [Program.trace_bind, hrun, List.append_nil]
        exact iff_of_false hunsent hready
      · intro _
        rw [hend]
        exact ⟨e, rfl, hunexhausted.error⟩
      · intro _
        rwa [hend]

theorem LetBy.fallback (h : LetBy endpointKey ready p w) (retry : RestCode α) :
    LetBy endpointKey ready (p.handle (client.onBudgetExhausted retry)) w := by
  by_cases hready : ready
  · refine ⟨iff_of_true ?_ hready, fun h => absurd hready h, fun h => absurd hready h⟩
    rw [Program.trace_handle, handed_append]
    exact Or.inl (h.handed.mpr hready)
  · obtain ⟨e, he, hunexhausted⟩ := h.failed hready
    obtain ⟨hrun, htrace⟩ := client.fallback_unexhausted retry hunexhausted
    constructor
    · rw [htrace]
      exact h.handed
    · intro _
      rw [hrun]
      exact ⟨e, he, hunexhausted⟩
    · intro _
      rw [hrun]
      exact h.count hready

end Composed

theorem inquireDailyCcld_pages (query : CcldQuery) (strtDt endDt : Option String) (skip : Bool) :
    ∃ rest : Time → Dict → RestCode (List Json), ∃ call : Time → Call,
      (∀ now, (call now).bucket = query.bucket ∧ (call now).trIdKey = "inquire_daily_ccld" ∧
        (call now).endpointKey = "inquire_daily_ccld") ∧
      client.inquireDailyCcld query strtDt endDt true skip =
        (perform .now).bind fun now => (client.request (call now) skip).bind (rest now) := by
  obtain ⟨maxRecords, hpolicy⟩ : ∃ maxRecords, client.resolveCcldPolicy true = (3, maxRecords) := by
    by_cases hlive : client.env = "live" <;> simp [resolveCcldPolicy, hlive]
  have hpages := Eq.refl (client.inquireDailyCcld query strtDt endDt true skip)
  conv at hpages =>
    rhs
    simp only [inquireDailyCcld, hpolicy, ccldPages, Program.bind_eq, Program.bind_assoc]
  exact ⟨_, fun now => client.ccldCall query (orText strtDt (kstDate now))
    (orText endDt (kstDate now)) "" "", fun _ => ⟨rfl, rfl, rfl⟩, hpages⟩

section Settlement

variable {query : CcldQuery} (hquery : query.bucket = .reconciliation)
  (strtDt endDt : Option String) (skip : Bool) {w : World} (hw : w.Alone)
  (hidle : w.session.budget.Idle) (hmanager : client.hasBudgetManager)
include hquery hw hidle hmanager

theorem inquireDailyCcld_turnedAway
    (hrefused : Refused w.session.budget .reconciliation skip) :
    TurnedAway "inquire_daily_ccld" (client.inquireDailyCcld query strtDt endDt true skip) w := by
  obtain ⟨rest, call, hcall, hpages⟩ := client.inquireDailyCcld_pages query strtDt endDt skip
  obtain ⟨hbucket, -, hkey⟩ := hcall ((w.interludes 0).clock 0)
  rw [hquery] at hbucket
  rw [hpages]
  apply TurnedAway.now hw
  apply TurnedAway.bind
  rw [← hkey]
  apply client.request_turnedAway _ _ hmanager
  · rw [hbucket]
    exact ⟨nofun, nofun⟩
  · rwa [hbucket, hw.enter_session]
  · exact hw.restExec .now
  · rwa [hw.enter_session]

theorem inquireDailyCcld_let
    (hadmitted : ¬Refused w.session.budget .reconciliation skip) :
    ∃ ready, LetBy "inquire_daily_ccld" ready
        (client.inquireDailyCcld query strtDt endDt true skip) w ∧
      (skip = true → (ready ↔
        Prepares client "inquire_daily_ccld" "inquire_daily_ccld" w.enter.enter)) := by
  obtain ⟨rest, call, hcall, hpages⟩ := client.inquireDailyCcld_pages query strtDt endDt skip
  obtain ⟨hbucket, htrId, hkey⟩ := hcall ((w.interludes 0).clock 0)
  rw [hquery] at hbucket
  have hlet := client.request_letBy (w := w.enter) (hw.restExec .now)
    (by rwa [hw.enter_session]) hmanager (call ((w.interludes 0).clock 0)) skip
      (by rw [hbucket]; exact ⟨nofun, nofun⟩) (by rwa [hbucket, hw.enter_session])
  rw [htrId, hkey] at hlet
  refine ⟨Prepares client "inquire_daily_ccld" "inquire_daily_ccld" ((client.pacing
    (call ((w.interludes 0).clock 0)) skip).run restExec w.enter).2.enter, ?_, ?_⟩
  · rw [hpages]
    apply LetBy.now hw
    exact hlet.bind _
  · rintro rfl
    rw [pacing_true]

end Settlement

/-- The inquiry of the settlement that is made first. -/
def firstInquiry (query : CcldQuery) (orderCreatedAt : Option Time) : RestCode (List Json) :=
  (settlementRecords.period orderCreatedAt).bind fun period =>
    client.inquireDailyCcld { query with bucket := .reconciliation } (some period.1) period.2 true
      false

/-- With only the global bucket empty and a token in the reserve, the settlement is inquired of.
A reserve that loses a token has bought an inquiry. -/
structure SettlementLaw (brokerOrderId : String) (symbol : Option String)
    (orderSide : Option OrderSide) (orderCreatedAt : Option Time) (w : World) : Prop where
  sent : w.session.budget.shortOfGlobal false →
    1 ≤ w.session.budget.count (.operation .inquiry) → 1 ≤ reserveTokens w →
      Handed "inquire_daily_ccld" ((client.resolveUnknownState brokerOrderId symbol orderSide
        orderCreatedAt).trace restExec w)
  kept : ¬Handed "inquire_daily_ccld" ((client.resolveUnknownState brokerOrderId symbol orderSide
      orderCreatedAt).trace restExec w) →
    reserveTokens ((client.resolveUnknownState brokerOrderId symbol orderSide
      orderCreatedAt).run restExec w).2 = reserveTokens w

/-- The program hands its request on just when it is `ready`, and otherwise fails with `lost`
tokens of the reserve gone. -/
structure Settles {α : Type} (endpointKey : String) (ready : Prop) (lost : Int) (p : RestCode α)
    (w : World) : Prop where
  handed : Handed endpointKey (p.trace restExec w) ↔ ready
  failed : ¬ready → (∃ e, (p.run restExec w).1 = .error e) ∧
    reserveTokens (p.run restExec w).2 = reserveTokens w - lost

section Settles

variable {α β : Type} {endpointKey : String} {ready : Prop} {lost : Int} {p : RestCode α}
  {w : World}

theorem TurnedAway.settles (h : TurnedAway endpointKey p w) : Settles endpointKey False 0 p w := by
  constructor
  · exact iff_of_false h.unsent id
  · intro _
    obtain ⟨bucket, hbucket⟩ := h.exhausted
    refine ⟨⟨_, hbucket⟩, ?_⟩
    rw [sub_zero]
    exact congrFun h.count _

theorem LetBy.settles (h : LetBy endpointKey ready p w) : Settles endpointKey ready 0 p w := by
  constructor
  · exact h.handed
  · intro hready
    obtain ⟨e, he, _⟩ := h.failed hready
    refine ⟨⟨e, he⟩, ?_⟩
    rw [sub_zero]
    exact congrFun (h.count hready) _

theorem Settles.bind (h : Settles endpointKey ready lost p w) (f : α → RestCode β) :
    Settles endpointKey ready lost (p.bind f) w := by
  by_cases hready : ready
  · refine ⟨iff_of_true ?_ hready, fun h => absurd hready h⟩
    rw [Program.trace_bind, handed_append]
    exact Or.inl (h.handed.mpr hready)
  · obtain ⟨⟨e, he⟩, hlost⟩ := h.failed hready
    have hunsent := mt h.handed.mp hready
    cases hrun : p.run restExec w with
    | mk r v =>
      rw [hrun] at he hlost
      obtain rfl : r = _ := he
      have hend : (p.bind f).run restExec w = (.error e, v) := by
        rw [Program.run_bind, hrun]
      constructor
      · rw [Program.trace_bind, hrun, List.append_nil]
        exact iff_of_false hunsent hready
      · intro _
        rw [hend]
        exact ⟨⟨e, rfl⟩, hlost⟩

theorem Settles.now {k : Time → RestCode α} (hw : w.Alone)
    (h : Settles endpointKey ready lost (k ((w.interludes 0).clock 0)) w.enter) :
    Settles endpointKey ready lost ((perform .now).bind k) w := by
  constructor
  · rw [handed_now]
    exact h.handed
  · intro hready
    obtain ⟨he, hlost⟩ := h.failed hready
    refine ⟨he, ?_⟩
    rw [run_now, hlost, reserveTokens, reserveTokens, hw.enter_session]

end Settles

section Settlement

variable (query : CcldQuery) (hquery : query.bucket = .reconciliation)
  (strtDt endDt : Option String) {w : World} (hw : w.Alone)
  (hidle : w.session.budget.Idle) (hmanager : client.hasBudgetManager)
include hquery hw hidle hmanager

theorem inquiry_settles
    (hplain : ¬(w.session.budget.shortOfGlobal false ∧ 1 ≤ reserveTokens w)) :
    ∃ ready, Settles "inquire_daily_ccld" ready 0
      ((client.inquireDailyCcld query strtDt endDt true false).handle (client.onBudgetExhausted
        (client.inquireDailyCcld query strtDt endDt true true))) w := by
  by_cases hrefused : Refused w.session.budget .reconciliation false
  · have hnone : reserveTokens w < 1 := by
      rcases hrefused with hshort | hnone
      · by_contra hsome
        exact hplain ⟨hshort, not_lt.mp hsome⟩
      · exact hnone
    have hfirst :=
      client.inquireDailyCcld_turnedAway hquery strtDt endDt false hw hidle hmanager hrefused
    exact ⟨False, (hfirst.fallback_none _ hmanager hnone).settles⟩
  · obtain ⟨ready, hlet, _⟩ :=
      client.inquireDailyCcld_let hquery strtDt endDt false hw hidle hmanager hrefused
    exact ⟨ready, (LetBy.fallback client hlet _).settles⟩

theorem inquiry_repeated (hshort : w.session.budget.shortOfGlobal false)
    (hsome : 1 ≤ reserveTokens w) :
    Settles "inquire_daily_ccld" (2 ≤ reserveTokens w ∧
        Prepares client "inquire_daily_ccld" "inquire_daily_ccld" (client.atRetry
          (client.inquireDailyCcld query strtDt endDt true false) w).enter.enter) 1
      ((client.inquireDailyCcld query strtDt endDt true false).handle (client.onBudgetExhausted
        (client.inquireDailyCcld query strtDt endDt true true))) w := by
  have hfirst := client.inquireDailyCcld_turnedAway hquery strtDt endDt false hw hidle
    hmanager (Or.inl hshort)
  obtain ⟨halone, hvidle, hcount, hrun, hhanded⟩ := hfirst.fallback_some
    (client.inquireDailyCcld query strtDt endDt true true) hmanager hsome
  have hreserve : reserveTokens (client.atRetry
      (client.inquireDailyCcld query strtDt endDt true false) w) = reserveTokens w - 1 := by
    unfold reserveTokens
    rw [hcount]
    simp
  have hstarved : Refused (client.atRetry (client.inquireDailyCcld query strtDt endDt true false)
      w).session.budget .reconciliation true ↔ ¬2 ≤ reserveTokens w := by
    rw [refused_true]
    unfold reserveTokens at hreserve
    rw [hreserve]
    unfold reserveTokens
    omega
  by_cases htwo : 2 ≤ reserveTokens w
  · obtain ⟨ready, hlet, hready⟩ := client.inquireDailyCcld_let hquery strtDt endDt true
      halone hvidle hmanager (by rw [hstarved]; exact not_not.mpr htwo)
    rw [hready rfl] at hlet
    have hsettled := hlet.settles
    rw [and_iff_right htwo]
    constructor
    · rw [hhanded]
      exact hsettled.handed
    · intro hnot
      obtain ⟨he, hlost⟩ := hsettled.failed hnot
      rw [hrun, hlost, hreserve, sub_zero]
      exact ⟨he, rfl⟩
  · have hagain := (client.inquireDailyCcld_turnedAway hquery strtDt endDt true halone
      hvidle hmanager (hstarved.mpr htwo)).settles
    constructor
    · rw [hhanded, hagain.handed]
      exact iff_of_false id fun h => htwo h.1
    · intro _
      obtain ⟨he, hlost⟩ := hagain.failed id
      rw [hrun, hlost, hreserve, sub_zero]
      exact ⟨he, rfl⟩

end Settlement

section Resolution

variable (brokerOrderId : String) (symbol : Option String) (orderSide : Option OrderSide)
  (orderCreatedAt : Option Time) {w : World} (hw : w.Alone) (hidle : w.session.budget.Idle)
  (hmanager : client.hasBudgetManager)
include hw hidle hmanager

theorem resolveUnknownState_settles
    (hplain : ¬(w.session.budget.shortOfGlobal false ∧ 1 ≤ reserveTokens w)) :
    ∃ ready, Settles "inquire_daily_ccld" ready 0
      (client.resolveUnknownState brokerOrderId symbol orderSide orderCreatedAt) w := by
  cases orderCreatedAt with
  | some t =>
    obtain ⟨ready, h⟩ := client.inquiry_settles
      { unknownStateQuery brokerOrderId symbol orderSide with bucket := .reconciliation } rfl
        (some (kstDate t)) (some (kstDate t)) hw hidle hmanager hplain
    exact ⟨ready, h.bind _⟩
  | none =>
    have henter : w.enter.Alone := hw.restExec .now
    have hplain' : ¬(w.enter.session.budget.shortOfGlobal false ∧ 1 ≤ reserveTokens w.enter) := by
      rwa [reserveTokens, hw.enter_session]
    obtain ⟨ready, h⟩ := client.inquiry_settles
      { unknownStateQuery brokerOrderId symbol orderSide with bucket := .reconciliation } rfl
        (some (kstDate ((w.interludes 0).clock 0 - 7 * 86400000000))) none henter
      (by rwa [hw.enter_session]) hmanager hplain'
    refine ⟨ready, Settles.now hw ?_⟩
    exact h.bind _

theorem resolveUnknownState_repeated (hshort : w.session.budget.shortOfGlobal false)
    (hsome : 1 ≤ reserveTokens w) :
    Settles "inquire_daily_ccld" (2 ≤ reserveTokens w ∧
        Prepares client "inquire_daily_ccld" "inquire_daily_ccld" (client.atRetry
          (client.firstInquiry (unknownStateQuery brokerOrderId symbol orderSide) orderCreatedAt)
          w).enter.enter) 1
      (client.resolveUnknownState brokerOrderId symbol orderSide orderCreatedAt) w := by
  cases orderCreatedAt with
  | some t =>
    have h := client.inquiry_repeated
      { unknownStateQuery brokerOrderId symbol orderSide with bucket := .reconciliation } rfl
        (some (kstDate t)) (some (kstDate t)) hw hidle hmanager hshort hsome
    exact h.bind _
  | none =>
    have henter : w.enter.Alone := hw.restExec .now
    have hreserve : reserveTokens w.enter = reserveTokens w := by
      rw [reserveTokens, reserveTokens, hw.enter_session]
    have h := client.inquiry_repeated
      { unknownStateQuery brokerOrderId symbol orderSide with bucket := .reconciliation } rfl
        (some (kstDate ((w.interludes 0).clock 0 - 7 * 86400000000))) none henter
      (by rwa [hw.enter_session]) hmanager (by rwa [hw.enter_session]) (by rwa [hreserve])
    rw [hreserve] at h
    apply Settles.now hw
    exact h.bind _

theorem settlementLaw_iff :
    client.SettlementLaw brokerOrderId symbol orderSide orderCreatedAt w ↔
      (w.session.budget.shortOfGlobal false → 1 ≤ reserveTokens w → 2 ≤ reserveTokens w ∧
        Prepares client "inquire_daily_ccld" "inquire_daily_ccld" (client.atRetry
          (client.firstInquiry (unknownStateQuery brokerOrderId symbol orderSide) orderCreatedAt)
          w).enter.enter) := by
  by_cases hrepeats : w.session.budget.shortOfGlobal false ∧ 1 ≤ reserveTokens w
  · obtain ⟨hshort, hsome⟩ := hrepeats
    have h := client.resolveUnknownState_repeated brokerOrderId symbol orderSide orderCreatedAt hw
      hidle hmanager hshort hsome
    constructor
    · intro law _ _
      by_contra hready
      have hkept := law.kept (mt h.handed.mp hready)
      have hlost := (h.failed hready).2
      omega
    · intro hready
      have hsent := h.handed.mpr (hready hshort hsome)
      exact ⟨fun _ _ _ => hsent, fun hunsent => absurd hsent hunsent⟩
  · obtain ⟨ready, h⟩ := client.resolveUnknownState_settles brokerOrderId symbol orderSide
      orderCreatedAt hw hidle hmanager hrepeats
    apply iff_of_true
    · refine ⟨fun hshort _ hsome => absurd ⟨hshort, hsome⟩ hrepeats, fun hunsent => ?_⟩
      rw [(h.failed (mt h.handed.mpr hunsent)).2, sub_zero]
    · exact fun hshort hsome => absurd ⟨hshort, hsome⟩ hrepeats

/-- The reserve keeps its law exactly if, whenever a request is repeated under it, the repetition
finds the token it is charged and can be built. -/
theorem reserveLaw_iff {call : Call} (hbucket : call.bucket = .inquiry) :
    (client.FallbackLaw call w ∧
        client.SettlementLaw brokerOrderId symbol orderSide orderCreatedAt w) ↔
      (Refused w.session.budget .inquiry false → 1 ≤ reserveTokens w →
        1 ≤ w.session.budget.count (.operation .inquiry) ∧
          Prepares client call.trIdKey call.endpointKey
            (client.atRetry (client.request call false) w).enter) ∧
      (w.session.budget.shortOfGlobal false → 1 ≤ reserveTokens w → 2 ≤ reserveTokens w ∧
        Prepares client "inquire_daily_ccld" "inquire_daily_ccld" (client.atRetry
          (client.firstInquiry (unknownStateQuery brokerOrderId symbol orderSide) orderCreatedAt)
          w).enter.enter) := by
  apply and_congr
  · exact client.fallbackLaw_iff hw hidle hmanager hbucket
  · exact client.settlementLaw_iff brokerOrderId symbol orderSide orderCreatedAt hw hidle hmanager

end Resolution

/-! The global bucket is empty, and a minute passes at every step. -/

def budgetedClient : KISRestClient := { liveClient with hasBudgetManager := true }

/-- A bucket that is never refilled. -/
def holding (tokens : Int) : OperationBucket where
  capacity := 2
  refillRate := 0
  remaining := tokens
  refillAt := 0

def globalEmpty (inquiry reserve : Int) : World where
  outcomes := fun _ _ => .ok { statusCode := 200, body := some (.obj [("rt_cd", .str "0")]) }
  interludes := fun n => { clock := fun _ => n * 60000000, monotonic := n * 60 }
  session := {
    budget := {
      order := holding 2
      inquiry := holding inquiry
      reconciliation := holding reserve
      marketData := holding 2
      auth := holding 2
      globalRest := some (holding 0) }
    accessToken := .str "token"
    tokenExpiresAt := 86400 }

theorem holding_idle {tokens : Int} (htokens : tokens ≤ 2) : (holding tokens).Idle where
  toSound := { OperationBucket.sound_new 2 0 0 with remaining_le := htokens }
  refillRate_eq := rfl

theorem globalEmpty_idle {inquiry reserve : Int} (hinquiry : inquiry ≤ 2) (hreserve : reserve ≤ 2) :
    (globalEmpty inquiry reserve).session.budget.Idle where
  bucket := by
    intro type b hb
    cases type <;> cases hb
    · exact holding_idle (le_refl 2)
    · exact holding_idle (le_refl 2)
    · exact holding_idle hinquiry
    · exact holding_idle hreserve
    · exact holding_idle (le_refl 2)
  globalRest := by
    rintro g ⟨rfl⟩
    exact holding_idle (by decide)

/-- With a token of its own bucket and two in the reserve, each request is handed on. -/
theorem reserveLaw_globalEmpty :
    budgetedClient.FallbackLaw budgetedClient.balanceCall (globalEmpty 1 2) ∧
      budgetedClient.SettlementLaw "0000117057" none none none (globalEmpty 1 2) := by
  apply (budgetedClient.reserveLaw_iff "0000117057" none none none (fun _ => rfl)
    (globalEmpty_idle (by decide) (by decide)) rfl rfl).mpr
  have hok : ∀ {x : Except PyError Json}, x.isOk = true → ∃ token, x = .ok token := by
    intro x hx
    cases x with
    | ok token => exact ⟨token, rfl⟩
    | error e => exact nomatch hx
  constructor
  · intro _ _
    refine ⟨by decide, by decide +kernel, ⟨_, rfl⟩, hok (by decide +kernel), ⟨_, rfl⟩⟩
  · intro _ _
    refine ⟨by decide, by decide +kernel, ⟨_, rfl⟩, hok (by decide +kernel), ⟨_, rfl⟩⟩

/-- An empty inquiry bucket turns the repetition away too, and with one token the reserve has
none left for the inquiry of the settlement. Each time the token is lost. -/
theorem reserve_token_wasted :
    ¬budgetedClient.FallbackLaw budgetedClient.balanceCall (globalEmpty 0 1) ∧
      ¬budgetedClient.SettlementLaw "0000117057" none none none (globalEmpty 1 1) := by
  constructor
  · rw [budgetedClient.fallbackLaw_iff (fun _ => rfl)
      (globalEmpty_idle (by decide) (by decide)) rfl rfl]
    exact fun h => absurd (h (Or.inr (by decide)) (by decide)).1 (by decide)
  · rw [budgetedClient.settlementLaw_iff "0000117057" none none none (fun _ => rfl)
      (globalEmpty_idle (by decide) (by decide)) rfl]
    exact fun h => absurd (h ⟨rfl, by decide⟩ (by decide)).1 (by decide)

end KISRestClient

end AgentTrading.Kis

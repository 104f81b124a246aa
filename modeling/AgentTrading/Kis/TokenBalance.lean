import AgentTrading.Brokers.Tokens
import AgentTrading.Kis.RestClient
import AgentTrading.Library.Runs

/-! What a request takes from the token pools and what it leaves there, when no bucket refills
and the client's calls follow one another. -/
namespace AgentTrading.Kis
open Domain Brokers Library

/-- No other task has a turn. -/
def World.Alone (w : World) : Prop := ∀ n, (w.interludes n).others = id

namespace World

def withBudget (w : World) (m : RateLimitBudgetManager) : World :=
  { w with session := { w.session with budget := m } }

@[simp] theorem withBudget_budget (w : World) (m : RateLimitBudgetManager) :
    (w.withBudget m).session.budget = m := rfl

@[simp] theorem withBudget_interludes (w : World) (m : RateLimitBudgetManager) :
    (w.withBudget m).interludes = w.interludes := rfl

@[simp] theorem withBudget_self (w : World) : w.withBudget w.session.budget = w := rfl

theorem Alone.enter_session {w : World} (hw : w.Alone) : w.enter.session = w.session := by
  simp [enter, hw 0]

theorem Alone.restExec {w : World} (hw : w.Alone) (op : RestOp) : (restExec op w).2.Alone := by
  intro n
  cases op <;> exact hw (n + 1)

theorem Alone.run {w : World} (hw : w.Alone) {α : Type} (p : RestCode α) :
    (p.run Kis.restExec w).2.Alone := by
  apply Program.Only.run_keeps Kis.restExec (Program.only_true p) _ w hw
  intro op v _ hv
  exact hv.restExec op

end World

/-! Operations that neither read nor change the budget. -/

def RestOp.Unbudgeted : RestOp → Prop
  | .consumeOrRaise .. | .globalRestInterval | .globalRestTryConsume | .release ..
  | .reserveReconciliationOrRaise => False
  | _ => True

def Unbudgeted {α : Type} (p : RestCode α) : Prop := p.Only RestOp.Unbudgeted fun _ => True

section Unbudgeted

variable {α β : Type} {p : RestCode α}

theorem Unbudgeted.bind {f : α → RestCode β} (hp : Unbudgeted p) (hf : ∀ a, Unbudgeted (f a)) :
    Unbudgeted (p.bind f) :=
  Program.Only.bind hp (fun a _ => hf a) fun _ _ => trivial

theorem unbudgeted_orRaises (x : Except PyError α) : Unbudgeted (orRaises x) := by
  cases x <;> trivial

theorem unbudgeted_perform {op : RestOp} (hop : op.Unbudgeted) : Unbudgeted (perform op) :=
  ⟨hop, fun _ => trivial⟩

theorem unbudgeted_call {op : RestOp} {f : RestReply op → RestCode β} (hop : op.Unbudgeted)
    (hf : ∀ r, Unbudgeted (f r)) : Unbudgeted ((perform op).bind f) :=
  ⟨hop, hf⟩

theorem restExec_withBudget {op : RestOp} (hop : op.Unbudgeted) {w : World} (hw : w.Alone)
    (m : RateLimitBudgetManager) :
    restExec op (w.withBudget m) = ((restExec op w).1, (restExec op w).2.withBudget m) := by
  cases op <;>
    first
      | exact absurd hop id
      | simp [restExec, restRespond, World.enter, World.receive, World.withBudget, hw 0]

theorem Unbudgeted.run_withBudget (hp : Unbudgeted p) {w : World} (hw : w.Alone)
    (m : RateLimitBudgetManager) :
    p.run restExec (w.withBudget m) =
      ((p.run restExec w).1, (p.run restExec w).2.withBudget m) := by
  induction p generalizing w with
  | ret a => rfl
  | raise e => rfl
  | call op k ih =>
    simp only [Program.run_call, restExec_withBudget hp.1 hw m]
    exact ih _ (hp.2 _) (hw.restExec op)

theorem Unbudgeted.run_budget (hp : Unbudgeted p) {w : World} (hw : w.Alone) :
    (p.run restExec w).2.session.budget = w.session.budget := by
  have h := hp.run_withBudget hw w.session.budget
  rw [World.withBudget_self] at h
  exact congrArg (fun r => r.2.session.budget) h

end Unbudgeted

namespace KISRestClient

variable (client : KISRestClient)

theorem pacePaperGlobalRest_unbudgeted : Unbudgeted pacePaperGlobalRest := by
  apply unbudgeted_call (by trivial)
  intro now
  apply unbudgeted_call (by trivial)
  intro last
  split
  · apply unbudgeted_call (by trivial)
    intro _
    apply unbudgeted_call (by trivial)
    intro now
    exact unbudgeted_perform (by trivial)
  · exact unbudgeted_perform (by trivial)

theorem requestToken_unbudgeted (wall mono : ℚ) : Unbudgeted (client.requestToken wall mono) := by
  apply (unbudgeted_orRaises _).bind
  intro url
  apply unbudgeted_call (by trivial)
  intro outcome
  cases outcome with
  | error e => trivial
  | ok resp =>
    apply (unbudgeted_orRaises _).bind
    intro data
    apply (unbudgeted_orRaises _).bind
    intro token
    apply unbudgeted_call (by trivial)
    intro _
    apply (unbudgeted_orRaises _).bind
    intro expiresIn
    apply unbudgeted_call (by trivial)
    intro _
    apply unbudgeted_call (by trivial)
    intro _
    apply unbudgeted_call (by trivial)
    exact fun _ => trivial

theorem freshToken_unbudgeted (wall : ℚ) : Unbudgeted (client.freshToken wall) := by
  apply unbudgeted_call (by trivial)
  intro mono
  apply unbudgeted_call (by trivial)
  intro last
  split
  · apply unbudgeted_call (by trivial)
    intro _
    apply unbudgeted_call (by trivial)
    exact client.requestToken_unbudgeted wall
  · exact client.requestToken_unbudgeted wall mono

theorem authenticate_unbudgeted : Unbudgeted client.authenticate := by
  apply unbudgeted_call (by trivial)
  intro now
  apply unbudgeted_call (by trivial)
  intro token
  dsimp only
  split
  · trivial
  · apply Unbudgeted.bind
    · unfold authenticate.cachedToken
      split
      · exact unbudgeted_perform (by trivial)
      · trivial
    · intro cached
      cases cached with
      | none => exact client.freshToken_unbudgeted _
      | some t =>
        apply unbudgeted_call (by trivial)
        intro _
        apply unbudgeted_call (by trivial)
        exact fun _ => trivial

theorem signedHeaders_unbudgeted (call : Call) :
    Unbudgeted (buildRequest.signedHeaders client call) := by
  apply (unbudgeted_orRaises _).bind
  intro trId
  apply Unbudgeted.bind
  · apply client.authenticate_unbudgeted.bind
    exact fun _ => trivial
  · exact fun _ => trivial

theorem buildRequest_unbudgeted (call : Call) : Unbudgeted (client.buildRequest call) := by
  apply unbudgeted_call (by trivial)
  intro state
  split
  · trivial
  · apply (client.signedHeaders_unbudgeted call).bind
    intro headers
    apply (unbudgeted_orRaises _).bind
    exact fun _ => trivial

theorem transmit_unbudgeted (key : String) (request : HttpRequest) (left : Nat) :
    Unbudgeted (transmit key request left) := by
  have hattempt : ∀ {onTimeout : RestCode Response}, Unbudgeted onTimeout →
      Unbudgeted (transmit.attempt key request onTimeout) := by
    intro onTimeout htimeout
    apply unbudgeted_call (by trivial)
    intro outcome
    cases outcome with
    | ok resp => trivial
    | error e =>
      cases e with
      | timeout => exact htimeout
      | request message =>
        apply unbudgeted_call (by trivial)
        exact fun _ => trivial
      | runtime => trivial
      | other c => trivial
  induction left with
  | zero =>
    apply hattempt
    apply unbudgeted_call (by trivial)
    exact fun _ => trivial
  | succ left ih =>
    apply hattempt
    apply unbudgeted_call (by trivial)
    exact fun _ => ih

theorem decode_unbudgeted (call : Call) (request : HttpRequest) (left : Nat) (resp : Response) :
    Unbudgeted (client.decode call request left resp) := by
  have haccept : ∀ (resp : Response) {onError : PyError → RestCode Dict},
      (∀ e, Unbudgeted (onError e)) → Unbudgeted (decode.accept call resp onError) := by
    intro resp onError herror
    unfold decode.accept
    split
    · apply unbudgeted_call (by trivial)
      exact fun _ => trivial
    · exact herror _
  induction left generalizing resp with
  | zero =>
    apply haccept
    exact fun _ => trivial
  | succ left ih =>
    apply haccept
    intro e
    split
    · apply Unbudgeted.bind _ ih
      apply unbudgeted_call (by trivial)
      intro _
      apply client.authenticate_unbudgeted.bind
      intro _
      apply (client.signedHeaders_unbudgeted call).bind
      intro headers
      apply unbudgeted_call (by trivial)
      intro outcome
      cases outcome with
      | ok resp => trivial
      | error e =>
        cases e with
        | request message =>
          apply unbudgeted_call (by trivial)
          exact fun _ => trivial
        | _ => trivial
    · trivial

theorem exchange_unbudgeted (call : Call) : Unbudgeted (client.exchange call) := by
  apply (client.buildRequest_unbudgeted call).bind
  intro request
  apply (transmit_unbudgeted call.endpointKey request 2).bind
  exact client.decode_unbudgeted call request _

theorem pacing_unbudgeted (call : Call) (skip : Bool) :
    Unbudgeted (client.pacing call skip) := by
  unfold pacing
  split
  · exact pacePaperGlobalRest_unbudgeted
  · trivial

end KISRestClient

/-! When the exchange of an order goes through. -/

/-- The response to a request that is sent again, up to `left` times, when it times out. -/
def delivered : Nat → (Nat → Except HttpError Response) → Option Response
  | 0, outcomes => (outcomes 0).toOption
  | left + 1, outcomes =>
    match outcomes 0 with
    | .error .timeout => delivered left fun n => outcomes (n + 1)
    | outcome => outcome.toOption

/-- The circuit breaker lets the order by, its transaction and its endpoint are known, the
client holds or gets an access token, and a response comes that reports no error. -/
def GoesThrough (client : KISRestClient) (call : KISRestClient.Call) (w : World) : Prop :=
  (restExec .circuitState w).1 ≠ .opened ∧
    (∃ trId, client.getTrId call.trIdKey = .ok trId) ∧
    ∃ token v, client.authenticate.run restExec (restExec .circuitState w).2 = (.ok token, v) ∧
      ∃ url, endpointUrl call.endpointKey = .ok url ∧
        ∃ resp, delivered 2 (v.outcomes url) = some resp ∧
          ∃ data, raiseOnError resp call.endpointKey = .ok data

namespace KISRestClient

variable (client : KISRestClient)

theorem transmit_ok_iff (key : String) (request : HttpRequest) (left : Nat) (w : World)
    (resp : Response) :
    ((transmit key request left).run restExec w).1 = .ok resp ↔
      delivered left (w.outcomes request.url) = some resp := by
  have hreply : ∀ v : World, (restExec (.send request) v).1 = v.outcomes request.url 0 :=
    fun _ => rfl
  have hnext : ∀ v : World, (restExec (.send request) v).2.outcomes request.url =
      fun n => v.outcomes request.url (n + 1) := by
    intro v
    funext n
    simp [restExec, restRespond, World.receive, World.enter]
  induction left generalizing w with
  | zero =>
    simp only [transmit, transmit.attempt, delivered, Program.bind_eq, perform, Program.perform,
      Program.call_bind, Program.run_call, Program.ret_bind, hreply]
    cases w.outcomes request.url 0 with
    | ok r => simp [Except.toOption]
    | error e => cases e <;> simp [Except.toOption]
  | succ left ih =>
    simp only [transmit, transmit.attempt, delivered, Program.bind_eq, perform, Program.perform,
      Program.call_bind, Program.run_call, Program.ret_bind, hreply]
    cases w.outcomes request.url 0 with
    | ok r => simp [Except.toOption]
    | error e =>
      cases e with
      | timeout =>
        simp only [Program.run_call, ← hnext w]
        exact ih (restExec (.sleep _) (restExec (.send request) w).2).2
      | _ => simp [Except.toOption]

theorem answer_ok_iff {call : Call} (hbucket : call.bucket = .order) (request : HttpRequest)
    (w : World) :
    (∃ data, (((transmit call.endpointKey request 2).bind
        (client.decode call request (maxReauthAttempts call.bucket - 1))).run restExec w).1 =
          .ok data) ↔
      ∃ resp, delivered 2 (w.outcomes request.url) = some resp ∧
        ∃ data, raiseOnError resp call.endpointKey = .ok data := by
  have hread : ∀ (resp : Response) (v : World),
      (∃ data, ((client.decode call request (maxReauthAttempts call.bucket - 1) resp).run
        restExec v).1 = .ok data) ↔ ∃ data, raiseOnError resp call.endpointKey = .ok data := by
    intro resp v
    rw [hbucket]
    show (∃ data, ((decode.accept call resp .raise).run restExec v).1 = .ok data) ↔ _
    unfold decode.accept
    cases raiseOnError resp call.endpointKey <;> simp [perform, Program.perform]
  rw [Program.run_bind_ok_iff]
  simp only [hread, ← transmit_ok_iff call.endpointKey]
  constructor
  · rintro ⟨resp, v, hrun, hdata⟩
    exact ⟨resp, congrArg Prod.fst hrun, hdata⟩
  · rintro ⟨resp, hrun, hdata⟩
    exact ⟨resp, _, Prod.ext hrun rfl, hdata⟩

theorem exchange_ok_iff {call : Call} (hbucket : call.bucket = .order) (w : World) :
    (∃ data, ((client.exchange call).run restExec w).1 = .ok data) ↔ GoesThrough client call w := by
  unfold GoesThrough
  by_cases hopen : (restExec .circuitState w).1 = .opened
  · simp [exchange, buildRequest, perform, Program.perform, hopen]
  · simp only [exchange, buildRequest, buildRequest.signedHeaders, buildHeaders, Program.bind_eq,
      perform, Program.perform, Program.call_bind, Program.ret_bind, Program.run_call, hopen,
      if_false, Program.bind_assoc, Program.run_bind]
    cases htr : client.getTrId call.trIdKey with
    | error e => simp [orRaises]
    | ok trId =>
      simp only [orRaises, Program.run_ret]
      cases hauth : client.authenticate.run restExec (restExec .circuitState w).2 with
      | mk r v =>
        cases r with
        | error e => simp
        | ok token =>
          cases hurl : endpointUrl call.endpointKey with
          | error e => simp
          | ok url =>
            have hanswer := fun headers => client.answer_ok_iff hbucket
              { method := call.method, url := url, headers := headers, params := call.params,
                body := call.body } v
            simp only [Program.run_bind] at hanswer
            simp [hopen, hanswer]

end KISRestClient

theorem releaseTokens_idle {m : RateLimitBudgetManager} (h : m.Idle) (type : BucketType)
    (skip : Bool) (clock : Nat → Time) : (releaseTokens m type skip clock).Idle := by
  unfold releaseTokens
  cases hb : m.bucket type with
  | error e =>
    dsimp only
    split
    · exact h
    · exact h.releaseGlobalRest _
  | ok b =>
    have hlane := h.setBucket hb ((h.bucket type b hb).release (clock 0))
    dsimp only
    split
    · exact hlane
    · exact hlane.releaseGlobalRest _

theorem releaseTokens_reserve (m : RateLimitBudgetManager) (type : BucketType) (skip : Bool)
    (clock : Nat → Time) :
    (releaseTokens m type skip clock).count .heldSellReserve = m.count .heldSellReserve := by
  simp only [releaseTokens, RateLimitBudgetManager.count]
  cases m.bucket type <;> cases skip <;> simp

/-- What was taken from the global bucket and the operation bucket is given back to them. -/
theorem releaseTokens_charged {m m' : RateLimitBudgetManager} {type : BucketType} {skip : Bool}
    (h : m.Charged type skip m') (clock : Nat → Time) :
    (releaseTokens m' type skip clock).count = m.count := by
  obtain ⟨b, hb, hroom⟩ := h.room
  have hlane : (m'.setBucket type (b.release 1 (clock 0))).count =
      m.count - m.globalCharge skip := by
    rw [RateLimitBudgetManager.count_setBucket hb,
      (h.idle.bucket type b hb).release_remaining _ hroom, h.count]
    simp [sub_add_eq_sub_sub]
  simp only [releaseTokens, hb]
  by_cases hcharges : m.chargesGlobal skip
  · have hcharges' := hcharges
    simp only [RateLimitBudgetManager.chargesGlobal, Bool.and_eq_true, Bool.not_eq_true',
      ← h.isSome, Option.isSome_iff_exists] at hcharges'
    obtain ⟨rfl, g, hg⟩ := hcharges'
    simp only [Bool.false_eq_true, if_false, RateLimitBudgetManager.setBucket_globalRest, hg,
      Option.map_some]
    rw [RateLimitBudgetManager.count_setGlobalRest (g := g) (by simpa using hg),
      (h.idle.globalRest g hg).release_remaining _ (h.globalRoom hcharges g hg), hlane,
      RateLimitBudgetManager.globalCharge, if_pos hcharges]
    simp
  · rw [RateLimitBudgetManager.globalCharge, if_neg hcharges, sub_zero] at hlane
    split
    · exact hlane
    · next hskip =>
      have hnone : m'.globalRest = none := by
        simpa [RateLimitBudgetManager.chargesGlobal, hskip, ← h.isSome] using hcharges
      have hsame : ((m'.setBucket type (b.release 1 (clock 0))).globalRest.map
          (·.release 1 (clock 1))) = (m'.setBucket type (b.release 1 (clock 0))).globalRest := by
        simp [hnone]
      rw [hsame]
      exact hlane

theorem restExec_consumeOrRaise {w : World} (hw : w.Alone) (type : BucketType)
    (skip held : Bool) :
    restExec (.consumeOrRaise type skip held) w =
      ((w.session.budget.consumeOrRaise type 1 skip held (w.interludes 0).clock).1,
        w.enter.withBudget
          (w.session.budget.consumeOrRaise type 1 skip held (w.interludes 0).clock).2) := by
  simp [restExec, restRespond, hw.enter_session, World.withBudget]

theorem restExec_globalRestTryConsume {w : World} (hw : w.Alone) :
    restExec .globalRestTryConsume w =
      ((w.session.budget.pollGlobal 1 ((w.interludes 0).clock 0)).1,
        w.enter.withBudget (w.session.budget.pollGlobal 1 ((w.interludes 0).clock 0)).2) := by
  simp [restExec, restRespond, hw.enter_session, World.withBudget]

theorem restExec_release {w : World} (hw : w.Alone) (type : BucketType) (skip : Bool) :
    restExec (.release type skip) w =
      ((), w.enter.withBudget
        (releaseTokens w.session.budget type skip (w.interludes 0).clock)) := by
  simp [restExec, restRespond, hw.enter_session, World.withBudget]

/-! Waiting for a global token that never comes. -/

/-- The global bucket is out of tokens. -/
structure Starved (count : TokenPool → Int) (w : World) : Prop where
  alone : w.Alone
  idle : w.session.budget.Idle
  count_eq : w.session.budget.count = count
  short : w.session.budget.shortOfGlobal false

namespace Starved

variable {count : TokenPool → Int} {w : World}

theorem restExec (h : Starved count w) {op : RestOp} (hop : op.Unbudgeted) :
    Starved count (Kis.restExec op w).2 := by
  have hbudget : (Kis.restExec op w).2.session.budget = w.session.budget :=
    (unbudgeted_perform hop).run_budget h.alone
  constructor
  · exact h.alone.restExec op
  · rw [hbudget]
    exact h.idle
  · rw [hbudget]
    exact h.count_eq
  · rw [hbudget]
    exact h.short

theorem refill (h : Starved count w) {g : OperationBucket}
    (hg : w.session.budget.globalRest = some g) (now : Time) :
    Starved count (w.enter.withBudget
      { w.session.budget with globalRest := some (g.refill now) }) := by
  have hglobal := h.idle.globalRest g hg
  have hcount : ({ w.session.budget with globalRest := some (g.refill now) }).count =
      w.session.budget.count := by
    rw [RateLimitBudgetManager.count_setGlobalRest hg, hglobal.refill_remaining]
    simp
  constructor
  · exact h.alone.restExec .now
  · exact h.idle.setGlobalRest (hglobal.refill now)
  · exact hcount.trans h.count_eq
  · obtain ⟨_, hnone⟩ := h.short
    rw [← hcount] at hnone
    exact ⟨by simp [RateLimitBudgetManager.chargesGlobal], hnone⟩

theorem globalRestTryConsume (h : Starved count w) :
    (Kis.restExec .globalRestTryConsume w).1 = false ∧
      Starved count (Kis.restExec .globalRestTryConsume w).2 := by
  obtain ⟨hcharges, hnone⟩ := h.short
  simp only [RateLimitBudgetManager.chargesGlobal, Bool.and_eq_true, Bool.not_eq_true',
    Option.isSome_iff_exists] at hcharges
  obtain ⟨_, g, hg⟩ := hcharges
  simp only [RateLimitBudgetManager.count, hg] at hnone
  have hglobal := h.idle.globalRest g hg
  rw [restExec_globalRestTryConsume h.alone]
  simp only [RateLimitBudgetManager.pollGlobal, hg, hglobal.tryConsume_none _ hnone, true_and]
  exact h.refill hg _

theorem pollGlobalRest (h : Starved count w) (interval : ℚ) (deadline : Time) (polls : Nat) :
    ∃ v, (KISRestClient.pollGlobalRest interval deadline polls).run Kis.restExec w =
      (.error (.budgetExhausted "global"), v) ∧ Starved count v := by
  induction polls generalizing w with
  | zero =>
    obtain ⟨htaken, hv⟩ := h.globalRestTryConsume
    refine ⟨_, ?_, hv⟩
    simp [KISRestClient.pollGlobalRest, perform, Program.perform, htaken]
  | succ polls ih =>
    obtain ⟨htaken, hv⟩ := h.globalRestTryConsume
    simp only [KISRestClient.pollGlobalRest, perform, Program.perform, Program.bind_eq,
      Program.call_bind, Program.ret_bind, Program.run_call, htaken, Bool.false_eq_true, if_false]
    split
    · exact ⟨_, rfl, hv.restExec (by trivial)⟩
    · have hread := hv.restExec (show RestOp.now.Unbudgeted from trivial)
      exact ih (hread.restExec (show (RestOp.sleep interval).Unbudgeted from trivial))

theorem waitUntilGlobalRestAvailable (h : Starved count w) :
    ∃ v, KISRestClient.waitUntilGlobalRestAvailable.run Kis.restExec w =
      (.error (.budgetExhausted "global"), v) ∧ Starved count v := by
  have henter : Starved count w.enter := h.restExec (show RestOp.now.Unbudgeted from trivial)
  have hcharges := h.short.1
  simp only [RateLimitBudgetManager.chargesGlobal, Bool.and_eq_true,
    Option.isSome_iff_exists] at hcharges
  obtain ⟨_, g, hg⟩ := hcharges
  have hinterval : Kis.restExec .globalRestInterval w =
      (some w.session.budget.pollInterval, w.enter) := by
    simp [Kis.restExec, restRespond, h.alone.enter_session, hg]
  simp only [KISRestClient.waitUntilGlobalRestAvailable, perform, Program.perform,
    Program.bind_eq, Program.call_bind, Program.ret_bind, Program.run_call, hinterval]
  have hread := henter.restExec (show RestOp.now.Unbudgeted from trivial)
  exact hread.pollGlobalRest _ _ _

end Starved

namespace KISRestClient

variable (client : KISRestClient)

theorem consumeBudget_short {w : World} (hw : w.Alone) (hidle : w.session.budget.Idle)
    {skip : Bool} (hshort : w.session.budget.shortOfGlobal skip) (type : BucketType) (held : Bool)
    (left : Nat) :
    ∃ v, (consumeBudget type held left skip).run restExec w =
      (.error (.budgetExhausted "global"), v) ∧ Starved w.session.budget.count v := by
  have hskip : skip = false := by
    have hcharges := hshort.1
    simp only [RateLimitBudgetManager.chargesGlobal, Bool.and_eq_true, Bool.not_eq_true']
      at hcharges
    exact hcharges.1
  subst hskip
  obtain ⟨g, hg, hraised⟩ :=
    RateLimitBudgetManager.consumeOrRaise_short hidle hshort type held (w.interludes 0).clock
  have hstarved : Starved w.session.budget.count w :=
    { alone := hw, idle := hidle, count_eq := rfl, short := hshort }
  have hrefill := hstarved.refill hg ((w.interludes 0).clock 0)
  have hattempt : ∀ onGlobal : RestCode Bool,
      (consumeBudget.attempt type held false onGlobal).run restExec w =
        onGlobal.run restExec (w.enter.withBudget { w.session.budget with
          globalRest := some (g.refill ((w.interludes 0).clock 0)) }) := by
    intro onGlobal
    simp [consumeBudget.attempt, perform, Program.perform, restExec_consumeOrRaise hw, hraised]
  cases left with
  | zero =>
    rw [consumeBudget, hattempt]
    exact ⟨_, rfl, hrefill⟩
  | succ left =>
    obtain ⟨v, hwait, hv⟩ := hrefill.waitUntilGlobalRestAvailable
    refine ⟨v, ?_, hv⟩
    rw [consumeBudget, hattempt, Program.bind_eq, Program.run_bind, hwait]

theorem consumeBudget_through {w : World} (hw : w.Alone) {type : BucketType} {skip held : Bool}
    (left : Nat) {r : Except PyError Unit} {m : RateLimitBudgetManager}
    (hconsume : w.session.budget.consumeOrRaise type 1 skip held (w.interludes 0).clock = (r, m))
    (hglobal : r ≠ .error (.budgetExhausted "global")) :
    (consumeBudget type held left skip).run restExec w =
      (r.map fun _ => skip, w.enter.withBudget m) := by
  have hattempt : ∀ onGlobal : RestCode Bool,
      (consumeBudget.attempt type held skip onGlobal).run restExec w =
        (r.map fun _ => skip, w.enter.withBudget m) := by
    intro onGlobal
    simp only [consumeBudget.attempt, perform, Program.perform, Program.bind_eq,
      Program.call_bind, Program.ret_bind, Program.run_call, restExec_consumeOrRaise hw, hconsume]
    cases r with
    | ok _ => rfl
    | error e =>
      cases e with
      | budgetExhausted b =>
        have hb : b ≠ "global" := fun h => hglobal (h ▸ rfl)
        simp [hb, Except.map]
      | _ => rfl
  cases left <;> rw [consumeBudget, hattempt]

theorem budgetedExchange_refused (hmanager : client.hasBudgetManager) {call : Call} {skip : Bool}
    {w v : World} {e : PyError}
    (h : (consumeBudget call.bucket call.heldPositionSell 2 skip).run restExec w = (.error e, v)) :
    (client.budgetedExchange call skip).run restExec w = (.error e, v) := by
  simp only [budgetedExchange, hmanager, if_true, Program.bind_eq, Program.run_bind, h]

theorem budgetedExchange_admitted (hmanager : client.hasBudgetManager) {call : Call}
    {skip kept : Bool} {w v : World}
    (h : (consumeBudget call.bucket call.heldPositionSell 2 skip).run restExec w = (.ok kept, v)) :
    (client.budgetedExchange call skip).run restExec w =
      match (client.exchange call).run restExec v with
      | (.ok data, v') => (.ok data, v')
      | (.error e, v') => (.error e, (restExec (.release call.bucket kept) v').2) := by
  simp only [budgetedExchange, hmanager, if_true, Program.bind_eq, Program.run_bind, h,
    Program.run_handle]
  cases (client.exchange call).run restExec v with
  | mk r v' => cases r <;> rfl

section Ways

variable {w : World} (hw : w.Alone) (hidle : w.session.budget.Idle)
  (hmanager : client.hasBudgetManager) {call : Call} {skip : Bool}
include hw hidle hmanager

theorem budgetedExchange_short (call : Call) (hshort : w.session.budget.shortOfGlobal skip) :
    ∃ e v, (client.budgetedExchange call skip).run restExec w = (.error e, v) ∧
      v.session.budget.Idle ∧ v.session.budget.count = w.session.budget.count := by
  obtain ⟨v, hrun, hv⟩ := consumeBudget_short hw hidle hshort call.bucket call.heldPositionSell 2
  exact ⟨_, v, client.budgetedExchange_refused hmanager hrun, hv.idle, hv.count_eq⟩

theorem budgetedExchange_restGlobal (hshort : ¬w.session.budget.shortOfGlobal skip)
    (hbucket : call.bucket = .restGlobal) :
    ∃ e v, (client.budgetedExchange call skip).run restExec w = (.error e, v) ∧
      v.session.budget.Idle ∧ v.session.budget.count =
        w.session.budget.count - w.session.budget.globalCharge skip := by
  obtain ⟨m, hconsume, hm⟩ := RateLimitBudgetManager.consumeOrRaise_restGlobal hidle hshort
    call.heldPositionSell (w.interludes 0).clock
  rw [← hbucket] at hconsume
  have hrun := consumeBudget_through hw 2 hconsume (by simp)
  exact ⟨_, _, client.budgetedExchange_refused hmanager hrun, hm.idle, hm.count⟩

theorem budgetedExchange_none (hshort : ¬w.session.budget.shortOfGlobal skip)
    (huses : ¬w.session.budget.usesReserve call.bucket call.heldPositionSell)
    (hbucket : call.bucket ≠ .restGlobal)
    (hnone : w.session.budget.count (.operation call.bucket) < 1) :
    ∃ e v, (client.budgetedExchange call skip).run restExec w = (.error e, v) ∧
      v.session.budget.Idle ∧ v.session.budget.count = w.session.budget.count := by
  obtain ⟨m, hconsume, hm, hcount⟩ := RateLimitBudgetManager.consumeOrRaise_none hidle hshort huses
    hbucket hnone (w.interludes 0).clock
  have hvalue : call.bucket.value ≠ "global" := by
    cases hb : call.bucket with
    | restGlobal => exact absurd hb hbucket
    | _ => simp [BucketType.value]
  have hrun := consumeBudget_through hw 2 hconsume (by simpa using hvalue)
  exact ⟨_, _, client.budgetedExchange_refused hmanager hrun, hm, hcount⟩

theorem budgetedExchange_some (hshort : ¬w.session.budget.shortOfGlobal skip)
    (huses : ¬w.session.budget.usesReserve call.bucket call.heldPositionSell)
    (hbucket : call.bucket ≠ .restGlobal)
    (hsome : 1 ≤ w.session.budget.count (.operation call.bucket)) :
    ∃ r v, (client.budgetedExchange call skip).run restExec w = (r, v) ∧
      v.session.budget.Idle ∧
        match r with
        | .ok _ => v.session.budget.count =
            w.session.budget.count - w.session.budget.charge call.bucket skip call.heldPositionSell
        | .error _ => v.session.budget.count = w.session.budget.count := by
  obtain ⟨m, hconsume, hm⟩ := RateLimitBudgetManager.consumeOrRaise_some hidle hshort huses
    hbucket hsome (w.interludes 0).clock
  have hrun := consumeBudget_through hw 2 hconsume (by simp)
  rw [client.budgetedExchange_admitted hmanager hrun]
  have halone : (w.enter.withBudget m).Alone := hw.restExec .now
  have hbudget := (client.exchange_unbudgeted call).run_budget halone
  have halone' := halone.run (client.exchange call)
  cases hexchange : (client.exchange call).run restExec (w.enter.withBudget m) with
  | mk r v =>
    rw [hexchange, World.withBudget_budget] at hbudget
    rw [hexchange] at halone'
    dsimp only at hbudget halone'
    cases r with
    | ok data =>
      refine ⟨_, _, rfl, ?_, ?_⟩
      · rw [hbudget]
        exact hm.idle
      · rw [hbudget, hm.count, RateLimitBudgetManager.charge, if_neg huses]
    | error e =>
      refine ⟨_, _, rfl, ?_, ?_⟩ <;> rw [restExec_release halone', hbudget]
      · exact releaseTokens_idle hm.idle _ _ _
      · exact releaseTokens_charged hm _

theorem budgetedExchange_reserve (hshort : ¬w.session.budget.shortOfGlobal skip)
    (huses : w.session.budget.usesReserve call.bucket call.heldPositionSell) :
    ∃ r v, (client.budgetedExchange call skip).run restExec w = (r, v) ∧
      v.session.budget.Idle ∧
        match r with
        | .ok _ => GoesThrough client call w.enter ∧ v.session.budget.count =
            w.session.budget.count - w.session.budget.charge call.bucket skip call.heldPositionSell
        | .error _ => ¬GoesThrough client call w.enter ∧
            v.session.budget.count .heldSellReserve =
              w.session.budget.count .heldSellReserve - 1 := by
  obtain ⟨m, hconsume, hm, hcount⟩ := RateLimitBudgetManager.consumeOrRaise_reserve hidle hshort
    huses (w.interludes 0).clock
  have hrun := consumeBudget_through hw 2 hconsume (by simp)
  rw [client.budgetedExchange_admitted hmanager hrun]
  have henter : w.enter.Alone := hw.restExec .now
  have hexchange := (client.exchange_unbudgeted call).run_withBudget henter m
  have halone := henter.run (client.exchange call)
  have hgoes := client.exchange_ok_iff huses.2.1 w.enter
  rw [hexchange]
  cases hplain : (client.exchange call).run restExec w.enter with
  | mk r v =>
    rw [hplain] at halone hgoes
    cases r with
    | ok data => exact ⟨_, _, rfl, hm, hgoes.mp ⟨data, rfl⟩, hcount⟩
    | error e =>
      have halone' : (v.withBudget m).Alone := halone
      refine ⟨_, _, rfl, ?_, ?_, ?_⟩
      · rw [restExec_release halone']
        exact releaseTokens_idle hm _ _ _
      · rw [← hgoes]
        simp
      · rw [restExec_release halone']
        refine (releaseTokens_reserve _ _ _ _).trans ?_
        rw [World.withBudget_budget, hcount, RateLimitBudgetManager.charge, if_pos huses,
          RateLimitBudgetManager.globalCharge]
        split <;> simp

end Ways

/-- What is left after a call with its `skip_global_rest`. -/
def serve (w : World) (c : Call × Bool) : World := ((client.request c.1 c.2).run restExec w).2

/-- A call that returns has taken its charge from the pools, and one that fails nothing. -/
def Balanced (w : World) (c : Call × Bool) : Prop :=
  match (client.request c.1 c.2).run restExec w with
  | (.ok _, v) => v.session.budget.count =
      w.session.budget.count -
        if client.hasBudgetManager then
          w.session.budget.charge c.1.bucket c.2 c.1.heldPositionSell
        else 0
  | (.error _, v) => v.session.budget.count = w.session.budget.count

/-- Of the calls the global bucket lets through, one that is charged to it names an operation
bucket, and one in the lane of the reserve goes through. -/
def Covered (w : World) (c : Call × Bool) : Prop :=
  client.hasBudgetManager → ¬w.session.budget.shortOfGlobal c.2 →
    (c.1.bucket = .restGlobal → ¬w.session.budget.chargesGlobal c.2) ∧
      (w.session.budget.usesReserve c.1.bucket c.1.heldPositionSell →
        GoesThrough client c.1 w.enter)

theorem pacePaperGlobalRest_ok (w : World) :
    (pacePaperGlobalRest.run restExec w).1 = .ok () := by
  simp only [pacePaperGlobalRest, perform, Program.perform, Program.bind_eq, Program.call_bind,
    Program.ret_bind, Program.run_call]
  split <;> rfl

theorem pacing_ok (call : Call) (skip : Bool) (w : World) :
    ((client.pacing call skip).run restExec w).1 = .ok () := by
  unfold pacing
  split
  · exact pacePaperGlobalRest_ok w
  · rfl

theorem request_run (call : Call) (skip : Bool) (w : World) :
    (client.request call skip).run restExec w =
      (client.budgetedExchange call skip).run restExec
        ((client.pacing call skip).run restExec w).2 := by
  have hpacing := client.pacing_ok call skip w
  rw [request, Program.bind_eq, Program.run_bind]
  cases h : (client.pacing call skip).run restExec w with
  | mk r v =>
    rw [h] at hpacing
    simp only at hpacing
    rw [hpacing]

theorem pacing_order {call : Call} (hbucket : call.bucket = .order) (skip : Bool) (w : World) :
    ((client.pacing call skip).run restExec w).2 = w := by
  simp [pacing, hbucket]

theorem budgetedExchange_unmanaged (hmanager : ¬client.hasBudgetManager) (call : Call)
    (skip : Bool) {w : World} (hw : w.Alone) :
    ((client.budgetedExchange call skip).run restExec w).2.session.budget = w.session.budget := by
  rw [budgetedExchange, if_neg hmanager]
  exact (client.exchange_unbudgeted call).run_budget hw

/-- One call keeps the buckets as they should be, and is balanced just when it is covered. -/
theorem serve_idle {w : World} (hw : w.Alone) (hidle : w.session.budget.Idle) (c : Call × Bool) :
    (client.serve w c).session.budget.Idle ∧ (client.Balanced w c ↔ client.Covered w c) := by
  obtain ⟨call, skip⟩ := c
  have hpaced := hw.run (client.pacing call skip)
  have hbudget := (client.pacing_unbudgeted call skip).run_budget hw
  have horder := fun hbucket : call.bucket = .order => client.pacing_order hbucket skip w
  simp only [serve, Balanced, Covered, client.request_run]
  generalize ((client.pacing call skip).run restExec w).2 = v at hpaced hbudget horder
  rw [← hbudget] at hidle ⊢
  by_cases hmanager : client.hasBudgetManager
  · by_cases hshort : v.session.budget.shortOfGlobal skip
    · obtain ⟨e, u, hrun, hu, hcount⟩ :=
        client.budgetedExchange_short hpaced hidle hmanager call hshort
      simp [hrun, hu, hcount, hshort]
    · by_cases hbucket : call.bucket = .restGlobal
      · obtain ⟨e, u, hrun, hu, hcount⟩ :=
          client.budgetedExchange_restGlobal hpaced hidle hmanager hshort hbucket
        have huses : ¬v.session.budget.usesReserve .restGlobal call.heldPositionSell := by
          simp [RateLimitBudgetManager.usesReserve]
        by_cases hcharges : v.session.budget.chargesGlobal skip
        · have hcharged : v.session.budget.globalCharge skip .globalRest = 1 := by
            simp [RateLimitBudgetManager.globalCharge, hcharges]
          have hless : u.session.budget.count ≠ v.session.budget.count := by
            intro heq
            have hat := congrFun (hcount.symm.trans heq) .globalRest
            simp only [Pi.sub_apply, hcharged] at hat
            omega
          simp [hrun, hu, hless, hshort, hmanager, hbucket, hcharges]
        · simp [hrun, hu, hcount, hbucket, huses, hcharges, RateLimitBudgetManager.globalCharge]
      · by_cases huses : v.session.budget.usesReserve call.bucket call.heldPositionSell
        · obtain ⟨r, u, hrun, hu, hafter⟩ :=
            client.budgetedExchange_reserve hpaced hidle hmanager hshort huses
          rw [← horder huses.2.1]
          cases r with
          | ok data => simp [hrun, hu, hafter.1, hafter.2, hmanager, hbucket]
          | error e =>
            have hless : u.session.budget.count ≠ v.session.budget.count := by
              intro heq
              have hat := hafter.2
              rw [heq] at hat
              omega
            simp [hrun, hu, hless, hshort, hmanager, hbucket, huses, hafter.1]
        · by_cases hsome : 1 ≤ v.session.budget.count (.operation call.bucket)
          · obtain ⟨r, u, hrun, hu, hafter⟩ :=
              client.budgetedExchange_some hpaced hidle hmanager hshort huses hbucket hsome
            cases r <;> simp [hrun, hu, hafter, hmanager, hbucket, huses]
          · obtain ⟨e, u, hrun, hu, hcount⟩ := client.budgetedExchange_none hpaced hidle hmanager
              hshort huses hbucket (not_le.mp hsome)
            simp [hrun, hu, hcount, hbucket, huses]
  · have hkept := client.budgetedExchange_unmanaged hmanager call skip hpaced
    cases hrun : (client.budgetedExchange call skip).run restExec v with
    | mk r u =>
      rw [hrun] at hkept
      dsimp only at hkept
      cases r <;> simp [hkept, hidle, hmanager]

/-- With refill disabled, the calls of a run are all balanced exactly when they are all
covered. -/
theorem tokens_balanced_iff {w : World} (hw : w.Alone) (hidle : w.session.budget.Idle)
    (calls : List (Call × Bool)) :
    Runs.Meets client.serve client.Balanced w calls ↔
      Runs.Meets client.serve client.Covered w calls := by
  apply Runs.meets_congr (J := fun v => v.Alone ∧ v.session.budget.Idle)
  · intro v c hv
    exact ⟨hv.1.run _, (client.serve_idle hv.1 hv.2 c).1⟩
  · intro v c hv
    exact (client.serve_idle hv.1 hv.2 c).2
  · exact ⟨hw, hidle⟩

/-! A held-position sell that the open circuit breaker turns away. -/

/-- The default capacities, nothing refilled, and one order placed. -/
def oneOrderPlaced : RateLimitBudgetManager :=
  { RateLimitBudgetManager.new {
      orderRefillRate := 0
      inquiryRefillRate := 0
      reconciliationRefillRate := 0
      marketDataRefillRate := 0
      authRefillRate := 0 } (fun _ => 0) with
    order := { OperationBucket.new 30 0 0 with remaining := 29 } }

def breakerOpen : World where
  outcomes := fun _ _ => .error .timeout
  interludes := fun _ => { clock := fun _ => 0, monotonic := 0 }
  session := {
    budget := oneOrderPlaced
    breaker := { state := .opened } }

def managedClient : KISRestClient where
  apiKey := "key"
  apiSecret := "secret"
  accountNumber := "12345678"
  accountProductCode := "01"
  hasBudgetManager := true
  signature := fun _ => ""

def heldSell : Call where
  method := .post
  endpointKey := "order_cash"
  trIdKey := "order_sell"
  bucket := .order
  heldPositionSell := true

theorem oneOrderPlaced_idle : oneOrderPlaced.Idle where
  bucket := by
    have hnew : ∀ capacity, (OperationBucket.new capacity 0 0).Idle := fun capacity =>
      { OperationBucket.sound_new capacity 0 0 with refillRate_eq := rfl }
    intro type b hb
    cases type <;> cases hb
    · exact hnew 5
    · exact { hnew 30 with remaining_le := by decide }
    · exact hnew 60
    · exact hnew 20
    · exact hnew 100
  globalRest := by
    intro g hg
    simp [oneOrderPlaced, RateLimitBudgetManager.new] at hg

theorem consumeOrRaise_oneOrderPlaced :
    oneOrderPlaced.consumeOrRaise .order 1 false true (fun _ => 0) =
      (.ok (), { oneOrderPlaced with heldSellReserve := 0 }) := by
  have hrefill : oneOrderPlaced.order.refill 0 = oneOrderPlaced.order := by
    simp [oneOrderPlaced, OperationBucket.new, OperationBucket.refill]
  have hreserve : oneOrderPlaced.refillHeldSellReserve 0 0 = oneOrderPlaced := by
    rw [oneOrderPlaced_idle.refillHeldSellReserve 0 0 (by decide), hrefill]
  have hglobal : oneOrderPlaced.globalRest = none := rfl
  have htake : oneOrderPlaced.tryConsumeHeldSellReserve 1 =
      (true, { oneOrderPlaced with heldSellReserve := 0 }) := rfl
  simp [RateLimitBudgetManager.consumeOrRaise, RateLimitBudgetManager.consumeGlobal, hglobal,
    hreserve, htake]

theorem serve_heldSell :
    ∃ e v, (managedClient.request heldSell false).run restExec breakerOpen = (.error e, v) ∧
      v.session.budget.count (.operation .order) = 30 ∧
      v.session.budget.count .heldSellReserve = 0 := by
  have halone : breakerOpen.Alone := fun _ => rfl
  have hconsume := consumeBudget_through halone 2 consumeOrRaise_oneOrderPlaced (by simp)
  have hopen : ∀ m, restExec .circuitState (breakerOpen.enter.withBudget m) =
      (.opened, breakerOpen.enter.enter.withBudget m) := by
    intro m
    have hearly : ¬(30 : ℚ) ≤ 0 := by norm_num
    simp [restExec, restRespond, breakerOpen, World.enter, World.withBudget,
      CircuitBreaker.checkTimeout, hearly]
  have hrefill : oneOrderPlaced.order.refill 0 = oneOrderPlaced.order := by
    simp [oneOrderPlaced, OperationBucket.new, OperationBucket.refill]
  rw [request_run, managedClient.pacing_order rfl,
    managedClient.budgetedExchange_admitted rfl hconsume]
  simp only [exchange, buildRequest, perform, Program.perform, Program.bind_eq,
    Program.call_bind, Program.ret_bind, Program.run_call, hopen, if_true, Program.raise_bind,
    Program.run_raise]
  have halone' : ∀ m, (breakerOpen.enter.enter.withBudget m).Alone := fun _ _ => rfl
  have hclock : (breakerOpen.enter.enter.interludes 0).clock = fun _ => 0 := rfl
  refine ⟨_, _, rfl, ?_, ?_⟩ <;> rw [restExec_release (halone' _)]
  · simp only [World.withBudget_budget, World.withBudget_interludes, hclock, releaseTokens,
      heldSell, RateLimitBudgetManager.bucket, OperationBucket.release, hrefill]
    rfl
  · rw [World.withBudget_budget, releaseTokens_reserve]
    rfl

theorem reserve_token_lost :
    ¬Runs.Meets managedClient.serve managedClient.Balanced breakerOpen [(heldSell, false)] := by
  obtain ⟨e, v, hrun, horder, _⟩ := serve_heldSell
  intro h
  have hbalanced := h.1
  simp only [Balanced, hrun] at hbalanced
  have hbefore : breakerOpen.session.budget.count (.operation .order) = 29 := rfl
  rw [hbalanced, hbefore] at horder
  omega

/-- In the general lane the same call leaves the pools as they were. -/
theorem tokens_balanced_general : Runs.Meets managedClient.serve managedClient.Balanced breakerOpen
    [({ heldSell with heldPositionSell := false }, false)] :=
  (managedClient.tokens_balanced_iff (w := breakerOpen) (fun _ => rfl) oneOrderPlaced_idle _).mpr
    ⟨fun _ _ => ⟨by simp [heldSell], by simp [RateLimitBudgetManager.usesReserve]⟩, trivial⟩

end KISRestClient

end AgentTrading.Kis

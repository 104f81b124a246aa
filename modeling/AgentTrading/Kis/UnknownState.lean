import AgentTrading.Kis.Settlement
import AgentTrading.Library.Outcome

/-! When `resolve_unknown_state` reports an order as filled: the rows it read, as they stand
in the responses of the run. -/
namespace AgentTrading.Kis
open Domain Brokers Library

abbrev RestSteps := List ((op : RestOp) × RestReply op)

/-- The response was received for a request to `url`. -/
def Heard (url : String) (resp : Response) (steps : RestSteps) : Prop :=
  ∃ request : HttpRequest, request.url = url ∧ ⟨.send request, .ok resp⟩ ∈ steps

theorem Heard.mono {url : String} {resp : Response} {steps later : RestSteps}
    (h : Heard url resp steps) (hsub : steps ⊆ later) : Heard url resp later := by
  obtain ⟨request, hurl, hmem⟩ := h
  exact ⟨request, hurl, hsub hmem⟩

/-- `data` is the normalised body of a response received from `url`. -/
def Answered (url : String) (data : Dict) (steps : RestSteps) : Prop :=
  ∃ resp body, Heard url resp steps ∧ resp.body = some (.obj body) ∧ data = normalizeResponse body

def bodyRows (resp : Response) : List Json :=
  match resp.body with
  | some (.obj body) =>
    match outputRows (normalizeResponse body) with
    | .ok rows => rows
    | .error _ => []
  | _ => []

def rowsOfStep (url : String) (step : (op : RestOp) × RestReply op) : List Json :=
  match step with
  | ⟨.send request, .ok resp⟩ => if request.url = url then bodyRows resp else []
  | _ => []

/-- The rows of all responses received from `url`. -/
def returnedRows (url : String) (steps : RestSteps) : List Json := steps.flatMap (rowsOfStep url)

theorem returnedRows_mono (url : String) {steps later : RestSteps} (hsub : steps ⊆ later) :
    returnedRows url steps ⊆ returnedRows url later := by
  intro row hrow
  obtain ⟨step, hstep, hrow⟩ := List.mem_flatMap.mp hrow
  exact List.mem_flatMap.mpr ⟨step, hsub hstep, hrow⟩

theorem Answered.rows {url : String} {data : Dict} {steps : RestSteps}
    (h : Answered url data steps) {rows : List Json} (hrows : outputRows data = .ok rows) :
    rows ⊆ returnedRows url steps := by
  obtain ⟨resp, body, ⟨request, hurl, hmem⟩, hbody, hdata⟩ := h
  intro row hrow
  refine List.mem_flatMap.mpr ⟨_, hmem, ?_⟩
  rw [hdata] at hrows
  simpa [rowsOfStep, hurl, bodyRows, hbody, hrows] using hrow

theorem raiseOnError_ok {resp : Response} {endpoint : String} {data : Dict}
    (h : raiseOnError resp endpoint = .ok data) : resp.body = some (.obj data) := by
  unfold raiseOnError at h
  split at h
  · cases h
  · next body hbody =>
    dsimp only at h
    split at h
    · cases h
    · split at h
      · cases h
        exact hbody
      · cases h
  · cases h

namespace KISRestClient

variable (client : KISRestClient) {past : RestSteps}

/-- What a program returns was received from `url`, if it returns anything. -/
def Delivers (url : String) (r : Except PyError Dict) (steps : RestSteps) : Prop :=
  ∀ data, r = .ok data → Answered url data steps

theorem buildRequest_url {call : Call} {url : String}
    (hurl : endpointUrl call.endpointKey = .ok url) :
    (client.buildRequest call).Only (fun _ => True)
      fun r => ∀ request, r = .ok request → request.url = url := by
  refine ⟨trivial, fun state => ?_⟩
  simp only [Program.ret_bind]
  split
  · simp
  · refine Program.Only.bind (Program.only_true _) (fun headers _ => ?_) (by simp)
    simp [hurl, orRaises]

theorem attempt_heard (key : String) (request : HttpRequest) {onTimeout : RestCode Response}
    (h : ∀ past, onTimeout.Always
      (fun r steps => ∀ resp, r = .ok resp → Heard request.url resp steps) past) :
    (transmit.attempt key request onTimeout).Always
      (fun r steps => ∀ resp, r = .ok resp → Heard request.url resp steps) past := by
  intro outcome
  cases outcome with
  | ok resp =>
    intro received hreceived
    cases hreceived
    exact ⟨request, rfl, by simp⟩
  | error e =>
    cases e with
    | timeout => exact h _
    | request e =>
      intro _ resp hresp
      cases hresp
    | runtime =>
      intro resp hresp
      cases hresp
    | other c =>
      intro resp hresp
      cases hresp

theorem transmit_heard (key : String) (request : HttpRequest) (left : Nat) :
    ∀ past, (transmit key request left).Always
      (fun r steps => ∀ resp, r = .ok resp → Heard request.url resp steps) past := by
  induction left with
  | zero =>
    intro past
    refine attempt_heard key request fun past => ?_
    intro _ resp hresp
    cases hresp
  | succ left ih =>
    intro past
    refine attempt_heard key request fun past => ?_
    intro _
    exact ih _

theorem resend_heard (call : Call) (request : HttpRequest) :
    (decode.resend client call request).Always
      (fun r steps => ∀ resp, r = .ok resp → Heard request.url resp steps) past := by
  refine Program.Always.bind (Program.always_extends _ _) (fun _ steps _ => ?_) (by simp)
  refine Program.Always.bind (Program.always_extends _ _) (fun token steps _ => ?_) (by simp)
  refine Program.Always.bind (Program.always_extends _ _) (fun headers steps _ => ?_) (by simp)
  intro outcome
  cases outcome with
  | ok resp =>
    intro received hreceived
    cases hreceived
    exact ⟨{ request with headers := headers }, rfl, by simp⟩
  | error e =>
    cases e with
    | request e =>
      intro _ resp hresp
      cases hresp
    | _ =>
      intro resp hresp
      cases hresp

theorem decode_delivers (call : Call) (request : HttpRequest) (left : Nat) :
    ∀ (resp : Response) (past : RestSteps), Heard request.url resp past →
      (client.decode call request left resp).Always (Delivers request.url) past := by
  have haccept : ∀ (resp : Response) (past : RestSteps) (onError : PyError → RestCode Dict),
      Heard request.url resp past →
      (∀ e, (onError e).Always (Delivers request.url) past) →
      (decode.accept call resp onError).Always (Delivers request.url) past := by
    intro resp past onError hheard herror
    unfold decode.accept
    split
    · next body hbody =>
      intro _ data hdata
      cases hdata
      exact ⟨resp, body, hheard.mono (List.subset_append_left _ _), raiseOnError_ok hbody, rfl⟩
    · exact herror _
  induction left with
  | zero =>
    intro resp past hheard
    refine haccept resp past _ hheard fun e data hdata => ?_
    cases hdata
  | succ left ih =>
    intro resp past hheard
    refine haccept resp past _ hheard fun e => ?_
    split
    · refine Program.Always.bind (client.resend_heard call request) (fun resp steps h => ?_) ?_
      · exact ih resp steps (h resp rfl)
      · intro e steps _ data hdata
        cases hdata
    · intro data hdata
      cases hdata

theorem exchange_delivers {call : Call} {url : String}
    (hurl : endpointUrl call.endpointKey = .ok url) :
    (client.exchange call).Always (Delivers url) past := by
  refine Program.Always.bind (client.buildRequest_url hurl).always (fun request steps h => ?_) ?_
  · have hrequest : request.url = url := h request rfl
    refine Program.Always.bind (transmit_heard _ request 2 steps) (fun resp steps h => ?_) ?_
    · have := client.decode_delivers call request (maxReauthAttempts call.bucket - 1) resp steps
        (h resp rfl)
      rwa [hrequest] at this
    · intro e steps _ data hdata
      cases hdata
  · intro e steps _ data hdata
    cases hdata

theorem budgetedExchange_delivers {call : Call} {url : String} (skip : Bool)
    (hurl : endpointUrl call.endpointKey = .ok url) :
    (client.budgetedExchange call skip).Always (Delivers url) past := by
  unfold budgetedExchange
  split
  · refine Program.Always.bind (Program.always_extends _ _) (fun skip steps _ => ?_) ?_
    · refine Program.Always.handle (client.exchange_delivers hurl) (fun _ _ h => h) ?_
      intro e steps _ _ data hdata
      cases hdata
    · intro e steps _ data hdata
      cases hdata
  · exact client.exchange_delivers hurl

theorem request_delivers {call : Call} {url : String} (skip : Bool)
    (hurl : endpointUrl call.endpointKey = .ok url) :
    (client.request call skip).Always (Delivers url) past := by
  refine Program.Always.bind (Program.always_extends _ _) (fun _ steps _ => ?_) ?_
  · exact client.budgetedExchange_delivers skip hurl
  · intro e steps _ data hdata
    cases hdata

def ccldUrl : String := "/uapi/domestic-stock/v1/trading/inquire-daily-ccld"

def balanceUrl : String := "/uapi/domestic-stock/v1/trading/inquire-balance"

theorem endpointUrl_inquire_daily_ccld : endpointUrl "inquire_daily_ccld" = .ok ccldUrl := by
  simp [endpointUrl, kisEndpoints, List.lookup_cons, ccldUrl]

theorem endpointUrl_inquire_balance : endpointUrl "inquire_balance" = .ok balanceUrl := by
  simp [endpointUrl, kisEndpoints, List.lookup_cons, balanceUrl]

/-- Every row of a result stands in a response from `url`. -/
def RowsFrom (url : String) (r : Except PyError (List Json)) (steps : RestSteps) : Prop :=
  ∀ rows, r = .ok rows → rows ⊆ returnedRows url steps

theorem ccldPages_rowsFrom (query : CcldQuery) (skip : Bool) (strtDt endDt : String)
    (maxRecords left : Nat) :
    ∀ (keys : String × String) (rows : List Json) (past : RestSteps),
      rows ⊆ returnedRows ccldUrl past →
      (client.ccldPages query skip strtDt endDt maxRecords left keys rows).Always
        (RowsFrom ccldUrl) past := by
  induction left with
  | zero =>
    intro keys rows past hrows result hresult
    cases hresult
    exact hrows
  | succ left ih =>
    intro keys rows past hrows
    refine Program.Always.bind ((client.request_delivers skip endpointUrl_inquire_daily_ccld).and
      (Program.always_extends _ _)) (fun data steps h => ?_) ?_
    · obtain ⟨hdata, hsub⟩ := h
      have hdata : Answered ccldUrl data steps := hdata data rfl
      cases houtput : outputRows data with
      | error e =>
        intro result hresult
        cases hresult
      | ok output =>
        have hall : rows ++ output ⊆ returnedRows ccldUrl steps :=
          List.append_subset.mpr
            ⟨List.Subset.trans hrows (returnedRows_mono ccldUrl hsub), hdata.rows houtput⟩
        simp only [orRaises, Program.bind_eq, Program.ret_bind]
        -- Splitting would evaluate the keys.
        generalize extractContinuationKeys data = keys'
        split
        · intro result hresult
          cases hresult
          exact hall
        · split
          · intro result hresult
            cases hresult
            exact hall
          · intro _
            refine ih _ _ _ (List.Subset.trans hall (returnedRows_mono ccldUrl ?_))
            exact List.subset_append_left _ _
    · intro e steps _ result hresult
      cases hresult

/-- The field, under its upper- or lower-case key, has the text. -/
def HasField (row : Json) (field expected : String) : Prop :=
  ∃ value, getKisField row field (.str "") = .ok value ∧ value.isText expected = true

theorem keepRows_ok {field expected : String} {rows : List Json} :
    ∀ {kept : List Json}, keepRows field expected rows = .ok kept →
      kept ⊆ rows ∧ ∀ row ∈ kept, HasField row field expected := by
  induction rows with
  | nil =>
    intro kept h
    cases h
    simp
  | cons row rows ih =>
    intro kept h
    simp only [keepRows, bind_eq_ok, pure_eq_ok] at h
    obtain ⟨value, hvalue, rest, hrest, hkept⟩ := h
    obtain ⟨hsub, hfields⟩ := ih hrest
    split at hkept
    · next htext =>
      subst hkept
      refine ⟨List.cons_subset_cons row hsub, ?_⟩
      simp only [List.mem_cons, forall_eq_or_imp]
      exact ⟨⟨value, hvalue, htext⟩, hfields⟩
    · subst hkept
      exact ⟨List.Subset.trans hsub (List.subset_cons_self row rows), hfields⟩

theorem filterBy_subset {field : String} {expected : Option String} {rows kept : List Json}
    (h : filterBy field expected rows = .ok kept) : kept ⊆ rows := by
  cases expected with
  | none =>
    cases h
    exact List.Subset.refl rows
  | some text => exact (keepRows_ok h).1

theorem filterRows_ok {query : CcldQuery} {odno : String} (hodno : query.brokerOrderId = some odno)
    {rows kept : List Json} (h : filterRows query rows = .ok kept) :
    kept ⊆ rows ∧ ∀ row ∈ kept, HasField row "ODNO" odno := by
  simp only [filterRows, bind_eq_ok, hodno] at h
  obtain ⟨byOdno, hbyOdno, bySymbol, hbySymbol, hkept⟩ := h
  obtain ⟨hsub, hfields⟩ := keepRows_ok hbyOdno
  have hkeep : kept ⊆ byOdno :=
    List.Subset.trans (filterBy_subset hkept) (filterBy_subset hbySymbol)
  exact ⟨List.Subset.trans hkeep hsub, fun row hrow => hfields row (hkeep hrow)⟩

/-- The rows of the order, as the settlement returned them. -/
def SettlementRows (odno : String) (r : Except PyError (List Json)) (steps : RestSteps) : Prop :=
  ∀ rows, r = .ok rows →
    rows ⊆ returnedRows ccldUrl steps ∧ ∀ row ∈ rows, HasField row "ODNO" odno

theorem inquireDailyCcld_rows (query : CcldQuery) {odno : String}
    (hodno : query.brokerOrderId = some odno) (strtDt endDt : Option String)
    (afterHours skip : Bool) :
    (client.inquireDailyCcld query strtDt endDt afterHours skip).Always (SettlementRows odno)
      past := by
  refine Program.Always.bind (Program.always_extends _ _) (fun now steps _ => ?_) ?_
  · refine Program.Always.bind (client.ccldPages_rowsFrom query skip _ _ _ _ _ _ _ (by simp))
      (fun rows steps hrows => ?_) ?_
    · cases hkept : filterRows query rows with
      | error e => exact nofun
      | ok kept =>
        obtain ⟨hsub, hfields⟩ := filterRows_ok hodno hkept
        intro result hresult
        cases hresult
        exact ⟨List.Subset.trans hsub (hrows rows rfl), hfields⟩
    · intro e steps _
      exact nofun
  · intro e steps _
    exact nofun

theorem onBudgetExhausted_always {α : Type} {Q : Except PyError α → RestSteps → Prop}
    {retry : RestCode α} (hretry : ∀ past, retry.Always Q past)
    (hraise : ∀ e steps, Q (.error e) steps) (e : PyError) (past : RestSteps) :
    (client.onBudgetExhausted retry e).Always Q past := by
  cases e with
  | budgetExhausted bucket =>
    refine Program.Always.bind (Program.always_extends _ _) (fun _ steps _ => hretry steps) ?_
    exact fun e steps _ => hraise e steps
  | _ => exact hraise _ past

theorem settlementRecords_rows (query : CcldQuery) {odno : String}
    (hodno : query.brokerOrderId = some odno) (orderCreatedAt : Option Time) (past : RestSteps) :
    (client.settlementRecords query orderCreatedAt).Always (SettlementRows odno) past := by
  refine Program.Always.bind (Program.always_extends _ _) (fun period steps _ => ?_) ?_
  · have hinquire : ∀ skip past, (client.inquireDailyCcld { query with bucket := .reconciliation }
        (some period.1) period.2 true skip).Always (SettlementRows odno) past :=
      fun skip past =>
        client.inquireDailyCcld_rows { query with bucket := .reconciliation } hodno _ _ _ _
    refine Program.Always.handle (hinquire false steps) (fun _ _ h => h) fun e steps _ => ?_
    exact client.onBudgetExhausted_always (hinquire true) (fun _ _ => nofun) e steps
  · intro e steps _
    exact nofun

theorem balancePositions_rows (past : RestSteps) :
    client.balancePositions.Always (RowsFrom balanceUrl) past := by
  have hrequest : ∀ skip past,
      (client.request client.balanceCall skip).Always (Delivers balanceUrl) past :=
    fun skip past => client.request_delivers skip endpointUrl_inquire_balance
  have hfallback : (client.requestWithFallback client.balanceCall).Always (Delivers balanceUrl)
      past :=
    Program.Always.handle (hrequest false past) (fun _ _ h => h) fun e steps _ =>
      client.onBudgetExhausted_always (hrequest true) (fun _ _ => nofun) e steps
  refine Program.Always.bind (Q := fun r steps => ∀ data, r = .ok data →
      Answered balanceUrl data steps ∨ data = [("output", .arr [])]) ?_ (fun data steps h => ?_) ?_
  · refine Program.Always.handle hfallback (fun _ _ h data hdata => .inl (h data hdata)) ?_
    intro e steps _
    cases e with
    | broker e =>
      intro data hdata
      cases hdata
      exact .inr rfl
    | budgetExhausted bucket =>
      intro data hdata
      cases hdata
      exact .inr rfl
    | _ => exact nofun
  · cases houtput : outputRows data with
    | error e => exact nofun
    | ok rows =>
      intro result hresult
      cases hresult
      obtain hanswered | hempty := h data rfl
      · exact hanswered.rows houtput
      · rw [hempty] at houtput
        have : rows = [] := by simpa [outputRows, Dict.get, Json.iterate] using houtput.symm
        simp [this]
  · exact fun e steps _ => nofun

/-- The quantities of a row show a complete execution. The order quantity is checked to be
positive unless the order state is `00`. -/
def ShowsFilled (row : Json) : Prop :=
  ∃ item ordQty ccldQty, row = .obj item ∧
    (Dict.get item "ORD_QTY" (.str "0")).toDecimal = .ok ordQty ∧
    (Dict.get item "CCLD_QTY" (.str "0")).toDecimal = .ok ccldQty ∧
    ccldQty.less ordQty = .ok false ∧
    (zero.less ordQty = .ok true ∨
      (Dict.get item "ORD_STAT" (.str "")).isText "00" = true ∧ zero.less ccldQty = .ok true)

theorem unfilledStatus_ne_filled (item : Dict) (ccldQty : Dec) :
    unfilledStatus item ccldQty ≠ .ok .filled := by
  intro h
  simp only [unfilledStatus, bind_eq_ok] at h
  obtain ⟨executed, -, h⟩ := h
  split at h
  · cases h
  · split at h
    · cases h
    · split at h <;> cases h

theorem rowStatus_filled {item : Dict} {baseStatus : Option OrderStatus} {ordQty ccldQty : Dec}
    (h : rowStatus item baseStatus ordQty ccldQty = .ok .filled) :
    ccldQty.less ordQty = .ok false ∧
      (zero.less ordQty = .ok true ∨
        baseStatus = some .submitted ∧ zero.less ccldQty = .ok true) := by
  unfold rowStatus at h
  split at h
  · simp only [bind_eq_ok] at h
    obtain ⟨less, hless, h⟩ := h
    cases less with
    | true => cases h
    | false =>
      simp only [Bool.false_eq_true, if_false, bind_eq_ok] at h
      obtain ⟨positive, hpositive, h⟩ := h
      cases positive with
      | true => exact ⟨hless, .inl hpositive⟩
      | false => cases h
  · split at h
    · cases h
    · split at h
      · cases h
      · simp only [bind_eq_ok] at h
        obtain ⟨executed, hexecuted, h⟩ := h
        cases executed with
        | true =>
          simp only [if_true, bind_eq_ok] at h
          obtain ⟨less, hless, h⟩ := h
          cases less with
          | true => cases h
          | false => exact ⟨hless, .inr ⟨rfl, hexecuted⟩⟩
        | false => cases h
  · next hother _ =>
    cases h
    exact absurd rfl hother
  · simp only [bind_eq_ok] at h
    obtain ⟨less, hless, positive, hpositive, h⟩ := h
    cases less with
    | true => exact absurd h (unfilledStatus_ne_filled item ccldQty)
    | false =>
      cases positive with
      | true => exact ⟨hless, .inl hpositive⟩
      | false => exact absurd h (unfilledStatus_ne_filled item ccldQty)

theorem kisOrdStat_submitted {ordStat : Json} (h : kisOrdStat ordStat = .ok (some .submitted)) :
    ordStat.isText "00" = true := by
  unfold kisOrdStat at h
  split at h <;> simp_all [Json.isText]

theorem parseOrderStatusItem_filled {row : Json} {clientOrderId : Option String}
    {result : OrderStatusResult} (h : parseOrderStatusItem row clientOrderId = .ok result)
    (hfilled : result.status = .filled) : ShowsFilled row := by
  unfold parseOrderStatusItem at h
  split at h
  · next item =>
    simp only [bind_eq_ok, pure_eq_ok] at h
    obtain ⟨ordQty, hord, ccldQty, hccld, rmnQty, -, baseStatus, hbase, status, hstatus, rfl⟩ := h
    subst hfilled
    obtain ⟨hless, hpositive⟩ := rowStatus_filled hstatus
    refine ⟨item, ordQty, ccldQty, rfl, hord, hccld, hless, hpositive.imp_right ?_⟩
    rintro ⟨rfl, hsome⟩
    exact ⟨kisOrdStat_submitted hbase, hsome⟩
  · cases h

theorem resolveFromPositions_filled {brokerOrderId : String} {symbol : Option String}
    {positions : List Json} {result : OrderStatusResult}
    (h : resolveFromPositions brokerOrderId symbol positions = .ok result)
    (hfilled : result.status = .filled) :
    ∃ pos ∈ positions, ∃ pdno, pos.get "PDNO" .null = .ok pdno ∧
      equalsSymbol pdno symbol = true := by
  induction positions with
  | nil =>
    cases h
    cases hfilled
  | cons pos positions ih =>
    simp only [resolveFromPositions, bind_eq_ok] at h
    obtain ⟨pdno, hpdno, h⟩ := h
    by_cases hsymbol : equalsSymbol pdno symbol = true
    · exact ⟨pos, by simp, pdno, hpdno, hsymbol⟩
    · rw [if_neg hsymbol] at h
      obtain ⟨found, hmem, hfound⟩ := ih h
      exact ⟨found, List.mem_cons_of_mem pos hmem, hfound⟩

theorem findOdno_eq_head {odno : String} {rows : List Json}
    (h : ∀ row ∈ rows, HasField row "ODNO" odno) : findOdno odno rows = .ok rows.head? := by
  cases rows with
  | nil => rfl
  | cons row rows =>
    obtain ⟨value, hvalue, htext⟩ := h row (by simp)
    simp [findOdno, hvalue, htext, bind, Except.bind, pure, Except.pure]

/-- Filled on the strength of rows: either a row of the order, or a holding of its symbol when
there is none. -/
theorem resolveFromRecords_filled {brokerOrderId : String} {symbol : Option String}
    {records : List Json} (hrecords : ∀ row ∈ records, HasField row "ODNO" brokerOrderId)
    (w : World) {result : OrderStatusResult} {v : World}
    (hrun : (client.resolveFromRecords brokerOrderId symbol records).run restExec w =
      (.ok result, v))
    (hfilled : result.status = .filled) :
    (∃ row ∈ records, ShowsFilled row) ∨
      (records = [] ∧ ∃ pos ∈ returnedRows balanceUrl
        ((client.resolveFromRecords brokerOrderId symbol records).trace restExec w),
        ∃ pdno, pos.get "PDNO" .null = .ok pdno ∧ equalsSymbol pdno symbol = true) := by
  unfold resolveFromRecords at hrun ⊢
  rw [findOdno_eq_head hrecords] at hrun ⊢
  cases records with
  | cons row records =>
    refine .inl ⟨row, by simp, ?_⟩
    cases hparse : parseOrderStatusItem row none with
    | error e => simp [orRaises, hparse] at hrun
    | ok parsed =>
      have : parsed = result := by simpa [orRaises, hparse] using congrArg Prod.fst hrun
      exact parseOrderStatusItem_filled hparse (this ▸ hfilled)
  | nil =>
    refine .inr ⟨rfl, ?_⟩
    simp only [List.head?_nil, orRaises, Program.bind_eq, Program.ret_bind] at hrun ⊢
    have hrows := Program.Always.run restExec (client.balancePositions_rows []) w
    rw [Program.trace_bind]
    rw [Program.run_bind] at hrun
    cases hpositions : client.balancePositions.run restExec w with
    | mk r u =>
      rw [hpositions] at hrun hrows
      cases r with
      | error e => cases hrun
      | ok positions =>
        cases hresolve : resolveFromPositions brokerOrderId symbol positions with
        | error e => simp [hresolve] at hrun
        | ok resolved =>
          have : resolved = result := by simpa [hresolve] using congrArg Prod.fst hrun
          obtain ⟨pos, hmem, hpos⟩ := resolveFromPositions_filled hresolve (this ▸ hfilled)
          refine ⟨pos, returnedRows_mono balanceUrl ?_ (hrows positions rfl hmem), hpos⟩
          exact List.subset_append_left _ _

/-- An order is reported as filled only on a settlement row of it that shows a complete
execution or, when the settlement returned no row of it, on a holding of its symbol. -/
theorem resolveUnknownState_filled (brokerOrderId : String) (symbol : Option String)
    (orderSide : Option OrderSide) (orderCreatedAt : Option Time) (w : World)
    (hfilled : ((client.resolveUnknownState brokerOrderId symbol orderSide orderCreatedAt).run
      restExec w).1.toOption.map (·.status) = some .filled) :
    ∃ records v, (client.settlementRecords (unknownStateQuery brokerOrderId symbol orderSide)
        orderCreatedAt).run restExec w = (.ok records, v) ∧
      ((∃ row ∈ records, row ∈ returnedRows ccldUrl ((client.resolveUnknownState brokerOrderId
            symbol orderSide orderCreatedAt).trace restExec w) ∧
          HasField row "ODNO" brokerOrderId ∧ ShowsFilled row) ∨
        (records = [] ∧ ∃ pos ∈ returnedRows balanceUrl ((client.resolveUnknownState brokerOrderId
            symbol orderSide orderCreatedAt).trace restExec w),
          ∃ pdno, pos.get "PDNO" .null = .ok pdno ∧
            equalsSymbol pdno (symbol.filter (· ≠ "")) = true)) := by
  set query := unknownStateQuery brokerOrderId symbol orderSide
  have hrows := Program.Always.run restExec
    (client.settlementRecords_rows query rfl orderCreatedAt []) w
  unfold resolveUnknownState at hfilled ⊢
  rw [Program.bind_eq] at hfilled ⊢
  rw [Program.run_bind] at hfilled
  rw [Program.trace_bind]
  cases hsettlement : (client.settlementRecords query orderCreatedAt).run restExec w with
  | mk r v =>
    rw [hsettlement] at hfilled hrows
    cases r with
    | error e => cases hfilled
    | ok records =>
      obtain ⟨hreturned, hfields⟩ := hrows records rfl
      refine ⟨records, v, rfl, ?_⟩
      cases hresult : (client.resolveFromRecords brokerOrderId query.symbol records).run restExec v
        with
      | mk r u =>
        change Option.map _ ((client.resolveFromRecords brokerOrderId query.symbol records).run
          restExec v).1.toOption = _ at hfilled
        rw [hresult] at hfilled
        cases r with
        | error e => cases hfilled
        | ok result =>
          have hstatus : result.status = .filled := Option.some.inj hfilled
          obtain ⟨row, hmem, hshows⟩ | ⟨hnone, pos, hmem, hpos⟩ :=
            client.resolveFromRecords_filled hfields v hresult hstatus
          · refine .inl ⟨row, hmem, ?_, hfields row hmem, hshows⟩
            exact returnedRows_mono ccldUrl (List.subset_append_left _ _) (hreturned hmem)
          · refine .inr ⟨hnone, pos, ?_, hpos⟩
            exact returnedRows_mono balanceUrl (List.subset_append_right _ _) hmem

/-- A live client that asks about an order while nothing else goes on. -/
def liveClient : KISRestClient where
  apiKey := "key"
  apiSecret := "secret"
  accountNumber := "12345678"
  accountProductCode := "01"
  env := "live"
  signature := fun _ => "hash"

def idleBucket : OperationBucket where
  capacity := 1
  refillRate := 0
  remaining := 1
  refillAt := 0

/-- Each endpoint answers with the given rows. -/
def answering (settlement balance : List Json) : World where
  outcomes := fun url _ => .ok {
    statusCode := 200
    body := some (.obj [("rt_cd", .str "0"),
      ("output1", .arr (if url = ccldUrl then settlement else balance))]) }
  interludes := fun _ => { clock := fun _ => 0, monotonic := 0 }
  session := {
    budget := {
      order := idleBucket
      inquiry := idleBucket
      reconciliation := idleBucket
      marketData := idleBucket
      auth := idleBucket }
    accessToken := .str "token"
    tokenExpiresAt := 1 }

def filledRow : Json := .obj [("ODNO", .str "0000117057"), ("PDNO", .str "005930"),
  ("SLL_BUY_DVSN_CD", .str "02"), ("ORD_QTY", .str "10"), ("CCLD_QTY", .str "10"),
  ("ORD_STAT", .str "01")]

theorem resolveUnknownState_filled_filledRow :
    ∃ records v, (liveClient.settlementRecords
        (unknownStateQuery "0000117057" (some "005930") (some .buy)) none).run restExec
        (answering [filledRow] []) = (.ok records, v) ∧
      ((∃ row ∈ records, row ∈ returnedRows ccldUrl ((liveClient.resolveUnknownState "0000117057"
            (some "005930") (some .buy) none).trace restExec (answering [filledRow] [])) ∧
          HasField row "ODNO" "0000117057" ∧ ShowsFilled row) ∨
        (records = [] ∧ ∃ pos ∈ returnedRows balanceUrl ((liveClient.resolveUnknownState
            "0000117057" (some "005930") (some .buy) none).trace restExec
              (answering [filledRow] [])),
          ∃ pdno, pos.get "PDNO" .null = .ok pdno ∧
            equalsSymbol pdno ((some "005930").filter (· ≠ "")) = true)) :=
  liveClient.resolveUnknownState_filled "0000117057" (some "005930") (some .buy) none
    (answering [filledRow] []) (by decide +kernel)

/-- Executed, of an order quantity of zero. -/
def unorderedRow : Json := .obj [("ODNO", .str "0000117057"), ("PDNO", .str "005930"),
  ("SLL_BUY_DVSN_CD", .str "02"), ("ORD_QTY", .str "0"), ("CCLD_QTY", .str "3"),
  ("ORD_STAT", .str "00")]

/-- A buy order that the settlement does not list is filled because its symbol is held, and one
whose row has no order quantity because the row says that it is executed. -/
theorem unlisted_buy_filled_by_holding :
    ((liveClient.resolveUnknownState "0000117057" (some "005930") (some .buy) none).run restExec
      (answering [] [.obj [("PDNO", .str "005930"), ("HLDG_QTY", .str "3")]])).1.toOption.map
        (·.status) = some .filled ∧
    (returnedRows ccldUrl ((liveClient.resolveUnknownState "0000117057" (some "005930") (some .buy)
      none).trace restExec (answering [] [.obj [("PDNO", .str "005930"),
        ("HLDG_QTY", .str "3")]]))).length = 0 ∧
    ((liveClient.resolveUnknownState "0000117057" (some "005930") (some .buy) none).run restExec
      (answering [unorderedRow] [])).1.toOption.map (·.status) = some .filled := by
  decide +kernel

end KISRestClient

end AgentTrading.Kis

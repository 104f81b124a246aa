import Mathlib.Data.List.Sort
import Mathlib.Data.String.Basic
import AgentTrading.Kis.Settlement
import AgentTrading.Library.Outcome

/-! `normalize_kis_fill_observation` against `_parse_order_status_item`, the two readings of a
settlement row. The first looks a field up under several keys in either case, the second under
one key in upper case. -/
namespace AgentTrading.Kis
open Domain Library

/-- `get_kis_field` on a row. -/
def Dict.kisField (item : Dict) (field : String) (default : Json) : Json :=
  let value := item.get field .null
  if value.isNull || value.isText "" then item.get (lower field) default else value

/-- `get_kis_value`: the first of the fields that is neither absent nor empty. -/
def Dict.kisValue (item : Dict) (fields : List String) (default : Json) : Json :=
  ((fields.map fun field => item.kisField field .null).find? fun value =>
    !(value.isNull || value.isText "")).getD default

def cumulativeQtyFields : List String := ["TOT_CCLD_QTY", "CCLD_QTY"]

def averagePriceFields : List String := ["AVG_PRVS", "CCLD_UNPR"]

def fillTimeFields : List String := ["CCLD_TMD", "INFM_TMD"]

def orderStatusFields : List String := ["ORD_STAT", "CCLD_CNDT_NAME", "ORD_DVSN_NAME"]

/-- `raw_field_fingerprint` is a digest of the names of the filled fields. -/
structure NormalizedKisFillObservation where
  brokerNativeOrderId : String
  symbol : String
  side : Option OrderSide
  orderedQuantity : Option Dec
  cumulativeFilledQuantity : Option Dec
  averageFillPrice : Option Dec
  fillTimeCandidate : Option String
  orderStatusRaw : Option String
  cancelYn : Option String
  rvseYn : Option String
  brokerFillIdCandidate : Option String
  rawFieldFingerprint : String
  isParseable : Bool

/-- `_to_decimal`, by the text of the value. -/
def toDecimal? (raw : Json) : Option Dec :=
  if raw.isNull || raw.isText "" then none else (parseDecimal raw.text).toOption

def sideFromCode (code : String) : Option OrderSide :=
  if code = "01" then some .sell else if code = "02" then some .buy else none

/-- `str(value).strip()`. -/
def strippedText (value : Json) : String := String.ofList (strip value.text.toList)

/-- `text or None`. -/
def nonEmpty (text : String) : Option String := if text = "" then none else some text

def presentKeys (item : Dict) : List String :=
  ((item.filter fun entry => !(entry.2.isNull || entry.2.isText "")).map (·.1)).insertionSort
    (· ≤ ·)

/-- `digest` is the first sixteen hexadecimal digits of a SHA-256. -/
def normalizeKisFillObservation (digest : String → String) (item : Dict) :
    NormalizedKisFillObservation :=
  let odno := strippedText (item.kisField "ODNO" (.str ""))
  let pdno := strippedText (item.kisField "PDNO" (.str ""))
  { brokerNativeOrderId := odno
    symbol := pdno
    side := sideFromCode (strippedText (item.kisField "SLL_BUY_DVSN_CD" (.str "")))
    orderedQuantity := toDecimal? (item.kisField "ORD_QTY" .null)
    cumulativeFilledQuantity := toDecimal? (item.kisValue cumulativeQtyFields .null)
    averageFillPrice := toDecimal? (item.kisValue averagePriceFields .null)
    fillTimeCandidate := nonEmpty (strippedText (item.kisValue fillTimeFields (.str "")))
    orderStatusRaw := nonEmpty (strippedText (item.kisValue orderStatusFields (.str "")))
    cancelYn := nonEmpty (strippedText (item.kisField "CNCL_YN" (.str "")))
    rvseYn := nonEmpty (strippedText (item.kisField "RVSE_YN" (.str "")))
    brokerFillIdCandidate := nonEmpty (strippedText (item.kisField "CCLD_NUM" (.str "")))
    rawFieldFingerprint := digest (String.intercalate "|" (presentKeys item))
    isParseable := odno ≠ "" && pdno ≠ "" }

@[simp] theorem normalize_cancelYn (digest : String → String) (item : Dict) :
    (normalizeKisFillObservation digest item).cancelYn =
      nonEmpty (strippedText (item.kisField "CNCL_YN" (.str ""))) := by
  simp only [normalizeKisFillObservation]

@[simp] theorem normalize_rvseYn (digest : String → String) (item : Dict) :
    (normalizeKisFillObservation digest item).rvseYn =
      nonEmpty (strippedText (item.kisField "RVSE_YN" (.str ""))) := by
  simp only [normalizeKisFillObservation]

/-- The code of the row, absent when it is empty. -/
def statusCode (item : Dict) : Option String :=
  let value := item.kisField "ORD_STAT" .null
  if value.isNull then none else nonEmpty (strippedText value)

/-- The row is read as `q` executed of `n` ordered. -/
def reads (digest : String → String) (item : Dict) (q n : ℚ) : Prop :=
  let observation := normalizeKisFillObservation digest item
  observation.isParseable = true ∧ observation.cumulativeFilledQuantity = some (.finite q) ∧
    observation.orderedQuantity = some (.finite n)

/-- No flag and no code speaks against an execution. -/
def undisturbedRow (digest : String → String) (item : Dict) : Prop :=
  let observation := normalizeKisFillObservation digest item
  observation.cancelYn ≠ some "Y" ∧ observation.rvseYn ≠ some "Y" ∧
    (statusCode item = none ∨ statusCode item = some "00" ∨ statusCode item = some "01")

/-- Whatever quantities the row is normalized to, the order status reports them, and it reports
an execution where there is one. -/
def decodersAgree (digest : String → String) (item : Dict) : Prop :=
  ∀ q n, reads digest item q n → ∀ clientOrderId, ∃ result,
    parseOrderStatusItem (.obj item) clientOrderId = .ok result ∧
      result.filledQuantity = .finite q ∧ result.remainingQuantity = .finite (n - q) ∧
      (0 < q → undisturbedRow digest item →
        result.status = .partiallyFilled ∨ result.status = .filled)

/-- The decimal under one key, zero where the key is absent. -/
def decimalAt (item : Dict) (key : String) : Except PyError Dec :=
  (item.get key (.str "0")).toDecimal

/-- A text, a number or nothing: what a mapping can be asked for. -/
def Json.hashable : Json → Bool
  | arr _ => false
  | obj _ => false
  | _ => true

/-- The upper-case keys `CCLD_QTY` and `ORD_QTY` by themselves hold the quantities that the
candidate keys hold, and the code is not a container. -/
def upperCaseQuantities (digest : String → String) (item : Dict) : Prop :=
  ∀ q n, reads digest item q n →
    decimalAt item "CCLD_QTY" = .ok (.finite q) ∧ decimalAt item "ORD_QTY" = .ok (.finite n) ∧
      (item.get "ORD_STAT" (.str "")).hashable = true

theorem kisOrdStat_isOk (value : Json) :
    (∃ status, kisOrdStat value = .ok status) ↔ value.hashable = true := by
  unfold kisOrdStat
  split <;> simp_all [Json.hashable]

/-- The executions that a status reports. -/
def reportsExecution (status : OrderStatus) : Prop :=
  status = .partiallyFilled ∨ status = .filled

section
variable (item : Dict) (ordQty ccldQty : ℚ)

theorem rowStatus_coded_filled :
    ∃ status, rowStatus item (some .filled) (.finite ordQty) (.finite ccldQty) = .ok status ∧
      reportsExecution status := by
  by_cases hless : ccldQty < ordQty
  · refine ⟨.partiallyFilled, ?_, Or.inl rfl⟩
    simp [rowStatus, Dec.less, hless, bind, Except.bind, pure, Except.pure]
  · by_cases hpositive : 0 < ordQty
    · refine ⟨.filled, ?_, Or.inr rfl⟩
      simp [rowStatus, Dec.less, zero, hless, hpositive, bind, Except.bind, pure, Except.pure]
    · refine ⟨.partiallyFilled, ?_, Or.inl rfl⟩
      simp [rowStatus, Dec.less, zero, hless, hpositive, bind, Except.bind, pure, Except.pure]

theorem rowStatus_coded_submitted :
    ∃ status, rowStatus item (some .submitted) (.finite ordQty) (.finite ccldQty) = .ok status ∧
      (0 < ccldQty → (item.get "CNCL_YN" .null).isText "Y" = false →
        (item.get "RVSE_YN" .null).isText "Y" = false → reportsExecution status) := by
  cases hcancel : (item.get "CNCL_YN" .null).isText "Y" with
  | true =>
    refine ⟨.cancelled, ?_, fun _ h => nomatch h⟩
    simp [rowStatus, hcancel, pure, Except.pure]
  | false =>
    cases hrevise : (item.get "RVSE_YN" .null).isText "Y" with
    | true =>
      refine ⟨.cancelled, ?_, fun _ _ h => nomatch h⟩
      simp [rowStatus, hcancel, hrevise, pure, Except.pure]
    | false =>
      by_cases hexecuted : 0 < ccldQty
      · by_cases hless : ccldQty < ordQty
        · refine ⟨.partiallyFilled, ?_, fun _ _ _ => Or.inl rfl⟩
          simp [rowStatus, hcancel, hrevise, Dec.less, zero, hexecuted, hless, bind, Except.bind,
            pure, Except.pure]
        · refine ⟨.filled, ?_, fun _ _ _ => Or.inr rfl⟩
          simp [rowStatus, hcancel, hrevise, Dec.less, zero, hexecuted, hless, bind, Except.bind,
            pure, Except.pure]
      · refine ⟨.submitted, ?_, fun h => (hexecuted h).elim⟩
        simp [rowStatus, hcancel, hrevise, Dec.less, zero, hexecuted, bind, Except.bind, pure,
          Except.pure]

theorem rowStatus_uncoded :
    ∃ status, rowStatus item none (.finite ordQty) (.finite ccldQty) = .ok status ∧
      (0 < ccldQty → reportsExecution status) := by
  by_cases hfull : ¬ ccldQty < ordQty ∧ 0 < ordQty
  · refine ⟨.filled, ?_, fun _ => Or.inr rfl⟩
    simp [rowStatus, Dec.less, zero, hfull.1, hfull.2, bind, Except.bind, pure, Except.pure]
  · have hunfilled : rowStatus item none (.finite ordQty) (.finite ccldQty) =
        unfilledStatus item (.finite ccldQty) := by
      by_cases hless : ccldQty < ordQty
      · simp [rowStatus, Dec.less, zero, hless, bind, Except.bind]
      · have hpositive : ¬ 0 < ordQty := fun h => hfull ⟨hless, h⟩
        simp [rowStatus, Dec.less, zero, hless, hpositive, bind, Except.bind]
    rw [hunfilled]
    by_cases hexecuted : 0 < ccldQty
    · refine ⟨.partiallyFilled, ?_, fun _ => Or.inl rfl⟩
      simp [unfilledStatus, Dec.less, zero, hexecuted, bind, Except.bind, pure, Except.pure]
    · simp only [unfilledStatus, Dec.less, zero, hexecuted, decide_false, bind, Except.bind,
        Bool.false_eq_true, if_false, pure, Except.pure, IsEmpty.forall_iff, and_true]
      split
      · exact ⟨_, rfl⟩
      · split
        · exact ⟨_, rfl⟩
        · exact ⟨_, rfl⟩

end

/-! What the row's own fields say, read under the upper-case key. -/

section
variable {item : Dict}

theorem kisField_of_text {field text : String} {default : Json}
    (h : (item.get field .null).isText text = true) (hne : text ≠ "") :
    item.kisField field default = .str text := by
  cases hvalue : item.get field .null with
  | str s =>
    rw [hvalue, Json.isText, decide_eq_true_eq] at h
    subst h
    simp [Dict.kisField, hvalue, Json.isNull, Json.isText, hne]
  | _ => rw [hvalue] at h; cases h

theorem strippedText_flag (field : String)
    (h : nonEmpty (strippedText (item.kisField field (.str ""))) ≠ some "Y") :
    (item.get field .null).isText "Y" = false := by
  apply Bool.eq_false_of_not_eq_true
  intro hflag
  rw [kisField_of_text hflag (by decide)] at h
  exact h (by decide)

theorem statusCode_of_text {code : String} (hcode : code ∈ ["02", "03", "05", "07"])
    (h : item.get "ORD_STAT" (.str "") = .str code) : statusCode item = some code := by
  have hlookup : item.lookup "ORD_STAT" = some (.str code) := by
    unfold Dict.get at h
    cases hl : item.lookup "ORD_STAT" with
    | none =>
      rw [hl] at h
      cases h
      simp at hcode
    | some value =>
      rw [hl] at h
      exact congrArg some h
  have hget : (item.get "ORD_STAT" .null).isText code = true := by
    simp [Dict.get, hlookup, Json.isText]
  have hne : code ≠ "" := by
    rintro rfl
    simp at hcode
  unfold statusCode
  rw [kisField_of_text hget hne]
  simp only [List.mem_cons, List.not_mem_nil, or_false] at hcode
  rcases hcode with rfl | rfl | rfl | rfl <;> decide

theorem kisOrdStat_undisturbed {status : Option OrderStatus}
    (hstatus : kisOrdStat (item.get "ORD_STAT" (.str "")) = .ok status)
    (hcode : statusCode item = none ∨ statusCode item = some "00" ∨
      statusCode item = some "01") :
    status = none ∨ status = some .submitted ∨ status = some .filled := by
  have hother : ∀ code ∈ ["02", "03", "05", "07"],
      item.get "ORD_STAT" (.str "") ≠ .str code := by
    intro code hmem heq
    rw [statusCode_of_text hmem heq] at hcode
    simp only [List.mem_cons, List.not_mem_nil, or_false] at hmem
    rcases hmem with rfl | rfl | rfl | rfl <;> simp at hcode
  unfold kisOrdStat at hstatus
  split at hstatus <;> simp_all

theorem rowStatus_decides (base : Option OrderStatus) (ordQty ccldQty : ℚ) :
    ∃ status, rowStatus item base (.finite ordQty) (.finite ccldQty) = .ok status := by
  match base with
  | some .filled => exact (rowStatus_coded_filled item ordQty ccldQty).imp fun _ h => h.1
  | some .submitted => exact (rowStatus_coded_submitted item ordQty ccldQty).imp fun _ h => h.1
  | none => exact (rowStatus_uncoded item ordQty ccldQty).imp fun _ h => h.1
  | some .draft | some .validated | some .pendingSubmit | some .acknowledged
  | some .partiallyFilled | some .cancelPending | some .cancelled | some .rejected
  | some .expired | some .reconcileRequired => exact ⟨_, rfl⟩

theorem rowStatus_execution {digest : String → String} {base : Option OrderStatus}
    {ordQty ccldQty : ℚ} {status : OrderStatus}
    (hbase : kisOrdStat (item.get "ORD_STAT" (.str "")) = .ok base)
    (hstatus : rowStatus item base (.finite ordQty) (.finite ccldQty) = .ok status)
    (hpositive : 0 < ccldQty) (hrow : undisturbedRow digest item) : reportsExecution status := by
  simp only [undisturbedRow, normalize_cancelYn, normalize_rvseYn] at hrow
  obtain ⟨hcancel, hrevise, hcode⟩ := hrow
  rcases kisOrdStat_undisturbed hbase hcode with rfl | rfl | rfl
  · obtain ⟨status', hok, hreport⟩ := rowStatus_uncoded item ordQty ccldQty
    obtain rfl := Except.ok.inj (hok.symm.trans hstatus)
    exact hreport hpositive
  · obtain ⟨status', hok, hreport⟩ := rowStatus_coded_submitted item ordQty ccldQty
    obtain rfl := Except.ok.inj (hok.symm.trans hstatus)
    exact hreport hpositive (strippedText_flag "CNCL_YN" hcancel)
      (strippedText_flag "RVSE_YN" hrevise)
  · obtain ⟨status', hok, hreport⟩ := rowStatus_coded_filled item ordQty ccldQty
    obtain rfl := Except.ok.inj (hok.symm.trans hstatus)
    exact hreport

end

/-- The order status reports the quantities a row is normalized to exactly when the upper-case
keys hold them. -/
theorem decodersAgree_iff (digest : String → String) (item : Dict) :
    decodersAgree digest item ↔ upperCaseQuantities digest item := by
  constructor
  · intro hagree q n hreads
    obtain ⟨result, hparse, hfilled, hremaining, -⟩ := hagree q n hreads none
    simp only [parseOrderStatusItem, bind_eq_ok, pure_eq_ok] at hparse
    obtain ⟨ordQty, hord, ccldQty, hccld, rmnQty, hrmn, base, hbase, status, -, rfl⟩ := hparse
    dsimp only at hfilled hremaining
    subst hfilled hremaining
    refine ⟨hccld, ?_, (kisOrdStat_isOk _).mp ⟨base, hbase⟩⟩
    cases ordQty with
    | finite ordered =>
      have hdiff : ordered - q = n - q := by
        simp only [Dec.sub, Except.ok.injEq, Dec.finite.injEq] at hrmn
        exact hrmn
      rw [sub_left_inj.mp hdiff] at hord
      exact hord
    | _ => simp [Dec.sub] at hrmn
  · intro hupper q n hreads clientOrderId
    obtain ⟨hccld, hord, hhash⟩ := hupper q n hreads
    obtain ⟨base, hbase⟩ := (kisOrdStat_isOk _).mpr hhash
    obtain ⟨status, hstatus⟩ := @rowStatus_decides item base n q
    have hparse : ∃ result, parseOrderStatusItem (.obj item) clientOrderId = .ok result ∧
        result.filledQuantity = .finite q ∧ result.remainingQuantity = .finite (n - q) ∧
        result.status = status := by
      simp only [parseOrderStatusItem, bind_eq_ok, pure_eq_ok]
      exact ⟨_, ⟨_, hord, _, hccld, _, rfl, base, hbase, status, hstatus, rfl⟩, rfl, rfl, rfl⟩
    obtain ⟨result, hresult, hfilled, hremaining, rfl⟩ := hparse
    refine ⟨result, hresult, hfilled, hremaining, ?_⟩
    exact fun hpositive hrow => rowStatus_execution hbase hstatus hpositive hrow

/-- A row of the paper environment: lower-case keys and only the total quantity. -/
def paperRow : Dict :=
  [("odno", .str "0000012345"), ("pdno", .str "005930"), ("ord_qty", .str "10"),
    ("tot_ccld_qty", .str "10")]

/-- The row is read as ten executed of ten, and reported as submitted with nothing executed. -/
theorem paperRow_disagrees :
    reads id paperRow 10 10 ∧ undisturbedRow id paperRow ∧
      (∃ result, parseOrderStatusItem (.obj paperRow) none = .ok result ∧
        result.filledQuantity = .finite 0 ∧ result.status = .submitted) ∧
      ¬ decodersAgree id paperRow := by
  have hreads : reads id paperRow 10 10 := by
    refine ⟨by decide +kernel, ?_, ?_⟩
    · decide +kernel
    · decide +kernel
  refine ⟨hreads, ⟨by decide +kernel, by decide +kernel, by decide +kernel⟩, ?_, ?_⟩
  · have hparse : ((parseOrderStatusItem (.obj paperRow) none).map fun result =>
        (result.filledQuantity, result.status)) = .ok (.finite 0, .submitted) := by
      decide +kernel
    obtain ⟨result, hresult, hfields⟩ := map_eq_ok.mp hparse
    exact ⟨result, hresult, congrArg Prod.fst hfields, congrArg Prod.snd hfields⟩
  · rw [decodersAgree_iff]
    intro hupper
    have hccld := (hupper 10 10 hreads).1
    revert hccld
    decide +kernel

end AgentTrading.Kis

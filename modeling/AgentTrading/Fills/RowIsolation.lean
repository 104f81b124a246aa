import AgentTrading.Fills.HistorySync

/-! When one row of a settlement keeps the others from being stored: a fill time of six digits that
is not a time of the day raises, and nothing catches it before the caller. -/
namespace AgentTrading.FillHistory
open Domain Kis Library

/-- The number that two characters of a text give. -/
def pairAt (value : List Char) (i : Nat) : Nat :=
  number (((value.drop i).take 2).filterMap decimalValue)

/-- Six digits that are no time of the day, or one before the first day in UTC. -/
structure NoTime (orderDay : Date) (value : List Char) : Prop where
  length : value.length = 6
  digits : value.all isDigit = true
  fails : (∃ c ∈ value, decimalValue c = none) ∨ 23 < pairAt value 0 ∨ 59 < pairAt value 2 ∨
    59 < pairAt value 4 ∨ (orderDay.day = -719162 ∧ pairAt value 0 < 9)

instance (orderDay : Date) (value : List Char) : Decidable (NoTime orderDay value) :=
  decidable_of_iff (value.length = 6 ∧ value.all isDigit = true ∧
      ((value.any fun c => decimalValue c = none) = true ∨ 23 < pairAt value 0 ∨
        59 < pairAt value 2 ∨ 59 < pairAt value 4 ∨
        (orderDay.day = -719162 ∧ pairAt value 0 < 9))) (by
    simp only [List.any_eq_true, decide_eq_true_eq]
    exact ⟨fun ⟨length, digits, fails⟩ => ⟨length, digits, fails⟩,
      fun h => ⟨h.length, h.digits, h.fails⟩⟩)

theorem intOfDigits_ok {s : List Char} (h : ∀ c ∈ s, decimalValue c ≠ none) :
    intOfDigits s = .ok (number (s.filterMap decimalValue)) := by
  have hvalues : s.mapM decimalValue = some (s.filterMap decimalValue) := by
    induction s with
    | nil => rfl
    | cons c s ih =>
      obtain ⟨d, hd⟩ := Option.ne_none_iff_exists'.mp (h c List.mem_cons_self)
      rw [List.mapM_cons, hd, ih fun c hc => h c (List.mem_cons_of_mem _ hc),
        List.filterMap_cons_some hd]
      rfl
  rw [intOfDigits, hvalues]

theorem intOfDigits_error {s : List Char} (h : ∃ c ∈ s, decimalValue c = none) :
    intOfDigits s = .error (.other "ValueError") := by
  have hvalues : s.mapM decimalValue = none := by
    induction s with
    | nil =>
      obtain ⟨c, hc, -⟩ := h
      cases hc
    | cons c s ih =>
      rw [List.mapM_cons]
      cases hd : decimalValue c with
      | none => rfl
      | some d =>
        obtain ⟨c', hc', hnone⟩ := h
        rcases List.mem_cons.mp hc' with rfl | htail
        · rw [hd] at hnone
          cases hnone
        · rw [ih ⟨c', htail, hnone⟩]
          rfl
  rw [intOfDigits, hvalues]

theorem toUtc_error_iff (orderDay : Date) {hour minute second : Nat} (hminute : minute ≤ 59)
    (hsecond : second ≤ 59) :
    (∃ e, toUtc (orderDay.midnight +
        (hour * 3600 + minute * 60 + second) * microsPerSecond) = .error e) ↔
      orderDay.day = -719162 ∧ hour < 9 := by
  have hfirst := orderDay.first_le
  have hbefore : orderDay.midnight + (hour * 3600 + minute * 60 + second) * microsPerSecond <
      -719162 * 86400 * microsPerSecond ↔ orderDay.day = -719162 ∧ hour < 9 := by
    show (orderDay.day * 86400 - 9 * 3600) * 1000000 +
      (hour * 3600 + minute * 60 + second : Int) * 1000000 < -719162 * 86400 * 1000000 ↔ _
    omega
  rw [← hbefore, toUtc]
  split
  next h => exact iff_of_true ⟨_, rfl⟩ h
  next h => exact iff_of_false (not_raises _) h

theorem timeOfDay_error_iff (hour minute second : Nat) :
    (∃ e, timeOfDay hour minute second = .error e) ↔ 23 < hour ∨ 59 < minute ∨ 59 < second := by
  unfold timeOfDay
  split
  next h => exact iff_of_false (not_raises _) (by omega)
  next h => exact iff_of_true ⟨_, rfl⟩ (by omega)

theorem pair_read {value : List Char} (h : ∀ c ∈ value, decimalValue c ≠ none) (i : Nat) :
    intOfDigits ((value.drop i).take 2) = .ok (pairAt value i) :=
  intOfDigits_ok fun c hc => h c (List.mem_of_mem_drop (List.mem_of_mem_take hc))

theorem mem_pairs {value : List Char} (hlength : value.length = 6) {c : Char} (hc : c ∈ value) :
    c ∈ (value.drop 0).take 2 ∨ c ∈ (value.drop 2).take 2 ∨ c ∈ (value.drop 4).take 2 := by
  match value, hlength with
  | [c₀, c₁, c₂, c₃, c₄, c₅], _ =>
    simp only [List.mem_cons, List.not_mem_nil, or_false] at hc
    simp only [List.drop_zero, List.drop_succ_cons, List.take_succ_cons, List.take_zero,
      List.mem_cons, List.not_mem_nil, or_false]
    tauto

/-- What the six characters of a fill time give. -/
def clock (orderDay : Date) (value : List Char) : Except PyError (Option Time) := do
  let hour ← intOfDigits (value.take 2)
  let minute ← intOfDigits ((value.drop 2).take 2)
  let second ← intOfDigits ((value.drop 4).take 2)
  let time ← timeOfDay hour minute second
  let dt ← toUtc (orderDay.midnight + time)
  return some dt

theorem clock_special (orderDay : Date) {value : List Char} (hlength : value.length = 6)
    (hspecial : ∃ c ∈ value, decimalValue c = none) : ∃ e, clock orderDay value = .error e := by
  cases hclock : clock orderDay value with
  | error e => exact ⟨e, rfl⟩
  | ok dt =>
    exfalso
    obtain ⟨hour, hhour, hclock⟩ := bind_eq_ok.mp hclock
    obtain ⟨minute, hminute, hclock⟩ := bind_eq_ok.mp hclock
    obtain ⟨second, hsecond, -⟩ := bind_eq_ok.mp hclock
    obtain ⟨c, hc, hnone⟩ := hspecial
    rcases mem_pairs hlength hc with hmem | hmem | hmem
    · cases hhour.symm.trans (intOfDigits_error ⟨c, hmem, hnone⟩)
    · cases hminute.symm.trans (intOfDigits_error ⟨c, hmem, hnone⟩)
    · cases hsecond.symm.trans (intOfDigits_error ⟨c, hmem, hnone⟩)

theorem clock_plain (orderDay : Date) {value : List Char}
    (hplain : ∀ c ∈ value, decimalValue c ≠ none) :
    (∃ e, clock orderDay value = .error e) ↔
      (23 < pairAt value 0 ∨ 59 < pairAt value 2 ∨ 59 < pairAt value 4) ∨
        (orderDay.day = -719162 ∧ pairAt value 0 < 9) := by
  have hhour := pair_read hplain 0
  rw [List.drop_zero] at hhour
  unfold clock
  rw [hhour, pair_read hplain 2, pair_read hplain 4, ← timeOfDay_error_iff]
  simp only [bind, Except.bind, pure, Except.pure]
  cases htime : timeOfDay (pairAt value 0) (pairAt value 2) (pairAt value 4) with
  | error e => exact iff_of_true ⟨e, rfl⟩ (Or.inl ⟨e, rfl⟩)
  | ok time =>
    unfold timeOfDay at htime
    split at htime
    next hbounds =>
      obtain rfl := Except.ok.inj htime
      rw [or_iff_right (not_raises _), ← toUtc_error_iff orderDay hbounds.2.1 hbounds.2.2]
      dsimp only
      cases toUtc _ with
      | error e => exact iff_of_true ⟨e, rfl⟩ ⟨e, rfl⟩
      | ok dt => exact iff_of_false (not_raises _) (not_raises _)
    next => cases htime

theorem clock_error_iff (orderDay : Date) {value : List Char} (hlength : value.length = 6)
    (hdigits : value.all isDigit = true) :
    (∃ e, clock orderDay value = .error e) ↔ NoTime orderDay value := by
  by_cases hspecial : ∃ c ∈ value, decimalValue c = none
  · exact iff_of_true (clock_special orderDay hlength hspecial)
      ⟨hlength, hdigits, Or.inl hspecial⟩
  · have hplain : ∀ c ∈ value, decimalValue c ≠ none := fun c hc hnone => hspecial ⟨c, hc, hnone⟩
    rw [clock_plain orderDay hplain, or_assoc, or_assoc]
    exact ⟨fun h => ⟨hlength, hdigits, Or.inr h⟩, fun h => h.fails.resolve_left hspecial⟩

theorem buildFillTimestamp_error_iff (orderDay : Date) (fillTime : Option String) :
    (∃ e, buildFillTimestamp orderDay fillTime = .error e) ↔
      NoTime orderDay (strip (fillTime.getD "").toList) := by
  unfold buildFillTimestamp nonEmpty
  generalize fillTime.getD "" = text
  by_cases hempty : text = ""
  · subst hempty
    exact iff_of_false (not_raises _) fun h => absurd h.length (by decide)
  · rw [if_neg hempty]
    dsimp only
    generalize strip text.toList = value
    by_cases hdigits : value.length ≠ 6 ∨ ¬value.all isDigit = true
    · rw [if_pos hdigits]
      exact iff_of_false (not_raises _) fun h => hdigits.elim (· h.length) (· h.digits)
    · rw [if_neg hdigits]
      obtain ⟨hlength, hall⟩ := not_or.mp hdigits
      rw [not_not] at hlength hall
      exact clock_error_iff orderDay hlength hall

/-- The row has a quantity that is read, an order number and a symbol. -/
def storable (item : Dict) : Bool :=
  (filledQuantityOf item).isSome && nativeOrderIdOf item ≠ "" && symbolOf item ≠ ""

/-- The text that is read as the fill time. -/
def fillTimeText (item : Dict) : List Char :=
  strip ((textOf item fillTimeFields).getD "").toList

/-- What a stored snapshot has of its row. -/
structure ReadFrom (call : Call) (item : Dict) (snapshot : BrokerFillSnapshotEntity) : Prop where
  rawPayloadJson : snapshot.rawPayloadJson = item
  filledQuantity : filledQuantityOf item = some snapshot.filledQuantity
  fillPrice : snapshot.fillPrice = fillPriceOf item
  brokerNativeOrderId : snapshot.brokerNativeOrderId = nativeOrderIdOf item
  symbol : snapshot.symbol = symbolOf item
  accountId : snapshot.accountId = call.accountId
  orderDate : snapshot.orderDate = call.orderDay
  fillTimestamp : buildFillTimestamp call.orderDay (textOf item fillTimeFields) =
    .ok snapshot.fillTimestamp

theorem snapshotOf_ok {call : Call} {item : Dict} {filledQuantity : Decimal} (i : Nat)
    (orderRequestId : Option UUID) (hquantity : filledQuantityOf item = some filledQuantity)
    (h : ¬NoTime call.orderDay (fillTimeText item)) :
    ∃ snapshot, snapshotOf call i item filledQuantity orderRequestId = .ok snapshot ∧
      ReadFrom call item snapshot := by
  cases htime : buildFillTimestamp call.orderDay (textOf item fillTimeFields) with
  | error e => exact absurd ((buildFillTimestamp_error_iff _ _).mp ⟨e, htime⟩) h
  | ok fillTimestamp =>
    rw [snapshotOf, htime]
    exact ⟨_, rfl, rfl, hquantity, rfl, rfl, rfl, rfl, rfl, htime⟩

theorem snapshotOf_error {call : Call} {item : Dict} (i : Nat) (filledQuantity : Decimal)
    (orderRequestId : Option UUID) (h : NoTime call.orderDay (fillTimeText item)) :
    ∃ e, snapshotOf call i item filledQuantity orderRequestId = .error e := by
  obtain ⟨e, htime⟩ := (buildFillTimestamp_error_iff _ _).mpr h
  rw [snapshotOf, htime]
  exact ⟨e, rfl⟩

theorem syncRow_skips (call : Call) (i : Nat) {item : Dict} (p : Progress)
    (h : storable item = false) : syncRow call i item p = (none, p.skip) := by
  unfold storable at h
  unfold syncRow
  cases hquantity : filledQuantityOf item with
  | none => rfl
  | some filledQuantity =>
    rw [hquantity] at h
    have hblank : nativeOrderIdOf item = "" ∨ symbolOf item = "" := by
      simp only [Option.isSome_some, Bool.true_and, Bool.and_eq_false_iff, decide_eq_false_iff_not,
        not_not] at h
      exact h
    exact if_pos hblank

theorem syncRow_storable (call : Call) (i : Nat) {item : Dict} (p : Progress)
    (h : storable item = true) :
    (NoTime call.orderDay (fillTimeText item) →
      ∃ e cache, syncRow call i item p = (some e, { p with linkedOrderCache := cache })) ∧
    (¬NoTime call.orderDay (fillTimeText item) →
      ∃ snapshot cache, ReadFrom call item snapshot ∧ syncRow call i item p =
        (none, {
          fillsSynced := p.fillsSynced + 1
          fillsSkipped := p.fillsSkipped
          linkedOrderCache := cache
          upserts := p.upserts ++ [snapshot] })) := by
  unfold storable at h
  simp only [Bool.and_eq_true, decide_eq_true_eq] at h
  obtain ⟨⟨hsome, horder⟩, hsymbol⟩ := h
  obtain ⟨filledQuantity, hquantity⟩ := Option.isSome_iff_exists.mp hsome
  unfold syncRow
  rw [hquantity]
  dsimp only
  rw [if_neg (not_or.mpr ⟨horder, hsymbol⟩)]
  generalize linkedOrder call (nativeOrderIdOf item) p.linkedOrderCache = linked
  constructor
  · intro hno
    obtain ⟨e, he⟩ := snapshotOf_error i filledQuantity linked.1 hno
    rw [he]
    exact ⟨e, linked.2, rfl⟩
  · intro hno
    obtain ⟨snapshot, hsnapshot, hread⟩ := snapshotOf_ok i linked.1 hquantity hno
    rw [hsnapshot]
    exact ⟨snapshot, linked.2, hread, rfl⟩

theorem syncRows_cons (call : Call) (i : Nat) (item : Dict) (rest : List Dict) (p : Progress) :
    syncRows call i (item :: rest) p =
      match syncRow call i item p with
      | (some e, p) => (some e, p)
      | (none, p) => syncRows call (i + 1) rest p := rfl

/-- The rows that can be stored, and whose fill time lets them. -/
def Timely (call : Call) (rows : List Dict) : Prop :=
  ∀ item ∈ rows, storable item = true → ¬NoTime call.orderDay (fillTimeText item)

/-- What the loop has done with rows that it passed. -/
structure Passed (call : Call) (rows : List Dict) (p q : Progress) : Prop where
  counted : q.fillsSynced + q.fillsSkipped = p.fillsSynced + p.fillsSkipped + rows.length
  stored : ∃ new, q.upserts = p.upserts ++ new ∧
    List.Forall₂ (ReadFrom call) (rows.filter storable) new

theorem syncRows_timely {call : Call} {rows : List Dict} (h : Timely call rows) (i : Nat)
    (p : Progress) : ∃ q, syncRows call i rows p = (none, q) ∧ Passed call rows p q := by
  induction rows generalizing i p with
  | nil => exact ⟨p, rfl, rfl, [], (List.append_nil _).symm, .nil⟩
  | cons item rest ih =>
    have hrest : Timely call rest := fun other hother => h other (List.mem_cons_of_mem item hother)
    cases hstorable : storable item with
    | false =>
      obtain ⟨q, hrun, hcounted, new, hnew, hstored⟩ := ih hrest (i + 1) p.skip
      refine ⟨q, ?_, ?_, new, hnew, ?_⟩
      · rw [syncRows_cons, syncRow_skips call i p hstorable]
        exact hrun
      · rw [hcounted, List.length_cons, Progress.skip]
        dsimp only
        omega
      · rw [List.filter_cons_of_neg (by rw [hstorable]; decide)]
        exact hstored
    | true =>
      obtain ⟨snapshot, cache, hread, hrow⟩ := (syncRow_storable call i p hstorable).2
        (h item List.mem_cons_self hstorable)
      obtain ⟨q, hrun, hcounted, new, hnew, hstored⟩ := ih hrest (i + 1) _
      refine ⟨q, ?_, ?_, snapshot :: new, ?_, ?_⟩
      · rw [syncRows_cons, hrow]
        exact hrun
      · rw [hcounted, List.length_cons]
        dsimp only
        omega
      · rw [hnew, List.append_assoc]
        rfl
      · rw [List.filter_cons_of_pos hstorable]
        exact .cons hread hstored

theorem syncRows_untimely {call : Call} {rows : List Dict} (h : ¬Timely call rows) (i : Nat)
    (p : Progress) : ∃ e q, syncRows call i rows p = (some e, q) := by
  induction rows generalizing i p with
  | nil => exact absurd (fun item hitem => nomatch hitem) h
  | cons item rest ih =>
    by_cases hraises : storable item = true ∧ NoTime call.orderDay (fillTimeText item)
    · obtain ⟨e, cache, hrow⟩ := (syncRow_storable call i p hraises.1).1 hraises.2
      rw [syncRows_cons, hrow]
      exact ⟨e, _, rfl⟩
    · have hrest : ¬Timely call rest := by
        intro hrest
        apply h
        intro other hother hstorable
        rcases List.mem_cons.mp hother with rfl | hmem
        · exact fun hno => hraises ⟨hstorable, hno⟩
        · exact hrest other hmem hstorable
      cases hstorable : storable item with
      | false =>
        rw [syncRows_cons, syncRow_skips call i p hstorable]
        exact ih hrest (i + 1) _
      | true =>
        obtain ⟨snapshot, cache, -, hrow⟩ := (syncRow_storable call i p hstorable).2
          fun hno => hraises ⟨hstorable, hno⟩
        rw [syncRows_cons, hrow]
        exact ih hrest (i + 1) _

/-- The repository after these snapshots. -/
def upsertAll (snapshots items : List BrokerFillSnapshotEntity) : List BrokerFillSnapshotEntity :=
  snapshots.foldl (fun items snapshot => upsert snapshot items) items

theorem keys_upsert (snapshot : BrokerFillSnapshotEntity) (items : List BrokerFillSnapshotEntity) :
    snapshot.dedupeKey ∈ (upsert snapshot items).map (·.dedupeKey) ∧
      ∀ key ∈ items.map (·.dedupeKey), key ∈ (upsert snapshot items).map (·.dedupeKey) := by
  induction items with
  | nil => exact ⟨List.mem_cons_self, fun key hkey => nomatch hkey⟩
  | cons existing rest ih =>
    rw [upsert]
    split
    next h => exact ⟨List.mem_cons.mpr (Or.inl h.symm), fun key hkey => hkey⟩
    next h =>
      refine ⟨List.mem_cons_of_mem _ ih.1, fun key hkey => ?_⟩
      rcases List.mem_cons.mp hkey with rfl | hrest
      · exact List.mem_cons_self
      · exact List.mem_cons_of_mem _ (ih.2 key hrest)

theorem keys_upsertAll (snapshots items : List BrokerFillSnapshotEntity) :
    ∀ key ∈ items.map (·.dedupeKey) ++ snapshots.map (·.dedupeKey),
      key ∈ (upsertAll snapshots items).map (·.dedupeKey) := by
  induction snapshots generalizing items with
  | nil =>
    intro key hkey
    rw [List.map_nil, List.append_nil] at hkey
    exact hkey
  | cons snapshot snapshots ih =>
    intro key hkey
    apply ih (upsert snapshot items) key
    rw [List.map_cons, List.mem_append, List.mem_cons] at hkey
    rw [List.mem_append]
    rcases hkey with hitem | rfl | hlater
    · exact Or.inl ((keys_upsert snapshot items).2 key hitem)
    · exact Or.inl (keys_upsert snapshot items).1
    · exact Or.inr hlater

/-- The call returns with every row counted, and whatever was in the repository, each row that can
be stored is in it afterwards. -/
structure RowsIsolated (call : Call) (rows : List Dict) : Prop where
  counted : ∃ result, (syncFillHistoryForAccount call).1 = .ok result ∧
    result.fillsSynced + result.fillsSkipped = rows.length
  stored : List.Forall₂ (ReadFrom call) (rows.filter storable) (syncFillHistoryForAccount call).2
  found : ∀ items, ∀ snapshot ∈ (syncFillHistoryForAccount call).2,
    snapshot.dedupeKey ∈ (upsertAll (syncFillHistoryForAccount call).2 items).map (·.dedupeKey)

theorem syncFillHistoryForAccount_isolates_iff (call : Call) {rows : List Dict} {retries : Nat}
    (hfetch : fetchDailyCcldWithRetry call.client = .ok (rows, retries)) :
    RowsIsolated call rows ↔ ∀ item ∈ rows, storable item = true →
      ¬NoTime call.orderDay (fillTimeText item) := by
  constructor
  · intro hisolated
    by_contra huntimely
    obtain ⟨result, hresult, -⟩ := hisolated.counted
    obtain ⟨e, q, hrun⟩ := syncRows_untimely huntimely 0 {}
    rw [syncFillHistoryForAccount, hfetch] at hresult
    simp only [hrun] at hresult
    cases hresult
  · intro htimely
    obtain ⟨q, hrun, hcounted, new, hnew, hstored⟩ := syncRows_timely htimely 0 {}
    have hsync : syncFillHistoryForAccount call = (.ok {
        accountId := call.accountId
        fillsSynced := q.fillsSynced
        fillsSkipped := q.fillsSkipped
        retriedDays := if 0 < retries then 1 else 0
        retryCount := if 0 < retries then retries else 0 }, new) := by
      rw [syncFillHistoryForAccount, hfetch]
      simp only [hrun]
      rw [hnew, List.nil_append]
    refine ⟨⟨_, congrArg Prod.fst hsync, ?_⟩, ?_, fun items snapshot hsnapshot => ?_⟩
    · rw [hcounted]
      exact Nat.zero_add _
    · rw [hsync]
      exact hstored
    · exact keys_upsertAll _ items _
        (List.mem_append_right _ (List.mem_map_of_mem (f := (·.dedupeKey)) hsnapshot))

/-- An executed order with this fill time. -/
def rowAt (time : String) : Dict :=
  [("ODNO", .str "0000033121"), ("PDNO", .str "001740"), ("TOT_CCLD_QTY", .str "207"),
    ("AVG_PRVS", .str "11980"), ("CCLD_TMD", .str time)]

/-- The call of the first of June 2026 that is answered these rows. -/
def callOf (rows : List Dict) : Call where
  client := { inquireDailyCcld := fun _ => .ok rows }
  accountId := 1
  orderDay := ⟨20605, by decide, by decide⟩
  fillSyncRunId := 2
  getByNativeOrderId _ := none
  newId i := i
  now i := i
  errorText := PyError.className

/-- Rows whose fill time is blank, short or a time of the day are stored. -/
theorem callOf_isolates : RowsIsolated (callOf [rowAt "144305", rowAt "", rowAt "9000"])
    [rowAt "144305", rowAt "", rowAt "9000"] := by
  have hfetch : fetchDailyCcldWithRetry
      (callOf [rowAt "144305", rowAt "", rowAt "9000"]).client =
        .ok ([rowAt "144305", rowAt "", rowAt "9000"], 0) := rfl
  apply (syncFillHistoryForAccount_isolates_iff _ hfetch).mpr
  decide +kernel

/-- Five and twenty hours in the first row keep the second from being stored. -/
theorem callOf_raises :
    ¬RowsIsolated (callOf [rowAt "250000", rowAt "144305"]) [rowAt "250000", rowAt "144305"] ∧
      storable (rowAt "144305") = true ∧
      (syncFillHistoryForAccount (callOf [rowAt "250000", rowAt "144305"])).1 =
        .error (.other "ValueError") ∧
      (syncFillHistoryForAccount (callOf [rowAt "250000", rowAt "144305"])).2 = [] := by
  have hraises : (syncFillHistoryForAccount (callOf [rowAt "250000", rowAt "144305"])).1 =
      .error (.other "ValueError") := rfl
  refine ⟨fun h => ?_, by decide +kernel, hraises, rfl⟩
  obtain ⟨result, hresult, -⟩ := h.counted
  cases hraises.symm.trans hresult

end AgentTrading.FillHistory

import Mathlib.Data.Rat.Floor
import Mathlib.Tactic.Linarith
import Mathlib.Tactic.NormNum
import AgentTrading.RealizedPnl.Flag
import AgentTrading.RealizedPnl.SameBooks

/-! Fills delivered again. A sale is known by its event whenever it comes back; a purchase only
while it is the last fill of its account and instrument, or when it comes back late. -/
namespace AgentTrading.RealizedPnl
open Domain Library Library.Runs

/-- What a column keeps, it keeps again as it is. -/
def Numerics.Settles (n : Numerics) : Prop := ∀ x, n.column (n.column x) = n.column x

/-- Every state reads as its columns would keep it. -/
def Settled (n : Numerics) (ledger : Ledger) : Prop :=
  ∀ key row, ledger.states key = some row → row.stored n = row

/-- A fill brought to `apply_fill`, with the trading tables the call finds and the repository
calls of it that raise. -/
structure Delivery where
  trades : Trades
  fill : FillEventEntity
  faults : ApplyFaults := {}
  again : Bool := false

/-- The ledger and the fills applied to it so far. -/
structure Delivered where
  ledger : Ledger
  applied : List NormalizedFill

section
variable (n : Numerics) (deriveEventId : UUID → UUID)

def Delivery.reply (d : Delivery) (ledger : Ledger) : Except LedgerError ApplyFillResult × Ledger :=
  applyFill n deriveEventId d.trades d.faults ledger d.fill

def deliver (s : Delivered) (d : Delivery) : Delivered where
  ledger := (d.reply n deriveEventId s.ledger).2
  applied :=
    if (d.reply n deriveEventId s.ledger).1.toOption.any (·.status = .applied) then
      s.applied ++ (d.trades.normalize d.fill).toList
    else s.applied

end

/-- The fill is the last one applied to its account and instrument, or earlier than that. -/
def lastOrEarlier (ledger : Ledger) (fill : NormalizedFill) : Prop :=
  ∃ row, ledger.states (fill.accountId, fill.instrumentId) = some row ∧
    (row.lastAppliedFillEventId = some fill.fillEventId ∨
      ∃ last, row.lastAppliedFillTimestamp = some last ∧ fill.fillTimestamp < last)

/-- What is delivered again has been applied, and a purchase is the last fill of its account and
instrument or earlier. -/
def Recognised (s : Delivered) (d : Delivery) : Prop :=
  d.again = true → ∃ fill ∈ s.applied, d.trades.normalize d.fill = some fill ∧
    (fill.side = .buy → lastOrEarlier s.ledger fill)

/-- Kept by every write of a call, and blind to the queue and the runs. -/
structure KeptByWrites (n : Numerics) (I : Ledger → Prop) : Prop where
  upsertState : ∀ ledger row, I ledger → I (ledger.upsertState n row)
  putEvent : ∀ ledger event, I ledger → I (ledger.putEvent n event)
  upsertAggregate : ∀ ledger row, I ledger → I (ledger.upsertAggregate n row)
  books : ∀ ledger ledger' : Ledger, ledger'.states = ledger.states →
    ledger'.events = ledger.events → ledger'.aggregates = ledger.aggregates → I ledger → I ledger'

section
variable {n : Numerics} {deriveEventId : UUID → UUID} {ledger : Ledger}

theorem inMemory_settles : inMemory.Settles := fun _ => rfl

theorem numericColumn_digits (x : ℚ) : ∃ k : ℤ, numericColumn x = k / 100000000 := by
  unfold numericColumn
  dsimp only
  split
  · refine ⟨-(|x| * 100000000 + 1 / 2).floor, ?_⟩
    rw [Int.cast_neg, neg_div]
  · exact ⟨_, rfl⟩

theorem numericColumn_of_digits (k : ℤ) :
    numericColumn ((k : ℚ) / 100000000) = k / 100000000 := by
  have hunit : (0 : ℚ) < 100000000 := by norm_num
  have hscaled : |(k : ℚ) / 100000000| * 100000000 = (|k| : ℤ) := by
    rw [abs_div, abs_of_pos hunit, Int.cast_abs]
    exact div_mul_cancel₀ _ hunit.ne'
  have hfloor : ((|k| : ℤ) + 1 / 2 : ℚ).floor = |k| := by
    change ⌊((|k| : ℤ) + 1 / 2 : ℚ)⌋ = |k|
    apply Int.floor_eq_iff.mpr
    constructor
    · linarith
    · linarith
  unfold numericColumn
  rw [hscaled, hfloor]
  dsimp only
  split
  next hneg =>
    have hk : (k : ℚ) < 0 := by
      rw [div_lt_iff₀ hunit, zero_mul] at hneg
      exact hneg
    rw [Int.cast_abs, abs_of_neg hk, neg_div, neg_neg]
  next hpos =>
    have hk : 0 ≤ (k : ℚ) := by
      rw [not_lt, le_div_iff₀ hunit, zero_mul] at hpos
      exact hpos
    rw [Int.cast_abs, abs_of_nonneg hk]

theorem postgres_settles : postgres.Settles := by
  intro x
  obtain ⟨k, hk⟩ := numericColumn_digits x
  show numericColumn (numericColumn x) = numericColumn x
  rw [hk, numericColumn_of_digits]

namespace KeptByWrites

variable {I : Ledger → Prop}

theorem finishApply (h : KeptByWrites n I) (hI : I ledger) (fault : Option PyError)
    (run : RealizedPnlComputationRunEntity) (result : ApplyFillResult) :
    I (finishApply fault ledger run result).2 := by
  unfold RealizedPnl.finishApply
  cases fault with
  | none => exact h.books ledger _ rfl rfl rfl hI
  | some e => exact hI

theorem requireRecompute (h : KeptByWrites n I) (hI : I ledger) (faults : ApplyFaults)
    (run : RealizedPnlComputationRunEntity) (fill : NormalizedFill)
    (state : Option PositionCostBasisStateEntity) (reasonCode reason : String) :
    I (requireRecompute n faults ledger run fill state reasonCode reason).2 := by
  unfold RealizedPnl.requireRecompute
  cases faults.addQueueItem with
  | some e => exact hI
  | none =>
    have hqueued : I (ledger.addQueueItem fill.accountId fill.instrumentId reasonCode
        fill.fillEventId).2 := h.books ledger _ rfl rfl rfl hI
    dsimp only
    cases faults.markState with
    | some e => exact hqueued
    | none => exact h.finishApply (h.upsertState _ _ hqueued) _ _ _

theorem writeFill (h : KeptByWrites n I) (hI : I ledger) (faults : ApplyFaults)
    (row : PositionCostBasisStateEntity) (event : Option RealizedPnlEventEntity) :
    I (writeFill n faults ledger row event).2 := by
  unfold RealizedPnl.writeFill
  cases faults.upsertState with
  | some e => exact hI
  | none =>
    have hstate : I (ledger.upsertState n row) := h.upsertState _ _ hI
    cases event with
    | none => exact hstate
    | some event =>
      dsimp only
      cases addEventFault faults (ledger.upsertState n row) event with
      | some e => exact hstate
      | none =>
        have hput : I ((ledger.upsertState n row).putEvent n event) := h.putEvent _ _ hstate
        cases faults.updateAggregate with
        | some e => exact hput
        | none => exact h.upsertAggregate _ _ hput

theorem applyNormalized (h : KeptByWrites n I) (hI : I ledger) (faults : ApplyFaults)
    (run : RealizedPnlComputationRunEntity) (fill : NormalizedFill) :
    I (applyNormalized n deriveEventId faults ledger run fill).2 := by
  rcases applyNormalized_cases n deriveEventId faults ledger run fill with
    ⟨-, run', result, -, hafter⟩ | ⟨-, -, code, text, hafter⟩ | ⟨-, -, row, event, -, hafter⟩
  · rw [hafter]
    exact h.finishApply hI _ _ _
  · rw [hafter]
    exact h.requireRecompute hI faults run fill _ _ _
  · have hwritten := h.writeFill hI faults row event
    rw [hafter]
    unfold recordFill
    cases hwrite : RealizedPnl.writeFill n faults ledger row event with
    | mk fault written =>
      rw [hwrite] at hwritten
      cases fault with
      | some e => exact h.requireRecompute hwritten faults run fill _ _ _
      | none => exact h.finishApply hwritten _ _ _

theorem applyFill (h : KeptByWrites n I) (hI : I ledger) (t : Trades) (faults : ApplyFaults)
    (fill : FillEventEntity) : I (applyFill n deriveEventId t faults ledger fill).2 := by
  rcases applyFill_cases n deriveEventId t faults ledger fill with
    ⟨-, hstates, hevents, haggregates⟩ | ⟨lineage, -, -, -, hafter⟩
  · exact h.books ledger _ hstates hevents haggregates hI
  · have hadded : I (ledger.addRun .realtimeIncremental none).2 :=
      h.books ledger _ rfl rfl rfl hI
    rw [hafter]
    exact h.applyNormalized hadded faults _ _

end KeptByWrites

theorem settled_keptByWrites (hn : n.Settles) : KeptByWrites n (Settled n) where
  upsertState := by
    intro ledger row h key row' hrow'
    unfold Ledger.upsertState at hrow'
    dsimp only at hrow'
    rw [Function.update_apply] at hrow'
    split at hrow'
    · cases hrow'
      simp only [PositionCostBasisStateEntity.stored, hn _]
    · exact h key row' hrow'
  putEvent := fun _ _ h => h
  upsertAggregate := fun _ _ h => h
  books := by
    intro ledger ledger' hstates _ _ h key row hrow
    rw [hstates] at hrow
    exact h key row hrow

theorem event_keptByWrites (id : UUID) :
    KeptByWrites n fun ledger => (ledger.events id).isSome = true where
  upsertState := fun _ _ h => h
  putEvent := by
    intro ledger event h
    unfold Ledger.putEvent
    dsimp only
    rw [Function.update_apply]
    split
    · rfl
    · exact h
  upsertAggregate := fun _ _ h => h
  books := by
    intro ledger ledger' _ hevents _ h
    rw [hevents]
    exact h

theorem applyFillToCostBasis_valid {state : Option PositionCostBasisStateEntity}
    {fill : NormalizedFill} {runId : UUID}
    {accepted : PositionCostBasisStateEntity × Option RealizedPnlEventEntity}
    (h : applyFillToCostBasis n deriveEventId state fill runId = .ok accepted) :
    validateFill fill = .ok () := by
  unfold applyFillToCostBasis at h
  obtain ⟨⟨⟩, hvalid, -⟩ := bind_eq_ok.mp h
  exact hvalid

/-- An event that is written stands afterwards. -/
theorem writeFill_event {faults : ApplyFaults} {row : PositionCostBasisStateEntity}
    {event : RealizedPnlEventEntity}
    (h : (writeFill n faults ledger row (some event)).1 = none) :
    ((writeFill n faults ledger row (some event)).2.events event.fillEventId).isSome = true := by
  unfold writeFill at h ⊢
  cases hstate : faults.upsertState with
  | some e => rw [hstate] at h; cases h
  | none =>
    rw [hstate] at h
    dsimp only at h ⊢
    cases hadd : addEventFault faults (ledger.upsertState n row) event with
    | some e => rw [hadd] at h; cases h
    | none =>
      rw [hadd] at h
      have hput : (((ledger.upsertState n row).putEvent n event).events
          event.fillEventId).isSome = true := by
        unfold Ledger.putEvent
        dsimp only
        rw [Function.update_self]
        rfl
      cases hday : faults.updateAggregate with
      | some e => rw [hday] at h; cases h
      | none => exact hput

theorem requireRecompute_notApplied {faults : ApplyFaults} {run : RealizedPnlComputationRunEntity}
    {fill : NormalizedFill} {state : Option PositionCostBasisStateEntity}
    {reasonCode reason : String} {res : ApplyFillResult}
    (h : (requireRecompute n faults ledger run fill state reasonCode reason).1 = .ok res) :
    res.status = .recomputeRequired := by
  unfold requireRecompute at h
  cases hqueue : faults.addQueueItem with
  | some e => rw [hqueue] at h; cases h
  | none =>
    rw [hqueue] at h
    dsimp only at h
    cases hmark : faults.markState with
    | some e => rw [hmark] at h; cases h
    | none =>
      rw [hmark] at h
      exact finishApply_status h

/-- A fill is applied where it is neither a duplicate nor late and the engine accepts it, and a
sale that is applied has its event. -/
theorem applyNormalized_applied {faults : ApplyFaults} {run : RealizedPnlComputationRunEntity}
    {fill : NormalizedFill} {res : ApplyFillResult}
    (h : (applyNormalized n deriveEventId faults ledger run fill).1 = .ok res)
    (hstatus : res.status = .applied) :
    (checkDuplicate ledger (ledger.states (fill.accountId, fill.instrumentId)) fill).1 = false ∧
      outOfOrder (ledger.states (fill.accountId, fill.instrumentId)) fill = false ∧
      validateFill fill = .ok () ∧
      (fill.side = .sell → ((applyNormalized n deriveEventId faults ledger run fill).2.events
        fill.fillEventId).isSome = true) := by
  rcases applyNormalized_cases n deriveEventId faults ledger run fill with
    ⟨-, run', result, hskipped, hafter⟩ | ⟨-, -, code, text, hafter⟩ |
      ⟨hduplicate, hlate, row, event, hengine, hafter⟩
  · rw [hafter] at h
    cases hstatus.symm.trans ((finishApply_status h).trans hskipped)
  · rw [hafter] at h
    cases hstatus.symm.trans (requireRecompute_notApplied h)
  · refine ⟨hduplicate, hlate, applyFillToCostBasis_valid hengine, fun hside => ?_⟩
    have hfrom := applyFillToCostBasis_fromFill hengine
    obtain ⟨sold, rfl⟩ := Option.isSome_iff_exists.mp (hfrom.isSale.mpr hside)
    obtain ⟨-, -, hfill, -⟩ := hfrom.copies sold rfl
    have hwritten : (writeFill n faults ledger row (some sold)).1 = none →
        ((writeFill n faults ledger row (some sold)).2.events sold.fillEventId).isSome = true :=
      writeFill_event
    rw [hafter] at h ⊢
    unfold recordFill at h ⊢
    cases hwrite : writeFill n faults ledger row (some sold) with
    | mk fault written =>
      rw [hwrite] at h hwritten
      cases fault with
      | some e => cases hstatus.symm.trans (requireRecompute_notApplied h)
      | none =>
        rw [← hfill]
        apply KeptByWrites.finishApply (event_keptByWrites (n := n) sold.fillEventId)
        exact hwritten rfl

theorem applyFill_applied {t : Trades} {faults : ApplyFaults} {fill : FillEventEntity}
    {res : ApplyFillResult} (h : (applyFill n deriveEventId t faults ledger fill).1 = .ok res)
    (hstatus : res.status = .applied) :
    ∃ normalized, t.normalize fill = some normalized ∧ validateFill normalized = .ok () ∧
      (normalized.side = .sell → ((applyFill n deriveEventId t faults ledger fill).2.events
        normalized.fillEventId).isSome = true) := by
  rcases applyFill_cases n deriveEventId t faults ledger fill with
    ⟨⟨e, herror⟩, -⟩ | ⟨lineage, hlineage, -, -, hafter⟩
  · cases herror.symm.trans h
  · rw [hafter] at h ⊢
    obtain ⟨-, -, hvalid, hsold⟩ := applyNormalized_applied h hstatus
    refine ⟨buildNormalizedFill fill lineage, ?_, hvalid, hsold⟩
    unfold Trades.normalize
    rw [hlineage]
    rfl

/-- The applied fills are valid ones, each sale of them has its event, and the states read as
their columns keep them. -/
structure Delivered.Sound (n : Numerics) (s : Delivered) : Prop where
  settled : Settled n s.ledger
  valid : ∀ fill ∈ s.applied, validateFill fill = .ok ()
  sold : ∀ fill ∈ s.applied, fill.side = .sell →
    (s.ledger.events fill.fillEventId).isSome = true

theorem deliver_sound (hn : n.Settles) {s : Delivered} (h : s.Sound n) (d : Delivery) :
    (deliver n deriveEventId s d).Sound n := by
  have hevents : ∀ id, (s.ledger.events id).isSome = true →
      ((d.reply n deriveEventId s.ledger).2.events id).isSome = true := by
    intro id hid
    exact (event_keptByWrites (n := n) id).applyFill hid d.trades d.faults d.fill
  have hsettled : Settled n (d.reply n deriveEventId s.ledger).2 :=
    (settled_keptByWrites hn).applyFill h.settled d.trades d.faults d.fill
  have hnew : ∀ fill, (d.reply n deriveEventId s.ledger).1.toOption.any (·.status = .applied) →
      d.trades.normalize d.fill = some fill → validateFill fill = .ok () ∧
        (fill.side = .sell →
          ((d.reply n deriveEventId s.ledger).2.events fill.fillEventId).isSome = true) := by
    intro fill hany hfill
    obtain ⟨res, hres, hstatus⟩ := toOption_any.mp hany
    obtain ⟨normalized, hnormalized, hvalid, hsold⟩ :=
      applyFill_applied hres (of_decide_eq_true hstatus)
    cases hnormalized.symm.trans hfill
    exact ⟨hvalid, hsold⟩
  unfold deliver
  constructor
  · exact hsettled
  · intro fill hfill
    dsimp only at hfill
    split at hfill
    next hany =>
      rcases List.mem_append.mp hfill with hfill | hfill
      · exact h.valid fill hfill
      · exact (hnew fill hany (Option.mem_toList.mp hfill)).1
    next => exact h.valid fill hfill
  · intro fill hfill hside
    dsimp only at hfill
    split at hfill
    next hany =>
      rcases List.mem_append.mp hfill with hfill | hfill
      · exact hevents _ (h.sold fill hfill hside)
      · exact (hnew fill hany (Option.mem_toList.mp hfill)).2 hside
    next => exact hevents _ (h.sold fill hfill hside)

theorem lastOrEarlier_iff (fill : NormalizedFill) (hside : fill.side = .buy) :
    lastOrEarlier ledger fill ↔
      (checkDuplicate ledger (ledger.states (fill.accountId, fill.instrumentId)) fill).1 = true ∨
        outOfOrder (ledger.states (fill.accountId, fill.instrumentId)) fill = true := by
  unfold lastOrEarlier checkDuplicate outOfOrder
  rw [hside]
  cases ledger.states (fill.accountId, fill.instrumentId) with
  | none => simp
  | some row => simp [Option.any_eq_true]

/-- What the ledger knows the fill by: a sale by its event, a purchase as the last fill of its
account and instrument or as an earlier one. -/
theorem recognised_stops {s : Delivered} (h : s.Sound n) {fill : NormalizedFill}
    (hfill : fill ∈ s.applied) (hbuy : fill.side = .buy → lastOrEarlier s.ledger fill) :
    (checkDuplicate s.ledger (s.ledger.states (fill.accountId, fill.instrumentId)) fill).1 = true ∨
      outOfOrder (s.ledger.states (fill.accountId, fill.instrumentId)) fill = true := by
  cases hside : fill.side with
  | buy => exact (lastOrEarlier_iff fill hside).mp (hbuy hside)
  | sell =>
    apply Or.inl
    unfold checkDuplicate
    rw [hside]
    exact h.sold fill hfill hside

theorem requireRecompute_sameBooks (hsettled : Settled n ledger) (faults : ApplyFaults)
    (run : RealizedPnlComputationRunEntity) {fill : NormalizedFill}
    {row : PositionCostBasisStateEntity}
    (hrow : ledger.states (fill.accountId, fill.instrumentId) = some row)
    (reasonCode reason : String) :
    SameBooks (requireRecompute n faults ledger run fill (some row) reasonCode reason).2
      ledger := by
  unfold requireRecompute
  cases faults.addQueueItem with
  | some e => exact .of_tables rfl rfl rfl
  | none =>
    dsimp only
    cases faults.markState with
    | some e => exact .of_tables rfl rfl rfl
    | none =>
      apply (SameBooks.finishApply ..).trans
      constructor
      · intro key
        have hkey : (row.accountId, row.instrumentId) = (fill.accountId, fill.instrumentId) :=
          ledger.states_keyed _ row hrow
        show (Function.update ledger.states (row.accountId, row.instrumentId)
          (some ((markedState fill.accountId fill.instrumentId (some row) reason).stored n))
            key).map (·.unmarked) = (ledger.states key).map (·.unmarked)
        rw [hkey, Function.update_apply]
        split
        next heq =>
          rw [heq, hrow]
          show some (row.stored n).unmarked = some row.unmarked
          rw [hsettled _ row hrow]
        next => rfl
      · exact fun _ => rfl
      · exact fun _ => rfl

theorem applyNormalized_recognised (hsettled : Settled n ledger) (faults : ApplyFaults)
    (run : RealizedPnlComputationRunEntity) (fill : NormalizedFill)
    (hstops :
      (checkDuplicate ledger (ledger.states (fill.accountId, fill.instrumentId)) fill).1 = true ∨
        outOfOrder (ledger.states (fill.accountId, fill.instrumentId)) fill = true) :
    SameBooks (applyNormalized n deriveEventId faults ledger run fill).2 ledger := by
  rcases applyNormalized_cases n deriveEventId faults ledger run fill with
    ⟨-, run', result, -, hafter⟩ | ⟨hduplicate, -, code, text, hafter⟩ |
      ⟨hduplicate, hintime, -⟩
  · rw [hafter]
    exact SameBooks.finishApply ..
  · rw [hafter]
    have hlate := hstops.resolve_left (Bool.eq_false_iff.mp hduplicate)
    cases hrow : ledger.states (fill.accountId, fill.instrumentId) with
    | none =>
      rw [hrow] at hlate
      cases hlate
    | some row => exact requireRecompute_sameBooks hsettled faults run hrow _ _
  · rcases hstops with h | h
    · exact (Bool.false_ne_true (hduplicate.symm.trans h)).elim
    · exact (Bool.false_ne_true (hintime.symm.trans h)).elim

theorem reply_recognised {s : Delivered} (h : s.Sound n) {d : Delivery} {fill : NormalizedFill}
    (hfill : fill ∈ s.applied) (hnormalize : d.trades.normalize d.fill = some fill)
    (hbuy : fill.side = .buy → lastOrEarlier s.ledger fill) :
    SameBooks (d.reply n deriveEventId s.ledger).2 s.ledger := by
  obtain ⟨lineage, hlineage, rfl⟩ := Option.map_eq_some_iff.mp hnormalize
  have hstops := recognised_stops h hfill hbuy
  unfold Delivery.reply
  rcases applyFill_cases n deriveEventId d.trades d.faults s.ledger d.fill with
    ⟨-, hstates, hevents, haggregates⟩ | ⟨lineage', hlineage', -, -, hafter⟩
  · exact .of_tables hstates hevents haggregates
  · cases (toOption_eq_some.mp hlineage).symm.trans hlineage'
    have hadded : Settled n (s.ledger.addRun .realtimeIncremental none).2 := h.settled
    have hsame : SameBooks (applyNormalized n deriveEventId d.faults
        (s.ledger.addRun .realtimeIncremental none).2
        (s.ledger.addRun .realtimeIncremental none).1 (buildNormalizedFill d.fill lineage)).2
        (s.ledger.addRun .realtimeIncremental none).2 :=
      applyNormalized_recognised hadded d.faults _ _ hstops
    rw [hafter]
    exact ⟨hsame.states, hsame.events, hsame.aggregates⟩

theorem applyNormalized_again_iff (run : RealizedPnlComputationRunEntity) {fill : NormalizedFill}
    (hvalid : validateFill fill = .ok ())
    (hsold : fill.side = .sell → (ledger.events fill.fillEventId).isSome = true) :
    (applyNormalized n deriveEventId {} ledger run fill).1.toOption.any (·.status = .applied) =
        true ↔
      fill.side = .buy ∧ ¬lastOrEarlier ledger fill := by
  constructor
  · intro hany
    obtain ⟨res, hres, hstatus⟩ := toOption_any.mp hany
    obtain ⟨hduplicate, hlate, -⟩ := applyNormalized_applied hres (of_decide_eq_true hstatus)
    cases hside : fill.side with
    | buy =>
      refine ⟨rfl, fun hknown => ?_⟩
      rcases (lastOrEarlier_iff fill hside).mp hknown with h | h
      · exact Bool.false_ne_true (hduplicate.symm.trans h)
      · exact Bool.false_ne_true (hlate.symm.trans h)
    | sell =>
      unfold checkDuplicate at hduplicate
      rw [hside] at hduplicate
      cases hduplicate.symm.trans (hsold hside)
  · rintro ⟨hside, hknown⟩
    rw [lastOrEarlier_iff fill hside, not_or, Bool.not_eq_true, Bool.not_eq_true] at hknown
    have hengine : applyFillToCostBasis n deriveEventId
        (ledger.states (fill.accountId, fill.instrumentId)) fill run.computationRunId =
          .ok (applyBuy n (ledger.states (fill.accountId, fill.instrumentId)) fill, none) := by
      unfold applyFillToCostBasis
      rw [hvalid, hside]
      rfl
    unfold applyNormalized
    dsimp only
    rw [hknown.1, hknown.2, hengine]
    rfl

/-- Brought back with no call raising, an applied fill is applied once more exactly if it is a
purchase that neither is the last fill of its account and instrument nor is earlier. -/
theorem applyFill_again_iff {s : Delivered} (h : s.Sound n) {t : Trades}
    {fillEvent : FillEventEntity} {fill : NormalizedFill} (hfill : fill ∈ s.applied)
    (hnormalize : t.normalize fillEvent = some fill) :
    (applyFill n deriveEventId t {} s.ledger fillEvent).1.toOption.any (·.status = .applied) =
        true ↔
      fill.side = .buy ∧ ¬lastOrEarlier s.ledger fill := by
  obtain ⟨lineage, hlineage, rfl⟩ := Option.map_eq_some_iff.mp hnormalize
  have hsold : (buildNormalizedFill fillEvent lineage).side = .sell →
      ((s.ledger.addRun .realtimeIncremental none).2.events
        (buildNormalizedFill fillEvent lineage).fillEventId).isSome = true := h.sold _ hfill
  unfold applyFill
  rw [toOption_eq_some.mp hlineage]
  exact applyNormalized_again_iff (s.ledger.addRun .realtimeIncremental none).1
    (h.valid _ hfill) hsold

end

/-- Fills brought back leave the books that the fills have without them, so long as each purchase
comes back as the last fill of its account and instrument or as an earlier one. One that comes
back otherwise is applied once more. -/
theorem redelivered_sameBooks (n : Numerics) (hn : n.Settles) (deriveEventId : UUID → UUID)
    (start : Ledger) (hstart : Settled n start) (deliveries : List Delivery)
    (hrecognised : Meets (deliver n deriveEventId) Recognised ⟨start, []⟩ deliveries) :
    let delivered := run (deliver n deriveEventId) ⟨start, []⟩ deliveries
    let once := run (deliver n deriveEventId) ⟨start, []⟩ (deliveries.filter fun d => !d.again)
    SameBooks delivered.ledger once.ledger ∧
      ∀ (t : Trades) (fillEvent : FillEventEntity), ∀ fill ∈ delivered.applied,
        t.normalize fillEvent = some fill →
          ((applyFill n deriveEventId t {} delivered.ledger fillEvent).1.toOption.any
              (·.status = .applied) = true ↔
            fill.side = .buy ∧ ¬lastOrEarlier delivered.ledger fill) := by
  have hsound : Delivered.Sound n ⟨start, []⟩ :=
    { settled := hstart
      valid := fun _ hfill => (List.not_mem_nil hfill).elim
      sold := fun _ hfill => (List.not_mem_nil hfill).elim }
  have hrelated := run_filter_related (deliver n deriveEventId) (deliver n deriveEventId)
    (fun d => !d.again) (C := Recognised)
    (R := fun s u : Delivered => s.Sound n ∧ SameBooks s.ledger u.ledger)
    (fun s u d h _ _ => ⟨deliver_sound hn h.1 d, h.2.applyFill d.trades d.faults d.fill⟩)
    (fun s u d h hd hagain => by
      rw [Bool.not_eq_false'] at hagain
      obtain ⟨fill, hfill, hnormalize, hbuy⟩ := hd hagain
      exact ⟨deliver_sound hn h.1 d, (reply_recognised h.1 hfill hnormalize hbuy).trans h.2⟩)
    ⟨start, []⟩ ⟨start, []⟩ deliveries ⟨hsound, .of_tables rfl rfl rfl⟩ hrecognised
  refine ⟨hrelated.2, fun t fillEvent fill hfill hnormalize => ?_⟩
  exact applyFill_again_iff hrelated.1 hfill hnormalize

/-! Two purchases of one unit each, of account 1 in instrument 2. -/

def parted (id : UUID) (time : Time) (again : Bool) : Delivery :=
  { trades := partlyFilled, fill := partFill id time, again := again }

theorem redelivered_sameBooks_lateAndLast :
    SameBooks
      (run (deliver inMemory id) ⟨Ledger.empty, []⟩
        [parted 0 100 false, parted 1 200 false, parted 0 100 true, parted 1 200 true]).ledger
      (run (deliver inMemory id) ⟨Ledger.empty, []⟩
        [parted 0 100 false, parted 1 200 false]).ledger := by
  apply (redelivered_sameBooks inMemory inMemory_settles id Ledger.empty (fun _ _ h => nomatch h)
    [parted 0 100 false, parted 1 200 false, parted 0 100 true, parted 1 200 true] ?_).1
  refine ⟨(nomatch ·), (nomatch ·), fun _ => ?_, fun _ => ?_, trivial⟩
  · refine ⟨buildNormalizedFill (partFill 0 100) ⟨1, 2, 0, .buy⟩, by decide +kernel, rfl, ?_⟩
    intro hside
    apply (lastOrEarlier_iff _ hside).mpr
    decide +kernel
  · refine ⟨buildNormalizedFill (partFill 1 200) ⟨1, 2, 0, .buy⟩, by decide +kernel, rfl, ?_⟩
    intro hside
    apply (lastOrEarlier_iff _ hside).mpr
    decide +kernel

/-- Of two purchases at one time, the first, delivered again, is added again, and nothing is
marked. -/
theorem equalTimes_addedAgain :
    let first := parted 0 100 false
    let second := parted 1 100 false
    let delivered := run (deliver inMemory id) ⟨Ledger.empty, []⟩ [first, second, parted 0 100 true]
    let once := run (deliver inMemory id) ⟨Ledger.empty, []⟩ [first, second]
    once.applied.map (·.fillEventId) = [0, 1] ∧
      (once.ledger.states (1, 2)).map (·.quantity) = some 2 ∧
      (delivered.ledger.states (1, 2)).map (·.quantity) = some 3 ∧
      ¬flagged delivered.ledger (1, 2) := by
  decide +kernel

end AgentTrading.RealizedPnl

import Mathlib.Data.List.Pairwise
import AgentTrading.Snapshots.VarInputs

/-! Whose symbol the inputs carry. A position keeps no symbol, and the first row with its quantity
and average price lends it one. -/
namespace AgentTrading.Snapshots.VarInputs
open Domain Kis Library

/-- The symbol of a row, absent where it is blank. -/
def entryOf : Json → Option (String × Dict)
  | .obj raw => if symbolText raw = "" then none else some (symbolText raw, raw)
  | _ => none

def entries (rows : List Json) : List (String × Dict) := rows.filterMap entryOf

theorem entryOf_obj (raw : Dict) : entryOf (.obj raw) =
    if symbolText raw = "" then none else some (symbolText raw, raw) := rfl

theorem entryOf_eq_some {row : Json} {e : String × Dict} :
    entryOf row = some e ↔ row = .obj e.2 ∧ e.1 = symbolText e.2 ∧ e.1 ≠ "" := by
  obtain ⟨symbol, raw⟩ := e
  cases row with
  | obj found =>
    rw [entryOf_obj]
    split
    next hblank =>
      refine iff_of_false (fun h => nomatch h) ?_
      rintro ⟨hrow, hsymbol, hne⟩
      obtain rfl := Json.obj.inj hrow
      exact hne (hsymbol.trans hblank)
    next hne =>
      dsimp only
      rw [Option.some.injEq, Prod.mk.injEq, Json.obj.injEq]
      constructor
      · rintro ⟨rfl, rfl⟩
        exact ⟨rfl, rfl, hne⟩
      · rintro ⟨rfl, rfl, -⟩
        exact ⟨rfl, rfl⟩
  | _ =>
    refine iff_of_false (fun h => nomatch h) ?_
    rintro ⟨hrow, -⟩
    cases hrow

theorem mem_entries {rows : List Json} {e : String × Dict} :
    e ∈ entries rows ↔ .obj e.2 ∈ rows ∧ e.1 = symbolText e.2 ∧ e.1 ≠ "" := by
  unfold entries
  rw [List.mem_filterMap]
  constructor
  · rintro ⟨row, hrow, he⟩
    obtain ⟨rfl, hsymbol⟩ := entryOf_eq_some.mp he
    exact ⟨hrow, hsymbol⟩
  · rintro ⟨hrow, hsymbol⟩
    exact ⟨_, hrow, entryOf_eq_some.mpr ⟨rfl, hsymbol⟩⟩

theorem entry_mem {rows : List Json} {raw : Dict} (hrow : .obj raw ∈ rows)
    (hsymbol : symbolText raw ≠ "") : (symbolText raw, raw) ∈ entries rows := by
  apply List.mem_filterMap.mpr
  refine ⟨.obj raw, hrow, ?_⟩
  rw [entryOf_obj, if_neg hsymbol]

theorem addRow_obj (table : List (String × Dict)) (raw : Dict) : addRow table (.obj raw) =
    if symbolText raw = "" then table else Keyed.upsert Prod.fst (symbolText raw, raw) table := rfl

theorem rawBySymbol_eq {rows : List Json} (h : ((entries rows).map Prod.fst).Nodup) :
    rawBySymbol rows = entries rows := by
  have hfold : ∀ table, rows.foldl addRow table =
      (entries rows).foldl (fun table e => Keyed.upsert Prod.fst e table) table := by
    unfold entries
    clear h
    induction rows with
    | nil => exact fun table => rfl
    | cons row rest ih =>
      intro table
      rw [List.foldl_cons, ih]
      cases row with
      | obj raw =>
        by_cases hblank : symbolText raw = ""
        · rw [addRow_obj, if_pos hblank, List.filterMap_cons, entryOf_obj, if_pos hblank]
        · rw [addRow_obj, if_neg hblank, List.filterMap_cons, entryOf_obj, if_neg hblank,
            List.foldl_cons]
      | _ => rfl
  rw [rawBySymbol, hfold]
  exact Keyed.foldl_upsert h

def isNumber : Dec → Bool
  | .nan => false
  | .snan => false
  | _ => true

/-- The rows have the same quantity and the same average price. -/
structure Alike (a b : Dict) : Prop where
  quantity : quantityOf a = quantityOf b
  averagePrice : averagePriceOf a = averagePriceOf b
  quantityIsNumber : isNumber (quantityOf b) = true
  averagePriceIsNumber : isNumber (averagePriceOf b) = true

instance (a b : Dict) : Decidable (Alike a b) :=
  decidable_of_iff (quantityOf a = quantityOf b ∧ averagePriceOf a = averagePriceOf b ∧
      isNumber (quantityOf b) = true ∧ isNumber (averagePriceOf b) = true)
    ⟨fun ⟨quantity, averagePrice, hquantity, haverage⟩ =>
      ⟨quantity, averagePrice, hquantity, haverage⟩,
      fun h => ⟨h.quantity, h.averagePrice, h.quantityIsNumber, h.averagePriceIsNumber⟩⟩

/-- The first row like the given one, or the first of all where none is. -/
inductive Lends (rows : List Json) (raw : Dict) (other : String × Dict) : Prop
  | alike (before after : List (String × Dict)) (split : entries rows = before ++ other :: after)
      (alike : Alike other.2 raw) (first : ∀ e ∈ before, ¬Alike e.2 raw)
  | unlike (after : List (String × Dict)) (head : entries rows = other :: after)
      (none_alike : ∀ e ∈ entries rows, ¬Alike e.2 raw)

theorem lends_iff {rows : List Json} {raw : Dict} {other : String × Dict} :
    ((entries rows).find? fun e => Alike e.2 raw).or (entries rows).head? = some other ↔
      Lends rows raw other := by
  cases hfind : (entries rows).find? fun e => Alike e.2 raw with
  | some found =>
    obtain ⟨halike, before, after, hsplit, hfirst⟩ := List.find?_eq_some_iff_append.mp hfind
    rw [Option.some_or, Option.some.injEq]
    constructor
    · rintro rfl
      exact .alike before after hsplit (of_decide_eq_true halike) fun e he => by
        simpa using hfirst e he
    · rintro (⟨before', after', hsplit', halike', hfirst'⟩ | ⟨after', hhead, hnone⟩)
      · have hother : (entries rows).find? (fun e => Alike e.2 raw) = some other :=
          List.find?_eq_some_iff_append.mpr ⟨decide_eq_true halike', before', after', hsplit',
            fun e he => by simpa using hfirst' e he⟩
        exact Option.some.inj (hfind.symm.trans hother)
      · exact absurd (of_decide_eq_true halike) (hnone found (List.mem_of_find?_eq_some hfind))
  | none =>
    have hnone : ∀ e ∈ entries rows, ¬Alike e.2 raw := by
      intro e he
      simpa using List.find?_eq_none.mp hfind e he
    rw [Option.none_or]
    constructor
    · intro hhead
      obtain ⟨after, hsplit⟩ := List.head?_eq_some_iff.mp hhead
      exact .unlike after hsplit hnone
    · rintro (⟨before, after, hsplit, halike, -⟩ | ⟨after, hhead, -⟩)
      · refine absurd halike (hnone other ?_)
        rw [hsplit]
        exact List.mem_append_right _ List.mem_cons_self
      · rw [hhead]
        rfl

theorem equals_ok {a b : Dec} {same : Bool} (h : equals a b = .ok same) :
    same = true ↔ a = b ∧ isNumber b = true := by
  cases a <;> cases b <;> cases h <;> simp [isNumber]

theorem sameHolding_ok {a b : Dict} {position : PositionSnapshotEntity} {same : Bool}
    (hquantity : position.quantity = quantityOf b)
    (haverage : position.averagePrice = averagePriceOf b)
    (h : sameHolding a position = .ok same) : same = true ↔ Alike a b := by
  unfold sameHolding at h
  rw [hquantity, haverage] at h
  obtain ⟨sameQuantity, heq, h⟩ := bind_eq_ok.mp h
  have hsame := equals_ok heq
  cases sameQuantity with
  | false =>
    cases h
    refine iff_of_false Bool.false_ne_true fun halike => ?_
    exact absurd (hsame.mpr ⟨halike.quantity, halike.quantityIsNumber⟩) Bool.false_ne_true
  | true =>
    obtain ⟨hq, hnumber⟩ := hsame.mp rfl
    rw [equals_ok h]
    exact ⟨fun ⟨ha, hnumber'⟩ => ⟨hq, ha, hnumber, hnumber'⟩,
      fun halike => ⟨halike.averagePrice, halike.averagePriceIsNumber⟩⟩

theorem matchSymbol_ok {position : PositionSnapshotEntity} {raw : Dict}
    {table : List (String × Dict)} {found : Option String}
    (hquantity : position.quantity = quantityOf raw)
    (haverage : position.averagePrice = averagePriceOf raw)
    (h : matchSymbol position table = .ok found) :
    found = (table.find? fun e => Alike e.2 raw).map Prod.fst := by
  induction table with
  | nil =>
    cases h
    rfl
  | cons e rest ih =>
    obtain ⟨symbol, row⟩ := e
    obtain ⟨same, hsame, h⟩ := bind_eq_ok.mp h
    have halike := sameHolding_ok hquantity haverage hsame
    cases same with
    | false =>
      have hunlike : ¬Alike row raw := fun ha => Bool.false_ne_true (halike.mpr ha)
      rw [List.find?_cons_of_neg (by simpa using hunlike)]
      exact ih h
    | true =>
      rw [List.find?_cons_of_pos (by simpa using halike.mp rfl)]
      cases h
      rfl

theorem resolveSymbolForPosition_ok {position : PositionSnapshotEntity} {raw : Dict}
    {rows : List Json} {found : Option String} (hquantity : position.quantity = quantityOf raw)
    (haverage : position.averagePrice = averagePriceOf raw)
    (h : resolveSymbolForPosition position (entries rows) = .ok found) {symbol : String} :
    found = some symbol ↔ ∃ other, Lends rows raw other ∧ other.1 = symbol := by
  obtain ⟨matched, hmatched, h⟩ := bind_eq_ok.mp h
  have hfound : found =
      (((entries rows).find? fun e => Alike e.2 raw).or (entries rows).head?).map Prod.fst := by
    rw [matchSymbol_ok hquantity haverage hmatched] at h
    cases hfind : (entries rows).find? fun e => Alike e.2 raw with
    | some e =>
      rw [hfind] at h
      cases h
      rfl
    | none =>
      rw [hfind] at h
      cases h
      rfl
  rw [hfound, Option.map_eq_some_iff]
  simp only [lends_iff]

/-- The closing prices that are fetched for a position under a symbol. -/
def historyOf (w : VarWorld) (k : Nat) (symbol : String) : Except PyError (List Dec) :=
  fetchVarDailyBars (w.inquireDailyItemchartprice k symbol) >>= closePricesOf

/-- The prices of a symbol are fetched and some are positive. -/
def HasHistory (w : VarWorld) (k : Nat) (symbol : String) : Prop :=
  ∃ prices, historyOf w k symbol = .ok prices ∧ prices ≠ []

/-- The row that stands under a symbol, an empty one where none does. -/
def rowOf (table : List (String × Dict)) (symbol : String) : Dict :=
  ((table.find? (·.1 = symbol)).map Prod.snd).getD []

/-- What an input is made of. -/
structure MadeOf (w : VarWorld) (table : List (String × Dict)) (k : Nat)
    (position : PositionSnapshotEntity) (input : DeterministicVarPositionInput) : Prop where
  resolved : resolveSymbolForPosition position table = .ok (some input.symbol)
  not_blank : input.symbol ≠ ""
  history : historyOf w k input.symbol = .ok input.closePrices
  some_price : input.closePrices ≠ []
  value : heldMarketValueOf position (rowOf table input.symbol) = .ok input.heldMarketValue

theorem varInputOf_ok {w : VarWorld} {table : List (String × Dict)} {k : Nat}
    {position : PositionSnapshotEntity} {outcome : Except VarSkip DeterministicVarPositionInput}
    (h : varInputOf w table k position = .ok outcome) :
    (∃ input, outcome = .ok input ∧ MadeOf w table k position input) ∨
      (∃ skip, outcome = .error skip) ∧ ∀ symbol, symbol ≠ "" →
        resolveSymbolForPosition position table = .ok (some symbol) → ¬HasHistory w k symbol := by
  obtain ⟨found, hfound, h⟩ := bind_eq_ok.mp h
  rw [hfound]
  split at h
  next =>
    cases h
    exact Or.inr ⟨⟨_, rfl⟩, fun symbol _ hsymbol => nomatch hsymbol⟩
  next =>
    cases h
    refine Or.inr ⟨⟨_, rfl⟩, fun symbol hne hsymbol => ?_⟩
    cases hsymbol
    exact absurd rfl hne
  next symbol hne =>
    cases hfetch : fetchVarDailyBars (w.inquireDailyItemchartprice k symbol) with
    | error e =>
      rw [hfetch] at h
      cases h
      refine Or.inr ⟨⟨_, rfl⟩, fun other _ hother => ?_⟩
      cases hother
      rintro ⟨prices, hprices, -⟩
      rw [historyOf, hfetch] at hprices
      cases hprices
    | ok rawBars =>
      rw [hfetch] at h
      obtain ⟨closePrices, hprices, h⟩ := bind_eq_ok.mp h
      have hhistory : historyOf w k symbol = .ok closePrices := by
        rw [historyOf, hfetch]
        exact hprices
      split at h
      next hempty =>
        cases h
        refine Or.inr ⟨⟨_, rfl⟩, fun other _ hother => ?_⟩
        cases hother
        rintro ⟨prices, hprices', hsome⟩
        obtain rfl := Except.ok.inj (hhistory.symm.trans hprices')
        exact hsome (List.isEmpty_iff.mp hempty)
      next hsome =>
        obtain ⟨heldMarketValue, hvalue, h⟩ := bind_eq_ok.mp h
        cases h
        exact Or.inl ⟨_, rfl, hfound, hne, hhistory, fun hnil => hsome (List.isEmpty_iff.mpr hnil),
          hvalue⟩

/-! Positions with their rows, and inputs with their positions. -/

/-- The position that a row gives. -/
def builtFrom (w : VarWorld) : Json × Nat → Option (Dict × PositionSnapshotEntity)
  | (.obj raw, i) =>
    if (Dict.get raw "pdno" (.str "")).truthy = false then none
    else
      (instrumentOf w i (Dict.get raw "pdno" (.str ""))).map fun instrumentId =>
        (raw, positionOf w raw instrumentId)
  | _ => none

/-- The positions, each behind the row that it was built from. -/
def built (w : VarWorld) (i : Nat) (rows : List Json) : List (Dict × PositionSnapshotEntity) :=
  (rows.zipIdx i).filterMap (builtFrom w)

theorem builtFrom_eq_some {w : VarWorld} {row : Json} {i : Nat} {raw : Dict}
    {position : PositionSnapshotEntity} (h : builtFrom w (row, i) = some (raw, position)) :
    row = .obj raw ∧ ∃ instrumentId, position = positionOf w raw instrumentId := by
  cases row with
  | obj found =>
    unfold builtFrom at h
    dsimp only at h
    split at h
    next => cases h
    next =>
      obtain ⟨instrumentId, -, heq⟩ := Option.map_eq_some_iff.mp h
      cases heq
      exact ⟨rfl, instrumentId, rfl⟩
  | _ => cases h

theorem readPositions_ok {w : VarWorld} {i : Nat} {rows : List Json}
    {positions : List PositionSnapshotEntity} {errors : List SyncError}
    (h : readPositions w i rows = .ok (positions, errors)) :
    positions = (built w i rows).map Prod.snd := by
  induction rows generalizing i positions errors with
  | nil =>
    cases h
    rfl
  | cons row rest ih =>
    cases row with
    | obj raw =>
      obtain ⟨⟨later, laterErrors⟩, hlater, h⟩ := bind_eq_ok.mp h
      have hrest := ih hlater
      rw [built, List.zipIdx_cons, List.filterMap_cons]
      dsimp only at h
      unfold builtFrom
      dsimp only
      split at h
      next hblank =>
        rw [if_pos hblank]
        cases h
        exact hrest
      next hpdno =>
        rw [if_neg hpdno]
        cases hinstrument : instrumentOf w i (Dict.get raw "pdno" (.str "")) with
        | none =>
          rw [hinstrument] at h
          cases h
          exact hrest
        | some instrumentId =>
          rw [hinstrument] at h
          cases h
          exact congrArg (positionOf w raw instrumentId :: ·) hrest
    | _ => cases h

/-- An input with the position it is for, the place of the position and its row. -/
structure Made where
  index : Nat
  raw : Dict
  position : PositionSnapshotEntity
  input : DeterministicVarPositionInput

def madeFrom (w : VarWorld) (table : List (String × Dict)) :
    (Dict × PositionSnapshotEntity) × Nat → Option Made
  | ((raw, position), k) =>
    match varInputOf w table k position with
    | .ok (.ok input) => some ⟨k, raw, position, input⟩
    | _ => none

def madeFor (w : VarWorld) (table : List (String × Dict)) (k : Nat)
    (l : List (Dict × PositionSnapshotEntity)) : List Made :=
  (l.zipIdx k).filterMap (madeFrom w table)

/-- The inputs for the positions of the rows. -/
def made (w : VarWorld) (rows : List Json) : List Made :=
  madeFor w (rawBySymbol rows) 0 (built w 0 rows)

theorem madeFrom_eq_some {w : VarWorld} {table : List (String × Dict)} {raw : Dict}
    {position : PositionSnapshotEntity} {k : Nat} {m : Made} :
    madeFrom w table ((raw, position), k) = some m ↔
      m.index = k ∧ m.raw = raw ∧ m.position = position ∧
        varInputOf w table k position = .ok (.ok m.input) := by
  unfold madeFrom
  dsimp only
  split
  next input hinput =>
    rw [hinput, Option.some.injEq]
    constructor
    · rintro rfl
      exact ⟨rfl, rfl, rfl, rfl⟩
    · rintro ⟨rfl, rfl, rfl, heq⟩
      cases heq
      rfl
  next hnone =>
    refine iff_of_false (fun h => nomatch h) ?_
    rintro ⟨-, -, -, hinput⟩
    exact hnone _ hinput

theorem mem_made {w : VarWorld} {rows : List Json} {m : Made} :
    m ∈ made w rows ↔ (built w 0 rows)[m.index]? = some (m.raw, m.position) ∧
      varInputOf w (rawBySymbol rows) m.index m.position = .ok (.ok m.input) := by
  unfold made madeFor
  rw [List.mem_filterMap]
  constructor
  · rintro ⟨⟨⟨raw, position⟩, k⟩, hmem, hmade⟩
    obtain ⟨rfl, rfl, rfl, hinput⟩ := madeFrom_eq_some.mp hmade
    exact ⟨List.mk_mem_zipIdx_iff_getElem?.mp hmem, hinput⟩
  · rintro ⟨hbuilt, hinput⟩
    exact ⟨((m.raw, m.position), m.index), List.mk_mem_zipIdx_iff_getElem?.mpr hbuilt,
      madeFrom_eq_some.mpr ⟨rfl, rfl, rfl, hinput⟩⟩

theorem varInputs_ok {w : VarWorld} {table : List (String × Dict)} {k : Nat}
    {l : List (Dict × PositionSnapshotEntity)} {inputs : List DeterministicVarPositionInput}
    {errors : List VarSkip} (h : varInputs w table k (l.map Prod.snd) = .ok (inputs, errors)) :
    inputs = (madeFor w table k l).map (·.input) ∧
      ∀ p ∈ l.zipIdx k, ∃ outcome, varInputOf w table p.2 p.1.2 = .ok outcome := by
  induction l generalizing k inputs errors with
  | nil =>
    cases h
    exact ⟨rfl, fun p hp => nomatch hp⟩
  | cons pair rest ih =>
    obtain ⟨raw, position⟩ := pair
    obtain ⟨outcome, houtcome, h⟩ := bind_eq_ok.mp h
    obtain ⟨⟨later, laterErrors⟩, hlater, h⟩ := bind_eq_ok.mp h
    obtain ⟨hlisted, hreturned⟩ := ih hlater
    constructor
    · rw [madeFor, List.zipIdx_cons, List.filterMap_cons, madeFrom]
      dsimp only at houtcome ⊢
      rw [houtcome]
      cases outcome with
      | ok input =>
        cases h
        exact congrArg (input :: ·) hlisted
      | error skip =>
        cases h
        exact hlisted
    · intro p hp
      rw [List.zipIdx_cons, List.mem_cons] at hp
      rcases hp with rfl | hp
      · exact ⟨outcome, houtcome⟩
      · exact hreturned p hp

/-- The input has the symbol of the row, the prices fetched under it and the value of the row. -/
structure Own (w : VarWorld) (m : Made) : Prop where
  symbol : m.input.symbol = symbolText m.raw
  closePrices : historyOf w m.index (symbolText m.raw) = .ok m.input.closePrices
  heldMarketValue : heldMarketValueOf m.position m.raw = .ok m.input.heldMarketValue

/-- The inputs are those of the positions, each its own, and no two of one symbol. -/
structure OwnSymbols (w : VarWorld) (rows : List Json)
    (inputs : List DeterministicVarPositionInput) : Prop where
  listed : inputs = (made w rows).map (·.input)
  own : ∀ m ∈ made w rows, Own w m
  nodup : (inputs.map (·.symbol)).Nodup

/-- No position with prices under the symbol that it is lent is lent another row's. -/
def LendsOwn (w : VarWorld) (rows : List Json) : Prop :=
  ∀ k raw position, (built w 0 rows)[k]? = some (raw, position) →
    ∀ other, Lends rows raw other → HasHistory w k other.1 → other.1 = symbolText raw

theorem mem_built {w : VarWorld} {rows : List Json} {k : Nat} {raw : Dict}
    {position : PositionSnapshotEntity} (h : (built w 0 rows)[k]? = some (raw, position)) :
    .obj raw ∈ rows ∧ position.quantity = quantityOf raw ∧
      position.averagePrice = averagePriceOf raw := by
  obtain ⟨⟨row, i⟩, hmem, hbuilt⟩ := List.mem_filterMap.mp (List.mem_of_getElem? h)
  obtain ⟨rfl, instrumentId, rfl⟩ := builtFrom_eq_some hbuilt
  refine ⟨List.fst_mem_of_mem_zipIdx hmem, ?_, ?_⟩
  · dsimp only [positionOf]
  · dsimp only [positionOf]

theorem Lends.mem {rows : List Json} {raw : Dict} {other : String × Dict}
    (h : Lends rows raw other) : other ∈ entries rows := by
  cases h with
  | alike before after hsplit =>
    rw [hsplit]
    exact List.mem_append_right _ List.mem_cons_self
  | unlike after hhead =>
    rw [hhead]
    exact List.mem_cons_self

theorem made_not_blank {w : VarWorld} {rows : List Json} {m : Made} (hm : m ∈ made w rows) :
    m.input.symbol ≠ "" := by
  rcases varInputOf_ok (mem_made.mp hm).2 with ⟨input, heq, hmade⟩ | ⟨⟨skip, heq⟩, -⟩
  · cases heq
    exact hmade.not_blank
  · cases heq

section Distinct

variable {w : VarWorld} {rows : List Json} (hdistinct : ((entries rows).map Prod.fst).Nodup)

include hdistinct

theorem resolve_iff {k : Nat} {raw : Dict} {position : PositionSnapshotEntity}
    {found : Option String} {symbol : String}
    (hbuilt : (built w 0 rows)[k]? = some (raw, position))
    (h : resolveSymbolForPosition position (rawBySymbol rows) = .ok found) :
    found = some symbol ↔ ∃ other, Lends rows raw other ∧ other.1 = symbol := by
  obtain ⟨-, hquantity, haverage⟩ := mem_built hbuilt
  rw [rawBySymbol_eq hdistinct] at h
  exact resolveSymbolForPosition_ok hquantity haverage h

theorem lends_of_made {m : Made} (hm : m ∈ made w rows) :
    ∃ other, Lends rows m.raw other ∧ other.1 = m.input.symbol ∧ HasHistory w m.index other.1 := by
  obtain ⟨hbuilt, hinput⟩ := mem_made.mp hm
  rcases varInputOf_ok hinput with ⟨input, heq, hmade⟩ | ⟨⟨skip, heq⟩, -⟩
  · cases heq
    obtain ⟨other, hlends, hsymbol⟩ := (resolve_iff hdistinct hbuilt hmade.resolved).mp rfl
    refine ⟨other, hlends, hsymbol, m.input.closePrices, ?_, hmade.some_price⟩
    rw [hsymbol]
    exact hmade.history
  · cases heq

theorem made_of_lends {k : Nat} {raw : Dict} {position : PositionSnapshotEntity}
    {outcome : Except VarSkip DeterministicVarPositionInput} {other : String × Dict}
    (hbuilt : (built w 0 rows)[k]? = some (raw, position))
    (houtcome : varInputOf w (rawBySymbol rows) k position = .ok outcome)
    (hlends : Lends rows raw other) (hhistory : HasHistory w k other.1) :
    ∃ m ∈ made w rows, m.raw = raw ∧ m.input.symbol = other.1 := by
  obtain ⟨found, hfound, -⟩ := bind_eq_ok.mp houtcome
  obtain rfl := (resolve_iff hdistinct hbuilt hfound).mpr ⟨other, hlends, rfl⟩
  rcases varInputOf_ok houtcome with ⟨input, rfl, hmade⟩ | ⟨-, hskip⟩
  · refine ⟨⟨k, raw, position, input⟩, mem_made.mpr ⟨hbuilt, houtcome⟩, rfl, ?_⟩
    exact (Option.some.inj (Except.ok.inj (hfound.symm.trans hmade.resolved))).symm
  · exact absurd hhistory (hskip other.1 (mem_entries.mp hlends.mem).2.2 hfound)

theorem own_of_symbol {m : Made} (hm : m ∈ made w rows)
    (hsymbol : m.input.symbol = symbolText m.raw) : Own w m := by
  obtain ⟨hbuilt, hinput⟩ := mem_made.mp hm
  rcases varInputOf_ok hinput with ⟨input, heq, hmade⟩ | ⟨⟨skip, heq⟩, -⟩
  · cases heq
    refine ⟨hsymbol, ?_, ?_⟩
    · rw [← hsymbol]
      exact hmade.history
    · have hentry : (m.input.symbol, m.raw) ∈ entries rows :=
        mem_entries.mpr ⟨(mem_built hbuilt).1, hsymbol, hmade.not_blank⟩
      have hrow : rowOf (rawBySymbol rows) m.input.symbol = m.raw := by
        rw [rowOf, rawBySymbol_eq hdistinct, (Keyed.find?_key hdistinct _ _).mpr ⟨hentry, rfl⟩]
        rfl
      rw [← hmade.value, hrow]
  · cases heq

theorem nodup_of_own (hown : ∀ m ∈ made w rows, Own w m) :
    ((made w rows).map (·.input.symbol)).Nodup := by
  have hbuilt : ((built w 0 rows).map fun p => Json.obj p.1).Sublist rows :=
    Keyed.sublist_numbered (fun h => (builtFrom_eq_some h).1.symm) rows 0
  have hmade : ((made w rows).map fun m => (m.raw, m.position)).Sublist (built w 0 rows) := by
    refine Keyed.sublist_numbered ?_ _ 0
    intro pair k m hm
    obtain ⟨-, hraw, hposition, -⟩ := madeFrom_eq_some.mp hm
    rw [hraw, hposition]
  have hrows : ((made w rows).map fun m => Json.obj m.raw).Sublist rows := by
    have h := (hmade.map fun p => Json.obj p.1).trans hbuilt
    rwa [List.map_map] at h
  have hentries : ((made w rows).map fun m => Json.obj m.raw).filterMap entryOf =
      (made w rows).map fun m => (m.input.symbol, m.raw) := by
    rw [List.filterMap_map, ← List.filterMap_eq_map]
    apply List.filterMap_congr
    intro m hm
    have hsymbol := (hown m hm).symbol
    have hne := made_not_blank hm
    rw [hsymbol] at hne
    rw [Function.comp_apply, Function.comp_apply, entryOf_obj, if_neg hne, hsymbol]
  have hsublist := ((hrows.filterMap entryOf).map Prod.fst).nodup hdistinct
  rwa [hentries, List.map_map] at hsublist

end Distinct

theorem buildVarInputs_ok {w : VarWorld} {rows : List Json}
    {positions : List PositionSnapshotEntity} {errors : List SyncError}
    {inputs : List DeterministicVarPositionInput} {skips : List VarSkip}
    (hread : readPositions w 0 rows = .ok (positions, errors))
    (hbuild : buildVarInputs w positions rows = .ok (inputs, skips)) :
    inputs = (made w rows).map (·.input) ∧
      ∀ k raw position, (built w 0 rows)[k]? = some (raw, position) →
        ∃ outcome, varInputOf w (rawBySymbol rows) k position = .ok outcome := by
  obtain rfl := readPositions_ok hread
  unfold buildVarInputs at hbuild
  split at hbuild
  next hnone =>
    have hbuilt : built w 0 rows = [] := by
      rcases hnone with hpositions | hrows
      · rwa [List.isEmpty_iff, List.map_eq_nil_iff] at hpositions
      · rw [List.isEmpty_iff.mp hrows]
        rfl
    rw [made, hbuilt]
    cases hbuild
    exact ⟨rfl, fun k raw position h => nomatch h⟩
  next =>
    obtain ⟨hlisted, hreturned⟩ := varInputs_ok hbuild
    exact ⟨hlisted, fun k raw position h =>
      hreturned ((raw, position), k) (List.mk_mem_zipIdx_iff_getElem?.mpr h)⟩

theorem buildVarInputs_own_iff {w : VarWorld} {rows : List Json}
    {positions : List PositionSnapshotEntity} {errors : List SyncError}
    {inputs : List DeterministicVarPositionInput} {skips : List VarSkip}
    (hdistinct : ((entries rows).map Prod.fst).Nodup)
    (hread : readPositions w 0 rows = .ok (positions, errors))
    (hbuild : buildVarInputs w positions rows = .ok (inputs, skips)) :
    OwnSymbols w rows inputs ↔ LendsOwn w rows := by
  obtain ⟨hlisted, hreturned⟩ := buildVarInputs_ok hread hbuild
  constructor
  · intro hown k raw position hbuilt other hlends hhistory
    obtain ⟨outcome, houtcome⟩ := hreturned k raw position hbuilt
    obtain ⟨m, hm, rfl, hsymbol⟩ := made_of_lends hdistinct hbuilt houtcome hlends hhistory
    rw [← hsymbol]
    exact (hown.own m hm).symbol
  · intro hlends
    have hown : ∀ m ∈ made w rows, Own w m := by
      intro m hm
      obtain ⟨other, hother, hsymbol, hhistory⟩ := lends_of_made hdistinct hm
      apply own_of_symbol hdistinct hm
      rw [← hsymbol]
      exact hlends m.index m.raw m.position (mem_made.mp hm).1 other hother hhistory
    refine ⟨hlisted, hown, ?_⟩
    rw [hlisted, List.map_map]
    exact nodup_of_own hdistinct hown

theorem Alike.symm {a b : Dict} (h : Alike a b) : Alike b a where
  quantity := h.quantity.symm
  averagePrice := h.averagePrice.symm
  quantityIsNumber := by
    rw [h.quantity]
    exact h.quantityIsNumber
  averagePriceIsNumber := by
    rw [h.averagePrice]
    exact h.averagePriceIsNumber

theorem lendsOwn_of_unlike {w : VarWorld} {rows : List Json}
    (hunlike : (entries rows).Pairwise fun a b => ¬Alike a.2 b.2)
    (hnumbers : ∀ e ∈ entries rows, Alike e.2 e.2)
    (hsymbols : ∀ p ∈ built w 0 rows, symbolText p.1 ≠ "") : LendsOwn w rows := by
  intro k raw position hbuilt other hlends _
  have hsymbol : symbolText raw ≠ "" := hsymbols (raw, position) (List.mem_of_getElem? hbuilt)
  have hentry := entry_mem (mem_built hbuilt).1 hsymbol
  have hmem := hlends.mem
  cases hlends with
  | alike before after hsplit halike hfirst =>
    by_contra hne
    have hsymm : Std.Symm fun a b : String × Dict => ¬Alike a.2 b.2 :=
      ⟨fun a b hab hba => hab hba.symm⟩
    have hdiffer : other ≠ (symbolText raw, raw) := by
      rintro rfl
      exact hne rfl
    exact hunlike.forall hmem hentry hdiffer halike
  | unlike after hhead hnone => exact absurd (hnumbers _ hentry) (hnone _ hentry)

theorem not_lendsOwn_of_alike {w : VarWorld} {rows : List Json}
    (hdistinct : ((entries rows).map Prod.fst).Nodup) {k : Nat} {raw : Dict}
    {position : PositionSnapshotEntity} (hbuilt : (built w 0 rows)[k]? = some (raw, position))
    {before after : List (String × Dict)}
    (hrows : entries rows = before ++ (symbolText raw, raw) :: after)
    (hearlier : ∃ e ∈ before, Alike e.2 raw)
    (hprices : ∀ e ∈ entries rows, HasHistory w k e.1) : ¬LendsOwn w rows := by
  intro hlends
  cases hfind : before.find? fun e => Alike e.2 raw with
  | none =>
    obtain ⟨e, he, halike⟩ := hearlier
    exact List.find?_eq_none.mp hfind e he (decide_eq_true halike)
  | some other =>
    obtain ⟨halike, first, rest, hbefore, hfirst⟩ := List.find?_eq_some_iff_append.mp hfind
    have hother : Lends rows raw other := by
      refine .alike first (rest ++ (symbolText raw, raw) :: after) ?_ (of_decide_eq_true halike)
        fun e he => by simpa using hfirst e he
      rw [hrows, hbefore, List.append_assoc]
      rfl
    have hsame := hlends k raw position hbuilt other hother (hprices other hother.mem)
    -- the symbol would stand in the table twice
    rw [hrows, List.map_append] at hdistinct
    have hmem : symbolText raw ∈ before.map Prod.fst := by
      rw [← hsame]
      exact List.mem_map_of_mem (List.mem_of_find?_eq_some hfind)
    exact List.disjoint_of_nodup_append hdistinct hmem List.mem_cons_self

/-- A holding with its value. -/
def holding (pdno quantity averagePrice amount : String) : Json :=
  .obj [("pdno", .str pdno), ("hldg_qty", .str quantity), ("pchs_avg_pric", .str averagePrice),
    ("prpr", .str "70000"), ("evlu_amt", .str amount)]

/-- Each row has an instrument, and each symbol one closing price, which is a number of its own. -/
def pricedWorld : VarWorld where
  accountId := 1
  snapshotAt := 0
  getBySymbolAnyMarket i _ := .ok (some i)
  inquireDailyItemchartprice _ symbol _ :=
    .ok [.obj [("stck_bsop_date", .str "20260601"), ("stck_clpr", .str symbol)]]

def unlikeHoldings : List Json :=
  [holding "005930" "10" "70000.0000" "700000", holding "000660" "10" "70000.5000" "1900000"]

def unlikeInputs : List DeterministicVarPositionInput :=
  [{ symbol := "005930", closePrices := [.finite 5930], heldMarketValue := .finite 700000,
     referencePrice := some (.finite 70000) },
   { symbol := "000660", closePrices := [.finite 660], heldMarketValue := .finite 1900000,
     referencePrice := some (.finite 70000) }]

theorem unlikeHoldings_own : OwnSymbols pricedWorld unlikeHoldings unlikeInputs := by
  have hdistinct : ((entries unlikeHoldings).map Prod.fst).Nodup := by decide +kernel
  have hread : readPositions pricedWorld 0 unlikeHoldings =
      .ok ((built pricedWorld 0 unlikeHoldings).map Prod.snd, []) := by decide +kernel
  have hbuild : buildVarInputs pricedWorld ((built pricedWorld 0 unlikeHoldings).map Prod.snd)
      unlikeHoldings = .ok (unlikeInputs, []) := by decide +kernel
  apply (buildVarInputs_own_iff hdistinct hread hbuild).mpr
  exact lendsOwn_of_unlike (by decide +kernel) (by decide +kernel) (by decide +kernel)

/-- Ten shares of each at one average price. -/
def alikeHoldings : List Json :=
  [holding "005930" "10" "70000.0000" "700000", holding "000660" "10" "70000.0000" "1900000"]

/-- Both positions get the symbol, the prices and the value of the first row. -/
theorem alikeHoldings_share : ∃ positions inputs,
    ((entries alikeHoldings).map Prod.fst).Nodup ∧
    readPositions pricedWorld 0 alikeHoldings = .ok (positions, []) ∧
    buildVarInputs pricedWorld positions alikeHoldings = .ok (inputs, []) ∧
    inputs.map (fun i => (i.symbol, i.closePrices, i.heldMarketValue)) =
      [("005930", [.finite 5930], .finite 700000), ("005930", [.finite 5930], .finite 700000)] ∧
    ¬OwnSymbols pricedWorld alikeHoldings inputs := by
  refine ⟨(built pricedWorld 0 alikeHoldings).map Prod.snd,
    (made pricedWorld alikeHoldings).map (·.input), by decide +kernel, by decide +kernel,
    by decide +kernel, by decide +kernel, fun h => ?_⟩
  have htwice : ((made pricedWorld alikeHoldings).map (·.input)).map (·.symbol) =
      ["005930", "005930"] := by decide +kernel
  have hnodup := h.nodup
  rw [htwice] at hnodup
  exact absurd hnodup (by decide)

end AgentTrading.Snapshots.VarInputs

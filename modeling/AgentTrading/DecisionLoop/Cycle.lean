import AgentTrading.DecisionLoop.Analysis
import AgentTrading.DecisionLoop.Budget
import AgentTrading.Library.Interleaving

/-! A whole cycle of the general lane: all symbols are analysed at the same time, and what they hand
over, in whatever order, is submitted once the last of them is done. -/
namespace AgentTrading.DecisionLoop
open Domain Library Execution Keyed

structure UniverseSymbol where
  symbol : String
  market : String
  sourceType : String
  deriving DecidableEq

def enumerate (symbols : List UniverseSymbol) : List Item :=
  symbols.zipIdx.map fun s => ⟨s.2, s.1.symbol, s.1.market, s.1.sourceType⟩

/-- What the coroutine of an item has done. -/
structure ItemRun where
  item : Item
  steps : Steps
  result : CycleResult

def Item.General (item : Item) : Prop := item.sourceType ≠ "held_position"

instance (item : Item) : Decidable item.General := inferInstanceAs (Decidable (_ ≠ _))

/-- A run of the cycle from `asyncio.gather` to the end of Pass 2. The gather returns: no analysis,
of either lane, has been cancelled. -/
structure CycleRun (loop : Loop) (symbols : List UniverseSymbol) where
  passOne : List ItemRun
  gathered : Steps
  passTwo : Steps
  final : Cycle
  items : passOne.map (·.item) = enumerate symbols
  ran : ∀ r ∈ passOne, (processOne loop r.item).Performs r.steps (.ok r.result)
  interleaved : Interleaving (passOne.map (·.steps)) gathered
  submitted : (runGeneralLanePass2 loop (appended gathered)
    { results := passOne.map (·.result), consumed := 0 }).Performs passTwo (.ok final)

/-- What a coroutine has done when it is cancelled: part of its steps, and the end of a transaction
that it was in. -/
inductive Cut {α : Type} (p : Code α) : Steps → Prop where
  | within {steps : Steps} (h : p.Reaches steps) : Cut p steps
  | exited {steps : Steps} (h : p.Reaches steps) (exited : Except PyError Unit) :
      Cut p (steps ++ [⟨.transactionExit, exited⟩])

/-- A cycle that ends in its gather, because an analysis has timed out: each coroutine is broken off
wherever it is, there are no results and there is no second pass. -/
structure CancelledCycle (loop : Loop) (symbols : List UniverseSymbol) where
  passOne : List (Item × Steps)
  gathered : Steps
  items : passOne.map (·.1) = enumerate symbols
  cut : ∀ r ∈ passOne, Cut (processOne loop r.1) r.2
  interleaved : Interleaving (passOne.map (·.2)) gathered

theorem submissions_perm {steps steps' : Steps} (h : steps.Perm steps') :
    (submissions steps).Perm (submissions steps') := (h.filterMap _).filterMap _

theorem appended_flatMap {α : Type} (l : List α) (f : α → Steps) :
    appended (l.flatMap f) = l.flatMap fun a => appended (f a) := by
  induction l with
  | nil => rfl
  | cons a l ih => rw [List.flatMap_cons, appended_append, ih, List.flatMap_cons]

theorem map_cycleIndex_enumerate (symbols : List UniverseSymbol) :
    (enumerate symbols).map (·.cycleIndex) = List.range symbols.length := by
  rw [enumerate, List.map_map, List.range_eq_range', ← List.zipIdx_map_snd]
  rfl

theorem map_symbol_enumerate (symbols : List UniverseSymbol) :
    (enumerate symbols).map (·.symbol) = symbols.map (·.symbol) := by
  rw [enumerate, List.map_map]
  conv_rhs => rw [← List.zipIdx_map_fst 0 symbols, List.map_map]
  rfl

namespace CycleRun

variable {loop : Loop} {symbols : List UniverseSymbol} (run : CycleRun loop symbols)

/-- Everything the cycle has done. -/
def steps : Steps := run.gathered ++ run.passTwo

def candidates : List Candidate := appended run.gathered

variable {run}

theorem processed {r : ItemRun} (hr : r ∈ run.passOne) (hgeneral : r.item.General) :
    Processed r.item r.steps r.result := by
  obtain ⟨-, hcancelled | ⟨_, hout, h⟩⟩ := processOne_processed hgeneral (run.ran r hr)
  · cases hcancelled
  · obtain rfl := Except.ok.inj hout
    exact h

theorem held {r : ItemRun} (hr : r ∈ run.passOne) (hheld : ¬r.item.General) :
    submissions r.steps = [] ∧ appended r.steps = [] :=
  processOne_held (not_not.mp hheld) (run.ran r hr)

theorem submissions_gathered : submissions run.gathered = [] := by
  have hnone : run.passOne.flatMap (fun r => submissions r.steps) = [] := by
    rw [List.flatMap_eq_nil_iff]
    intro r hr
    by_cases hgeneral : r.item.General
    · exact (processed hr hgeneral).unsent
    · exact (held hr hgeneral).1
  have hperm := submissions_perm run.interleaved.perm
  rw [← List.flatMap_def, submissions_flatMap, hnone] at hperm
  exact hperm.eq_nil

theorem submissions_steps : submissions run.steps = submissions run.passTwo := by
  rw [steps, submissions_append, submissions_gathered, List.nil_append]

theorem candidates_perm : run.candidates.Perm (run.passOne.flatMap fun r => appended r.steps) := by
  have hperm : (appended run.gathered).Perm (appended (run.passOne.map (·.steps)).flatten) :=
    run.interleaved.perm.filterMap _
  rwa [← List.flatMap_def, appended_flatMap] at hperm

theorem handed {r : ItemRun} (hr : r ∈ run.passOne) :
    appended r.steps = [] ∨ ∃ c, r.item.General ∧ c.Of r.item ∧ appended r.steps = [c] := by
  by_cases hgeneral : r.item.General
  · have hhanded := (processed hr hgeneral).handedOver
    generalize appended r.steps = handed at hhanded
    cases hhanded with
    | none => exact .inl rfl
    | one hof => exact .inr ⟨_, hgeneral, hof, rfl⟩
  · exact .inl (held hr hgeneral).2

theorem mem_candidates {c : Candidate} :
    c ∈ run.candidates ↔ ∃ r ∈ run.passOne, c ∈ appended r.steps := by
  rw [candidates_perm.mem_iff, List.mem_flatMap]

theorem exists_item {c : Candidate} (hc : c ∈ run.candidates) :
    ∃ r ∈ run.passOne, r.item.General ∧ c.Of r.item ∧ appended r.steps = [c] := by
  obtain ⟨r, hr, hmem⟩ := mem_candidates.mp hc
  rcases handed hr with hnone | ⟨c', hgeneral, hof, hone⟩
  · rw [hnone] at hmem
    cases hmem
  · rw [hone] at hmem
    obtain rfl := List.mem_singleton.mp hmem
    exact ⟨r, hr, hgeneral, hof, hone⟩

theorem nodup_map_candidates {γ : Type} {g : Candidate → γ} {k : Item → γ}
    (hof : ∀ (c : Candidate) (item : Item), c.Of item → g c = k item)
    (hitems : ((enumerate symbols).map k).Nodup) : (run.candidates.map g).Nodup := by
  have hsublist : ((run.passOne.flatMap fun r => appended r.steps).map g).Sublist
      (run.passOne.map fun r => k r.item) := by
    apply sublist_map_flatMap
    intro r hr
    rcases handed hr with hnone | ⟨c, -, hc, hone⟩
    · rw [hnone]
      exact List.nil_sublist _
    · rw [hone, List.map_singleton, hof c r.item hc]
  have hkeys : run.passOne.map (fun r => k r.item) = (enumerate symbols).map k := by
    rw [← run.items, List.map_map]
    rfl
  rw [(candidates_perm.map g).nodup_iff]
  exact hsublist.nodup (hkeys ▸ hitems)

theorem nodup_cycleIndex : (run.candidates.map (·.cycleIndex)).Nodup := by
  apply nodup_map_candidates (fun _ _ hof => hof.cycleIndex)
  rw [map_cycleIndex_enumerate]
  exact List.nodup_range

theorem length_passOne : run.passOne.length = symbols.length := by
  have hlength := congrArg List.length run.items
  rwa [List.length_map, enumerate, List.length_map, List.length_zipIdx] at hlength

theorem getElem?_results {r : ItemRun} (hr : r ∈ run.passOne) :
    (run.passOne.map (·.result))[r.item.cycleIndex]? = some r.result := by
  obtain ⟨i, hi⟩ := List.mem_iff_getElem?.mp hr
  have hplace : ((enumerate symbols).map (·.cycleIndex))[i]? = some r.item.cycleIndex := by
    rw [← run.items, List.getElem?_map, List.getElem?_map, hi]
    rfl
  rw [map_cycleIndex_enumerate, List.getElem?_eq_some_iff] at hplace
  obtain ⟨hlt, hindex⟩ := hplace
  rw [← hindex, List.getElem_range, List.getElem?_map, hi]
  rfl

theorem cycleIndex_lt {r : ItemRun} (hr : r ∈ run.passOne) :
    r.item.cycleIndex < (run.passOne.map (·.result)).length :=
  (List.getElem?_eq_some_iff.mp (getElem?_results hr)).1

theorem cycleIndex_candidates {c : Candidate} (hc : c ∈ run.candidates) :
    c.cycleIndex < (run.passOne.map (·.result)).length := by
  obtain ⟨r, hr, -, hof, -⟩ := exists_item hc
  exact hof.cycleIndex ▸ cycleIndex_lt hr

theorem exists_run {item : Item} (hitem : item ∈ enumerate symbols) :
    ∃ r ∈ run.passOne, r.item = item := by
  rw [← run.items] at hitem
  exact List.mem_map.mp hitem

theorem nodup_items {κ : Type} {k : Item → κ} (hitems : ((enumerate symbols).map k).Nodup) :
    (run.passOne.map fun r => k r.item).Nodup := by
  rwa [← run.items, List.map_map] at hitems

theorem kept {r : ItemRun} (hr : r ∈ run.passOne) (hnone : appended r.steps = []) :
    run.final.results[r.item.cycleIndex]? = some r.result := by
  obtain ⟨final, hout, -, hkeep, -⟩ := runGeneralLanePass2_settles run.submitted nodup_cycleIndex
    fun c hc => cycleIndex_candidates hc
  obtain rfl := Except.ok.inj hout
  rw [hkeep, getElem?_results hr]
  intro hmem
  obtain ⟨c, hc, hplace⟩ := List.mem_map.mp hmem
  obtain ⟨r', hr', -, hof, hone⟩ := exists_item hc
  have hnodup : ((enumerate symbols).map (·.cycleIndex)).Nodup := by
    rw [map_cycleIndex_enumerate]
    exact List.nodup_range
  obtain rfl := eq_of_key (nodup_items hnodup) hr' hr (hof.cycleIndex.symm.trans hplace)
  rw [hnone] at hone
  cases hone

section Turns

variable {tried refused : List SubmitTurn}
variable (h : Conducted loop (appended run.gathered)
  { results := run.passOne.map (·.result), consumed := 0 } run.passTwo tried refused run.final)
include h

theorem exists_item_turn {t : SubmitTurn} (ht : t ∈ tried ++ refused) :
    ∃ r ∈ run.passOne, r.item.General ∧ t.entry.Of r.item ∧ appended r.steps = [t.entry] := by
  have hqueued : t.entry ∈ submissionQueue run.candidates := by
    rw [candidates, ← h.queue]
    exact List.mem_map_of_mem ht
  exact exists_item (submissionQueue_best hqueued).1

theorem nodup_entries : ((tried ++ refused).map (·.entry)).Nodup := by
  rw [h.queue]
  exact (submissionQueue_symbols _).of_map

/-- Who has its turn for a symbol that the universe has once is what the symbol's item has handed
over. -/
theorem handed_turn (hsymbols : ((enumerate symbols).map (·.symbol)).Nodup) {r : ItemRun}
    (hr : r ∈ run.passOne) {t : SubmitTurn} (ht : t ∈ tried ++ refused)
    (hsymbol : t.entry.symbol = r.item.symbol) : appended r.steps = [t.entry] := by
  obtain ⟨r', hr', -, hof, hone⟩ := exists_item_turn h ht
  obtain rfl := eq_of_key (nodup_items hsymbols) hr' hr (hof.symbol.symm.trans hsymbol)
  exact hone

theorem exists_turn {s : Submission} (hs : s ∈ submissions run.steps) :
    ∃ t ∈ tried, s ∈ submissions t.steps ∧ t.entry.symbol = s.2.1.symbol := by
  rw [submissions_steps, h.submissions_eq, List.mem_flatMap] at hs
  obtain ⟨t, ht, hmem⟩ := hs
  obtain ⟨r, -, -, hof, -⟩ := exists_item_turn h (List.mem_append_left _ ht)
  have hsymbol := (h.reported t ht).1.sending.symbol s hmem
  exact ⟨t, ht, hmem, hof.symbol.trans (hof.orderSymbol.symm.trans hsymbol.symm)⟩

end Turns

end CycleRun

theorem submissions_cut {loop : Loop} {item : Item} {steps : Steps}
    (h : Cut (processOne loop item) steps) : submissions steps = [] := by
  have hreached : ∀ {steps : Steps}, (processOne loop item).Reaches steps →
      submissions steps = [] := by
    intro steps hreaches
    obtain ⟨more, out, hperforms⟩ := hreaches.performs answer
    have hall := processOne_unsent hperforms
    rw [submissions_append] at hall
    exact (List.append_eq_nil_iff.mp hall).1
  cases h with
  | within hreaches => exact hreached hreaches
  | exited hreaches r =>
    rw [submissions_append, hreached hreaches]
    rfl

theorem CancelledCycle.submissions_gathered {loop : Loop} {symbols : List UniverseSymbol}
    (run : CancelledCycle loop symbols) :
    submissions run.gathered = [] := by
  have hnone : run.passOne.flatMap (fun r => submissions r.2) = [] := by
    rw [List.flatMap_eq_nil_iff]
    exact fun r hr => submissions_cut (run.cut r hr)
  have hperm := submissions_perm run.interleaved.perm
  rw [← List.flatMap_def, submissions_flatMap, hnone] at hperm
  exact hperm.eq_nil

/-- However the analyses interleave, every item of the general lane ends with a final result of its
own symbol, and no symbol is sent to the broker more than once; and a cycle that ends in its gather
has sent nothing. -/
theorem cycle_settles {loop : Loop} {symbols : List UniverseSymbol} :
    (∀ run : CycleRun loop symbols, run.final.results.length = symbols.length ∧
      (∀ item ∈ enumerate symbols, item.General → ∃ result,
        run.final.results[item.cycleIndex]? = some result ∧ result.symbol = item.symbol ∧
          result.status ≠ "PENDING_PASS2") ∧
      ((submissions run.steps).map (·.2.1.symbol)).Nodup ∧
      ∀ s ∈ submissions run.steps, ∃ item ∈ enumerate symbols, item.General ∧
        item.symbol = s.2.1.symbol) ∧
      ∀ run : CancelledCycle loop symbols, submissions run.gathered = [] := by
  refine ⟨fun run => ?_, fun run => run.submissions_gathered⟩
  obtain ⟨tried, refused, final, hout, h⟩ := runGeneralLanePass2_conducted run.submitted
  obtain rfl := Except.ok.inj hout
  have hsublist := h.sublist_symbols fun c hc => by
    obtain ⟨r, -, -, hof, -⟩ := CycleRun.exists_item hc
    exact hof.orderSymbol.trans hof.symbol.symm
  refine ⟨?_, fun item hitem hgeneral => ?_, ?_, fun s hs => ?_⟩
  · rw [h.results, Slots.length_fill, List.length_map, CycleRun.length_passOne]
  · obtain ⟨r, hr, rfl⟩ := run.exists_run hitem
    have hprocessed := run.processed hr hgeneral
    rcases run.handed hr with hnone | ⟨c, -, hof, hone⟩
    · have hhanded := hprocessed.handedOver
      rw [hnone] at hhanded
      refine ⟨r.result, run.kept hr hnone, hprocessed.symbol, ?_⟩
      cases hhanded with
      | none hstatus =>
        intro hpending
        rw [hpending] at hstatus
        exact absurd hstatus (by decide)
    · have hc : c ∈ run.candidates := CycleRun.mem_candidates.mpr ⟨r, hr, by simp [hone]⟩
      obtain ⟨_, hout', hsettled, -⟩ := runGeneralLanePass2_settles run.submitted
        CycleRun.nodup_cycleIndex fun c hc => CycleRun.cycleIndex_candidates hc
      obtain rfl := Except.ok.inj hout'
      obtain ⟨result, hresult, hsymbol, hstatus⟩ := hsettled c hc
      exact ⟨result, hof.cycleIndex ▸ hresult, hsymbol.trans hof.symbol, hstatus⟩
  · rw [CycleRun.submissions_steps]
    exact hsublist.nodup (submissionQueue_symbols _)
  · rw [CycleRun.submissions_steps] at hs
    obtain ⟨c, hc, hsymbol⟩ := List.mem_map.mp
      (hsublist.mem (List.mem_map_of_mem (f := fun s : Submission => s.2.1.symbol) hs))
    obtain ⟨r, hr, hgeneral, hof, -⟩ := CycleRun.exists_item (submissionQueue_best hc).1
    refine ⟨r.item, ?_, hgeneral, hof.symbol.symm.trans hsymbol⟩
    rw [← run.items]
    exact List.mem_map_of_mem hr

def sampleSymbols : List UniverseSymbol := [⟨"005930", "KRX", "core"⟩, ⟨"000660", "KRX", "core"⟩]

def sampleItemRun (item : Item) : ItemRun where
  item := item
  steps := Program.trace (fun op s => (answer op, s)) (processOne sampleLoop item) ()
  result :=
    ((Program.run (fun op s => (answer op, s)) (processOne sampleLoop item) ()).1.toOption).getD
    (preAiSkipped item "")

theorem sampleItemRun_performs {item : Item} (hgeneral : item.General)
    (hreturns : (Program.run (fun op s => (answer op, s)) (processOne sampleLoop item)
      ()).1.toBool = true) :
    (processOne sampleLoop item).Performs (sampleItemRun item).steps
      (.ok (sampleItemRun item).result) := by
  have hrun : (processOne sampleLoop item).Performs (sampleItemRun item).steps
      (Program.run (fun op s => (answer op, s)) (processOne sampleLoop item) ()).1 :=
    Program.performs_run _ _ _
  obtain ⟨-, hcancelled | ⟨result, hout, -⟩⟩ := processOne_processed hgeneral hrun
  · rw [hcancelled] at hreturns
    cases hreturns
  · rw [hout] at hrun
    rw [sampleItemRun, hout]
    exact hrun

def samplePassOne : List ItemRun := (enumerate sampleSymbols).map sampleItemRun

/-- The second pass on what the first has handed over. -/
def samplePassTwo : Code Cycle :=
  runGeneralLanePass2 sampleLoop (appended (samplePassOne.map (·.steps)).flatten)
    { results := samplePassOne.map (·.result), consumed := 0 }

def sampleFinal : Cycle :=
  ((Program.run (fun op s => (answer op, s)) samplePassTwo ()).1.toOption).getD sampleStart

/-- Two symbols, one order. -/
def sampleCycle : CycleRun sampleLoop sampleSymbols where
  passOne := samplePassOne
  gathered := (samplePassOne.map (·.steps)).flatten
  passTwo := Program.trace (fun op s => (answer op, s)) samplePassTwo ()
  final := sampleFinal
  items := by
    rw [samplePassOne, List.map_map]
    exact List.map_id _
  ran := by
    intro r hr
    obtain ⟨item, hitem, rfl⟩ := List.mem_map.mp hr
    have hgeneral : ∀ item ∈ enumerate sampleSymbols, item.General := by decide
    have hreturns : ∀ item ∈ enumerate sampleSymbols, (Program.run (fun op s => (answer op, s))
        (processOne sampleLoop item) ()).1.toBool = true := by decide +kernel
    exact sampleItemRun_performs (hgeneral item hitem) (hreturns item hitem)
  interleaved := Interleaving.sequential [] (by simp) _
  submitted := by
    have hrun : samplePassTwo.Performs _
        (Program.run (fun op s => (answer op, s)) samplePassTwo ()).1 := Program.performs_run _ _ _
    obtain ⟨-, -, final, hout, -⟩ := runGeneralLanePass2_conducted hrun
    rw [sampleFinal, hout]
    rw [hout] at hrun
    exact hrun

/-- The replies where the decision of the first symbol takes too long. -/
def lateAnswer (op : Op) : Reply op :=
  match op with
  | .assemble _ => .error timeoutError
  | op => answer op

/-- The first symbol times out and the second has not begun. -/
def sampleCancelled : CancelledCycle sampleLoop sampleSymbols where
  passOne := [
    (⟨0, "005930", "KRX", "core"⟩, Program.trace (fun op s => (lateAnswer op, s))
      (processOne sampleLoop ⟨0, "005930", "KRX", "core"⟩) ()),
    (⟨1, "000660", "KRX", "core"⟩, [])]
  gathered := Program.trace (fun op s => (lateAnswer op, s))
    (processOne sampleLoop ⟨0, "005930", "KRX", "core"⟩) ()
  items := rfl
  cut := by
    intro r hr
    rcases List.mem_cons.mp hr with rfl | hr
    · exact .within (Program.performs_run (fun op s => (lateAnswer op, s)) _ ()).reaches
    · rw [List.mem_singleton.mp hr]
      exact .within (.here _)
  interleaved := by
    have hinterleaving := Interleaving.sequential [] (by simp)
      [Program.trace (fun op s => (lateAnswer op, s))
        (processOne sampleLoop ⟨0, "005930", "KRX", "core"⟩) (), []]
    simpa using hinterleaving

theorem cycle_settles_sample : sampleFinal.results.length = 2 ∧
    (∀ item ∈ enumerate sampleSymbols, item.General → ∃ result,
      sampleFinal.results[item.cycleIndex]? = some result ∧ result.symbol = item.symbol ∧
        result.status ≠ "PENDING_PASS2") ∧
    ((submissions sampleCycle.steps).map (·.2.1.symbol)).Nodup ∧
    (∀ s ∈ submissions sampleCycle.steps, ∃ item ∈ enumerate sampleSymbols, item.General ∧
      item.symbol = s.2.1.symbol) ∧
    submissions sampleCancelled.gathered = [] := by
  obtain ⟨hlength, hsettled, honce, hitems⟩ := cycle_settles.1 sampleCycle
  exact ⟨hlength, hsettled, honce, hitems, cycle_settles.2 sampleCancelled⟩

/-- With every symbol once in the universe, the result of an item tells what has been sent for
it. -/
theorem cycle_tells {loop : Loop} {symbols : List UniverseSymbol} (run : CycleRun loop symbols)
    (hsymbols : (symbols.map (·.symbol)).Nodup) {item : Item} (hitem : item ∈ enumerate symbols)
    (hgeneral : item.General) {result : CycleResult}
    (hresult : run.final.results[item.cycleIndex]? = some result) :
    (result.status = "SKIPPED" → ∀ s ∈ submissions run.steps, s.2.1.symbol ≠ item.symbol) ∧
      (result.status = "SUBMITTED" → ∃ s ∈ submissions run.steps, s.2.1.symbol = item.symbol ∧
        Orders.replyStatus s.2.2 = some .submitted) := by
  obtain ⟨r, hr, rfl⟩ := run.exists_run hitem
  obtain ⟨tried, refused, final, hout, h⟩ := runGeneralLanePass2_conducted run.submitted
  obtain rfl := Except.ok.inj hout
  have hitems : ((enumerate symbols).map (·.symbol)).Nodup :=
    map_symbol_enumerate symbols ▸ hsymbols
  rcases run.handed hr with hnone | ⟨c, -, hof, hone⟩
  · obtain rfl := Option.some.inj ((run.kept hr hnone).symm.trans hresult)
    have hhanded := (run.processed hr hgeneral).handedOver
    rw [hnone] at hhanded
    cases hhanded with
    | none hstatus =>
      constructor
      · intro _ s hs hsymbol
        obtain ⟨t, ht, -, hentry⟩ := CycleRun.exists_turn h hs
        have hone := CycleRun.handed_turn h hitems hr (List.mem_append_left _ ht)
          (hentry.trans hsymbol)
        rw [hnone] at hone
        cases hone
      · intro hsubmitted
        rw [hsubmitted] at hstatus
        exact absurd hstatus (by decide)
  · -- the item's candidate has its turn, as it is the only one of its symbol
    have hc : c ∈ appended run.gathered := CycleRun.mem_candidates.mpr ⟨r, hr, by simp [hone]⟩
    obtain ⟨w, hw, hsymbol⟩ := exists_submissionQueue hc
    rw [← h.queue] at hw
    obtain ⟨t, ht, rfl⟩ := List.mem_map.mp hw
    have hturn := CycleRun.handed_turn h hitems hr ht (hsymbol.trans hof.symbol)
    obtain rfl : c = t.entry := List.singleton_inj.mp (hone.symm.trans hturn)
    have hread :=
      h.read_turn CycleRun.nodup_cycleIndex (fun c hc => CycleRun.cycleIndex_candidates hc) ht
    rw [hof.cycleIndex] at hread
    obtain rfl := Option.some.inj (hread.symm.trans hresult)
    constructor
    · intro hskipped s hs hsent
      obtain ⟨t', ht', hmem, hentry⟩ := CycleRun.exists_turn h hs
      have hturn' := CycleRun.handed_turn h hitems hr (List.mem_append_left _ ht')
        (hentry.trans hsent)
      have hsame : t'.entry = t.entry := List.singleton_inj.mp (hturn'.symm.trans hturn)
      obtain rfl := eq_of_key (CycleRun.nodup_entries h) (List.mem_append_left _ ht') ht hsame
      rw [(h.reported t' ht').1.skipped hskipped] at hmem
      cases hmem
    · intro hsubmitted
      have htried : t ∈ tried := by
        refine (List.mem_append.mp ht).resolve_right fun hrefused => ?_
        rw [(h.dropped t hrefused).1] at hsubmitted
        exact absurd hsubmitted (by simp [skippedResult])
      obtain ⟨s, hs, hreply⟩ := (h.reported t htried).1.submitted hsubmitted
      have hsent := (h.reported t htried).1.sending.symbol s (hs ▸ List.mem_singleton_self s)
      refine ⟨s, ?_, hsent.trans hof.orderSymbol, hreply⟩
      rw [CycleRun.submissions_steps, h.submissions_eq]
      exact List.mem_flatMap.mpr ⟨t, htried, hs ▸ List.mem_singleton_self s⟩

theorem cycle_tells_sample : ∃ result, sampleFinal.results[0]? = some result ∧
    result.status = "SUBMITTED" ∧
    (result.status = "SKIPPED" → ∀ s ∈ submissions sampleCycle.steps, s.2.1.symbol ≠ "005930") ∧
    (result.status = "SUBMITTED" → ∃ s ∈ submissions sampleCycle.steps,
      s.2.1.symbol = "005930" ∧ Orders.replyStatus s.2.2 = some .submitted) := by
  have hstatus : sampleFinal.results[0]?.map (·.status) = some "SUBMITTED" := by decide +kernel
  obtain ⟨result, hresult, hsubmitted⟩ := Option.map_eq_some_iff.mp hstatus
  have hitem : (⟨0, "005930", "KRX", "core"⟩ : Item) ∈ enumerate sampleSymbols := by decide
  have htells := cycle_tells sampleCycle (by decide) hitem (by decide) hresult
  exact ⟨result, hresult, hsubmitted, htells⟩

end AgentTrading.DecisionLoop

import AgentTrading.DecisionLoop.Attempts
import AgentTrading.Library.Slots

/-! A whole second pass: who is submitted, who is dropped for what reason, how much of the budget
is used, and what stands in the results of the cycle afterwards. -/
namespace AgentTrading.DecisionLoop
open Domain Library Execution Keyed

/-- The best candidate of every symbol. -/
def winners (candidates : List Candidate) : List Candidate :=
  candidates.foldl (Contest.enter precedes Candidate.symbol) []

def duplicates (candidates : List Candidate) : List Candidate :=
  Contest.losers precedes Candidate.symbol [] candidates

def submissionQueue (candidates : List Candidate) : List Candidate := ranked (winners candidates)

def dropSteps (reason : String) (candidate : Candidate) : Steps :=
  [⟨.recordDrop candidate reason, ()⟩, ⟨.print (skippedResult candidate reason), ()⟩]

@[simp] theorem submissions_dropSteps (reason : String) (candidate : Candidate) :
    submissions (dropSteps reason candidate) = [] := rfl

theorem drop_bind {α : Type} (candidate : Candidate) (reason : String)
    (f : CycleResult → Code α) : (drop candidate reason).bind f =
      .call (.recordDrop candidate reason) fun _ =>
        .call (.print (skippedResult candidate reason)) fun _ =>
          f (skippedResult candidate reason) :=
  rfl

theorem performs_drop_bind {α : Type} {candidate : Candidate} {reason : String}
    {f : CycleResult → Code α} {steps : Steps} {out : Except PyError α} :
    ((drop candidate reason).bind f).Performs steps out ↔
      ∃ rest, steps = dropSteps reason candidate ++ rest ∧
        (f (skippedResult candidate reason)).Performs rest out := by
  rw [drop_bind]
  constructor
  · intro h
    cases h with
    | call h =>
      cases h with
      | call h => exact ⟨_, rfl, h⟩
  · rintro ⟨rest, rfl, h⟩
    exact .call (.call h)

def droppedWrites (reason : String) (candidates : List Candidate) : List (Nat × CycleResult) :=
  candidates.map fun c => (c.cycleIndex, skippedResult c reason)

theorem map_droppedWrites (reason : String) (candidates : List Candidate) :
    (droppedWrites reason candidates).map Prod.fst = candidates.map (·.cycleIndex) := by
  rw [droppedWrites, List.map_map]
  rfl

theorem submissions_dropped (reason : String) (candidates : List Candidate) :
    submissions (candidates.flatMap (dropSteps reason)) = [] := by
  rw [submissions_flatMap, List.flatMap_eq_nil_iff]
  exact fun _ _ => rfl

theorem printed_dropped (reason : String) (candidates : List Candidate) :
    printed (candidates.flatMap (dropSteps reason)) =
      (droppedWrites reason candidates).map Prod.snd := by
  rw [printed_flatMap, droppedWrites, List.map_map,
    ← List.flatMap_singleton' (candidates.map _), List.flatMap_map]
  rfl

theorem dedupe_performs {candidates best : List Candidate} {results : List CycleResult}
    {steps : Steps} {out : Except PyError (List Candidate × List CycleResult)} :
    (dedupe candidates best results).Performs steps out ↔
      steps = (Contest.losers precedes Candidate.symbol best candidates).flatMap
        (dropSteps "symbol_duplicate_in_cycle") ∧
      out = .ok (candidates.foldl (Contest.enter precedes Candidate.symbol) best,
        Slots.fill (droppedWrites "symbol_duplicate_in_cycle"
          (Contest.losers precedes Candidate.symbol best candidates)) results) := by
  induction candidates generalizing best results steps with
  | nil =>
    constructor
    · intro h
      cases h
      exact ⟨rfl, rfl⟩
    · rintro ⟨rfl, rfl⟩
      exact .ret _
  | cons candidate rest ih =>
    rw [dedupe, Contest.losers, List.foldl_cons]
    cases hold : best.find? (·.symbol = candidate.symbol) with
    | none =>
      obtain ⟨henter, hloser⟩ := Contest.enter_new precedes hold
      simp only [henter, hloser, Option.toList_none, List.nil_append, ih]
    | some existing =>
      obtain ⟨henter, hloser⟩ := Contest.enter_held precedes hold
      simp only [henter, hloser, Option.toList_some, List.singleton_append]
      cases precedes candidate existing
      all_goals
        simp only [Bool.false_eq_true, if_true, if_false, Program.bind_eq, performs_drop_bind, ih]
        constructor
        · rintro ⟨_, rfl, rfl, hout⟩
          exact ⟨rfl, hout⟩
        · rintro ⟨rfl, hout⟩
          exact ⟨_, rfl, rfl, hout⟩

variable (loop : Loop)

def budgetLeft (cycle : Cycle) : Bool := cycle.consumed < loop.maxGeneralSubmitsThisCycle

/-- An attempt and the print of its result. -/
def attempt (candidate : Candidate) : Code CycleResult :=
  (submitGeneralLaneCandidate loop candidate).bind fun result =>
    .call (.print result) fun _ => .ret result

def refuse (candidate : Candidate) : Code CycleResult :=
  drop candidate "submit_budget_consumed_core"

def Cycle.settle (cycle : Cycle) (candidate : Candidate) (result : CycleResult) : Cycle where
  results := cycle.results.set candidate.cycleIndex result
  consumed := cycle.consumed + if consumes result then 1 else 0

theorem consumes_skippedResult (candidate : Candidate) (reason : String) :
    consumes (skippedResult candidate reason) = false := by
  simp [consumes, skippedResult]

theorem submitGeneralLaneCandidate_quiet (candidate : Candidate) :
    (submitGeneralLaneCandidate loop candidate).Only Op.Quiet fun _ => True := by
  have hresubmit : (resubmit loop candidate).Only Op.Quiet fun _ => True := by
    apply inTransaction_quiet
    refine ⟨trivial, fun revalidation => (returned_quiet revalidation).bind (fun _ _ => ?_)
      fun _ _ => trivial⟩
    split
    · trivial
    · refine ⟨trivial, fun now => ?_⟩
      simp only [Program.lift, Program.bind_eq, Program.ret_bind]
      split
      · trivial
      · refine (waitFor_quiet _).bind (fun _ _ => ⟨trivial, fun committed => ?_⟩) fun _ _ => trivial
        exact (returned_quiet committed).bind (fun _ _ => trivial) fun _ _ => trivial
  exact hresubmit.handle (fun _ _ => trivial) fun _ _ => trivial

theorem submitInTurn_eq_serve (queue : List Candidate) (cycle : Cycle) :
    submitInTurn loop queue cycle =
      Turns.serve (budgetLeft loop) (attempt loop) refuse Cycle.settle queue cycle := by
  induction queue generalizing cycle with
  | nil => rfl
  | cons candidate rest ih =>
    rw [submitInTurn, Turns.serve]
    by_cases hbudget : loop.maxGeneralSubmitsThisCycle - cycle.consumed ≤ 0
    · have hleft : budgetLeft loop cycle = false := by
        unfold budgetLeft
        rw [decide_eq_false_iff_not]
        omega
      have hsettle :
          cycle.settle candidate (skippedResult candidate "submit_budget_consumed_core") =
          { cycle with
            results := cycle.results.set candidate.cycleIndex
              (skippedResult candidate "submit_budget_consumed_core") } := by
        simp [Cycle.settle, consumes_skippedResult]
      rw [if_pos hbudget, hleft, if_neg Bool.false_ne_true, refuse, drop_bind, Program.bind_eq,
        drop_bind, hsettle, ih]
    · have hleft : budgetLeft loop cycle = true := by
        unfold budgetLeft
        rw [decide_eq_true_eq]
        omega
      rw [if_neg hbudget, hleft, if_pos rfl, attempt, Program.bind_eq, Program.bind_assoc]
      apply congrArg
      funext result
      simp only [Program.bind_eq, await, Program.perform_bind, Program.call_bind,
        Program.ret_bind, ih]
      rw [Cycle.settle]
      split
      · rfl
      · rw [Int.add_zero]

variable {loop}

abbrev SubmitTurn := Turns.Turn Op Reply Candidate CycleResult

theorem attempt_performs {candidate : Candidate} {steps : Steps} {out : Except PyError CycleResult}
    (h : (attempt loop candidate).Performs steps out) :
    ∃ result, out = .ok result ∧ Reported candidate steps result ∧ printed steps = [result] := by
  rcases Program.performs_bind h with ⟨e, hraised, -⟩ | ⟨result, first, rest, rfl, hrun, hprint⟩
  · obtain ⟨result, hout, -⟩ := submitGeneralLaneCandidate_reported hraised
    cases hout
  · obtain ⟨result', hout, hreported⟩ := submitGeneralLaneCandidate_reported hrun
    obtain rfl := Except.ok.inj hout
    have hquiet := (submitGeneralLaneCandidate_quiet loop candidate).performs hrun
    cases hprint with
    | call hend =>
      cases hend
      refine ⟨result, rfl, hreported.congr ?_, ?_⟩
      · exact (submissions_append first _).trans (List.append_nil _)
      · rw [printed_append, printed_quiet hquiet.1]
        rfl

theorem refuse_performs {candidate : Candidate} {steps : Steps} {out : Except PyError CycleResult}
    (h : (refuse candidate).Performs steps out) :
    out = .ok (skippedResult candidate "submit_budget_consumed_core") ∧
      steps = dropSteps "submit_budget_consumed_core" candidate := by
  cases h with
  | call h =>
    cases h with
    | call h =>
      cases h
      exact ⟨rfl, rfl⟩

def turnWrites (turns : List SubmitTurn) : List (Nat × CycleResult) :=
  turns.map fun t => (t.entry.cycleIndex, t.result)

theorem settle_results (cycle : Cycle) (turns : List SubmitTurn) :
    (Turns.after Cycle.settle cycle turns).results =
      Slots.fill (turnWrites turns) cycle.results := by
  induction turns generalizing cycle with
  | nil => rfl
  | cons t turns ih => exact ih (cycle.settle t.entry t.result)

theorem consumed_settle (cycle : Cycle) (candidate : Candidate) (result : CycleResult) :
    (cycle.settle candidate result).consumed =
      cycle.consumed + if consumes result then 1 else 0 := rfl

theorem settle_consumed (cycle : Cycle) (turns : List SubmitTurn) :
    (Turns.after Cycle.settle cycle turns).consumed =
      cycle.consumed + turns.countP (consumes ·.result) :=
  Turns.used_after Cycle.consumed consumed_settle cycle turns

theorem settle_within {cycle : Cycle} {tried : List SubmitTurn}
    (hopen : ∀ before t later, tried = before ++ t :: later →
      budgetLeft loop (Turns.after Cycle.settle cycle before) = true)
    (h : cycle.consumed ≤ loop.maxGeneralSubmitsThisCycle) :
    (Turns.after Cycle.settle cycle tried).consumed ≤ loop.maxGeneralSubmitsThisCycle := by
  apply Turns.within_budget Cycle.consumed consumed_settle h
  intro before t later hsplit
  exact of_decide_eq_true (hopen before t later hsplit)

/-- How a second pass has gone: who was tried and, when nothing was left of the budget, refused. -/
structure Conducted (loop : Loop) (candidates : List Candidate) (cycle : Cycle) (steps : Steps)
    (tried refused : List SubmitTurn) (cycle' : Cycle) : Prop where
  queue : (tried ++ refused).map (·.entry) = submissionQueue candidates
  steps : steps = (duplicates candidates).flatMap (dropSteps "symbol_duplicate_in_cycle") ++
    (tried ++ refused).flatMap (·.steps)
  reported : ∀ t ∈ tried, Reported t.entry t.steps t.result ∧ printed t.steps = [t.result]
  dropped : ∀ t ∈ refused, t.result = skippedResult t.entry "submit_budget_consumed_core" ∧
    t.steps = dropSteps "submit_budget_consumed_core" t.entry
  results : cycle'.results = Slots.fill (droppedWrites "symbol_duplicate_in_cycle"
    (duplicates candidates) ++ turnWrites (tried ++ refused)) cycle.results
  consumed : cycle'.consumed = cycle.consumed + tried.countP (consumes ·.result)
  within : cycle.consumed ≤ loop.maxGeneralSubmitsThisCycle →
    cycle'.consumed ≤ loop.maxGeneralSubmitsThisCycle
  exhausted : refused ≠ [] → loop.maxGeneralSubmitsThisCycle ≤ cycle'.consumed

theorem runGeneralLanePass2_conducted {candidates : List Candidate} {cycle : Cycle} {steps : Steps}
    {out : Except PyError Cycle}
    (h : (runGeneralLanePass2 loop candidates cycle).Performs steps out) :
    ∃ tried refused cycle', out = .ok cycle' ∧
      Conducted loop candidates cycle steps tried refused cycle' := by
  rcases Program.performs_bind h with ⟨e, hraised, -⟩ | ⟨_, first, rest, rfl, hdedupe, hserve⟩
  · obtain ⟨-, hout⟩ := dedupe_performs.mp hraised
    cases hout
  obtain ⟨rfl, hout⟩ := dedupe_performs.mp hdedupe
  obtain rfl := Except.ok.inj hout
  dsimp only at hserve
  rw [submitInTurn_eq_serve] at hserve
  have hattempt : ∀ c steps e, ¬(attempt loop c).Performs steps (.error e) := by
    intro c steps e hraised
    obtain ⟨_, hout, -⟩ := attempt_performs hraised
    cases hout
  have hrefuse : ∀ c steps e, ¬(refuse c).Performs steps (.error e) := by
    intro c steps e hraised
    cases (refuse_performs hraised).1
  obtain ⟨turns, htook, hqueue, rfl, rfl⟩ := Turns.serve_performs hattempt hrefuse hserve
  have hshut : ∀ cycle (t : SubmitTurn), Turns.Tried refuse t → budgetLeft loop cycle = false →
      budgetLeft loop (cycle.settle t.entry t.result) = false := by
    intro cycle t ht hnone
    have hresult := Except.ok.inj (refuse_performs ht).1
    simpa [budgetLeft, Cycle.settle, hresult, consumes_skippedResult] using hnone
  obtain ⟨tried, refused, rfl, htried, hrefused, hopen, hclosed⟩ := htook.split hshut
  have hconsumed : ∀ start : Cycle, (Turns.after Cycle.settle start (tried ++ refused)).consumed =
      start.consumed + tried.countP (consumes ·.result) := by
    intro start
    have hnone : refused.countP (consumes ·.result) = 0 := by
      rw [List.countP_eq_zero]
      intro t ht
      rw [Except.ok.inj (refuse_performs (hrefused t ht)).1, consumes_skippedResult]
      exact Bool.false_ne_true
    rw [settle_consumed, List.countP_append, hnone, Nat.add_zero]
  refine ⟨tried, refused, _, rfl, hqueue, rfl, ?_, ?_, ?_, hconsumed _, ?_, ?_⟩
  · intro t ht
    obtain ⟨result, hout, hreported⟩ := attempt_performs (htried t ht)
    obtain rfl := Except.ok.inj hout
    exact hreported
  · intro t ht
    obtain ⟨hout, hsteps⟩ := refuse_performs (hrefused t ht)
    exact ⟨Except.ok.inj hout, hsteps⟩
  · rw [settle_results, Slots.fill_append]
    rfl
  · intro hstart
    rw [hconsumed, ← settle_consumed]
    exact settle_within hopen hstart
  · intro hne
    have := hclosed hne
    rw [hconsumed, ← settle_consumed]
    simpa [budgetLeft] using this

open scoped List in
theorem perm_submissionQueue (candidates : List Candidate) :
    (duplicates candidates ++ submissionQueue candidates).Perm candidates := by
  calc duplicates candidates ++ submissionQueue candidates
      ~ duplicates candidates ++ winners candidates := (List.perm_insertionSort _ _).append_left _
    _ ~ winners candidates ++ duplicates candidates := List.perm_append_comm
    _ ~ [] ++ candidates := Contest.perm_losers precedes Candidate.symbol [] candidates

variable {candidates : List Candidate} {cycle cycle' : Cycle} {steps : Steps}
variable {tried refused : List SubmitTurn}

namespace Conducted

/-- The places and the results that the pass writes. -/
def writes (candidates : List Candidate) (turns : List SubmitTurn) : List (Nat × CycleResult) :=
  droppedWrites "symbol_duplicate_in_cycle" (duplicates candidates) ++ turnWrites turns

theorem map_writes (h : Conducted loop candidates cycle steps tried refused cycle') :
    (writes candidates (tried ++ refused)).map Prod.fst =
      (duplicates candidates ++ submissionQueue candidates).map (·.cycleIndex) := by
  rw [List.map_append, ← h.queue, writes, List.map_append, map_droppedWrites, turnWrites,
    List.map_map, List.map_map]
  rfl

theorem perm_writes (h : Conducted loop candidates cycle steps tried refused cycle') :
    ((writes candidates (tried ++ refused)).map Prod.fst).Perm (candidates.map (·.cycleIndex)) := by
  rw [h.map_writes]
  exact (perm_submissionQueue candidates).map _

/-- Everybody's result has been written, tells of the candidate's symbol and is not pending. -/
theorem settled (h : Conducted loop candidates cycle steps tried refused cycle')
    {write : Nat × CycleResult} (hwrite : write ∈ writes candidates (tried ++ refused)) :
    ∃ c ∈ candidates, write.1 = c.cycleIndex ∧ write.2.symbol = c.symbol ∧
      write.2.status ≠ "PENDING_PASS2" := by
  have hmem : ∀ c, c ∈ duplicates candidates ++ submissionQueue candidates → c ∈ candidates :=
    fun c => (perm_submissionQueue candidates).mem_iff.mp
  have hskipped : ∀ c reason, (skippedResult c reason).status ≠ "PENDING_PASS2" := by
    intro c reason
    simp [skippedResult]
  have hqueued : ∀ t ∈ tried ++ refused, t.entry ∈ candidates := by
    intro t ht
    apply hmem
    rw [← h.queue]
    exact List.mem_append_right _ (List.mem_map_of_mem ht)
  rcases List.mem_append.mp hwrite with hdropped | hturn
  · obtain ⟨c, hc, rfl⟩ := List.mem_map.mp hdropped
    exact ⟨c, hmem c (List.mem_append_left _ hc), rfl, rfl, hskipped c _⟩
  · obtain ⟨t, ht, rfl⟩ := List.mem_map.mp hturn
    refine ⟨t.entry, hqueued t ht, rfl, ?_⟩
    rcases List.mem_append.mp ht with ht | ht
    · exact ⟨(h.reported t ht).1.symbol, (h.reported t ht).1.settled⟩
    · rw [(h.dropped t ht).1]
      exact ⟨rfl, hskipped t.entry _⟩

theorem written (h : Conducted loop candidates cycle steps tried refused cycle')
    (hindex : (candidates.map (·.cycleIndex)).Nodup)
    (hrange : ∀ c ∈ candidates, c.cycleIndex < cycle.results.length)
    {write : Nat × CycleResult} (hwrite : write ∈ writes candidates (tried ++ refused)) :
    cycle'.results[write.1]? = some write.2 := by
  obtain ⟨c, hc, hplace, -⟩ := h.settled hwrite
  rw [h.results]
  exact Slots.getElem?_fill (h.perm_writes.nodup_iff.mpr hindex) hwrite (hplace ▸ hrange c hc)

theorem printed_eq (h : Conducted loop candidates cycle steps tried refused cycle') :
    printed steps = (writes candidates (tried ++ refused)).map Prod.snd := by
  have hturns : ∀ t ∈ tried ++ refused, printed t.steps = [t.result] := by
    intro t ht
    rcases List.mem_append.mp ht with ht | ht
    · exact (h.reported t ht).2
    · rw [(h.dropped t ht).1, (h.dropped t ht).2]
      rfl
  rw [h.steps, printed_append, printed_dropped, printed_flatMap, List.flatMap_congr hturns, writes,
    List.map_append, turnWrites, List.map_map, ← List.flatMap_singleton' ((tried ++ refused).map _),
    List.flatMap_map]
  rfl

end Conducted

theorem sublist_map_flatMap {α β γ : Type} {l : List α} {f : α → List β} {g : β → γ} {k : α → γ}
    (h : ∀ a ∈ l, ((f a).map g).Sublist [k a]) : ((l.flatMap f).map g).Sublist (l.map k) := by
  induction l with
  | nil => exact List.Sublist.slnil
  | cons a l ih =>
    rw [List.forall_mem_cons] at h
    rw [List.flatMap_cons, List.map_append, List.map_cons]
    exact h.1.append (ih h.2)

namespace Conducted

variable {candidates : List Candidate} {cycle cycle' : Cycle} {steps : Steps}
variable {tried refused : List SubmitTurn}

theorem submissions_eq (h : Conducted loop candidates cycle steps tried refused cycle') :
    submissions steps = tried.flatMap fun t => submissions t.steps := by
  have hrefused : refused.flatMap (fun t => submissions t.steps) = [] := by
    rw [List.flatMap_eq_nil_iff]
    intro t ht
    rw [(h.dropped t ht).2, submissions_dropSteps]
  rw [h.steps, submissions_append, submissions_dropped, submissions_flatMap, List.flatMap_append,
    hrefused, List.append_nil, List.nil_append]

theorem sublist_symbols (h : Conducted loop candidates cycle steps tried refused cycle')
    (hsymbols : ∀ c ∈ candidates, c.intent.request.symbol = c.symbol) :
    ((submissions steps).map (·.2.1.symbol)).Sublist
      ((submissionQueue candidates).map (·.symbol)) := by
  have htried : ((submissions steps).map (·.2.1.symbol)).Sublist (tried.map (·.entry.symbol)) := by
    rw [h.submissions_eq]
    apply sublist_map_flatMap
    intro t ht
    have hmem : t.entry ∈ submissionQueue candidates := by
      rw [← h.queue]
      exact List.mem_map_of_mem (List.mem_append_left _ ht)
    rw [← hsymbols t.entry
      ((perm_submissionQueue candidates).mem_iff.mp (List.mem_append_right _ hmem))]
    exact (h.reported t ht).1.sending.sublist
  rw [← h.queue, List.map_append, List.map_append, List.map_map]
  exact htried.trans (List.sublist_append_left _ _)

end Conducted

/-- Every candidate has a final result in its own place, each printed once, and the places of other
symbols keep theirs. -/
theorem runGeneralLanePass2_settles {candidates : List Candidate} {cycle : Cycle} {steps : Steps}
    {out : Except PyError Cycle}
    (hrun : (runGeneralLanePass2 loop candidates cycle).Performs steps out)
    (hindex : (candidates.map (·.cycleIndex)).Nodup)
    (hrange : ∀ c ∈ candidates, c.cycleIndex < cycle.results.length) :
    ∃ cycle', out = .ok cycle' ∧
      (∀ c ∈ candidates, ∃ result, cycle'.results[c.cycleIndex]? = some result ∧
        result.symbol = c.symbol ∧ result.status ≠ "PENDING_PASS2") ∧
      (∀ i, i ∉ candidates.map (·.cycleIndex) → cycle'.results[i]? = cycle.results[i]?) ∧
      (printed steps).Perm (candidates.filterMap fun c => cycle'.results[c.cycleIndex]?) := by
  obtain ⟨tried, refused, cycle', rfl, h⟩ := runGeneralLanePass2_conducted hrun
  have hperm := h.perm_writes
  have hwritten : ∀ w ∈ Conducted.writes candidates (tried ++ refused),
      cycle'.results[w.1]? = some w.2 := fun w hw => h.written hindex hrange hw
  refine ⟨cycle', rfl, fun c hc => ?_, fun i hi => ?_, ?_⟩
  · obtain ⟨w, hw, hplace⟩ := List.mem_map.mp (hperm.mem_iff.mpr (List.mem_map_of_mem hc))
    obtain ⟨c', hc', hplace', hsettled⟩ := h.settled hw
    obtain rfl : c' = c := eq_of_key hindex hc' hc (hplace'.symm.trans hplace)
    exact ⟨w.2, hplace ▸ hwritten w hw, hsettled⟩
  · rw [h.results]
    exact Slots.getElem?_fill_of_notMem (fun hmem => hi (hperm.mem_iff.mp hmem)) _
  · have hread : (candidates.map (·.cycleIndex)).filterMap (cycle'.results[·]?) =
        candidates.filterMap fun c => cycle'.results[c.cycleIndex]? := List.filterMap_map
    have hstored : ((Conducted.writes candidates (tried ++ refused)).map Prod.fst).filterMap
        (cycle'.results[·]?) = (Conducted.writes candidates (tried ++ refused)).map Prod.snd := by
      rw [List.filterMap_map, ← List.filterMap_eq_map]
      exact List.filterMap_congr fun w hw => hwritten w hw
    rw [h.printed_eq, ← hstored, ← hread]
    exact hperm.filterMap _

def sampleLoop : Loop where
  execution := sampleService
  accountAlias := "main"
  strategyId := "s-1"
  cycle := 1
  allowGeneralSubmit := true
  maxGeneralSubmitsThisCycle := 1

/-- Replies that stand in nobody's way; what has been decided is to sell. -/
def answer : (op : Op) → Reply op
  | .transactionEnter => .ok ()
  | .transactionExit => .ok ()
  | .commit => .ok ()
  | .monotonic => 0
  | .preAiValidation .. => .ok none
  | .recordPreAi .. => ()
  | .seededEvents .. => .ok ()
  | .assemble _ => .ok
    { decisionContextId := some 7
      orderIntentId := "i-1"
      correlationId := "c-1"
      decisionId := "d-1"
      tradeDecisionId := some 5
      context := sampleIntent.context
      aiBackendInputs := { sampleIntent.aiBackendInputs with decisionType := "EXIT" }
      side := "sell"
      expectedValueAnchor := none }
  | .pendingAppend _ => ()
  | .heldPositionCycle symbol market =>
    { symbol := symbol
      market := market
      sourceType := some "held_position"
      decisionType := none
      status := "SKIPPED" }
  | .deadline => false
  | .recordDrop .. => ()
  | .print _ => ()
  | .pipeline op => granted op

def sampleCandidate (cycleIndex : Nat) (symbol : String) (score : ℚ) : Candidate where
  cycleIndex := cycleIndex
  symbol := symbol
  market := "KRX"
  sourceType := "core"
  intent := { sampleIntent with request := { sampleIntent.request with symbol := symbol } }
  tradeDecisionId := some 5
  finalTradeScore := some score
  analysisCompletedAt := 0

def sampleCandidates : List Candidate :=
  [sampleCandidate 0 "005930" 1, sampleCandidate 1 "005930" 2, sampleCandidate 2 "000660" (1 / 2)]

def sampleStart : Cycle where
  results := sampleCandidates.map (skippedResult · "")
  consumed := 0

/-- A second pass with these replies. -/
def samplePass (candidates : List Candidate) : Steps × Except PyError Cycle :=
  (Program.trace (fun op s => (answer op, s))
    (runGeneralLanePass2 sampleLoop candidates sampleStart) (),
    (Program.run (fun op s => (answer op, s))
      (runGeneralLanePass2 sampleLoop candidates sampleStart) ()).1)

theorem samplePass_performs (candidates : List Candidate) :
    (runGeneralLanePass2 sampleLoop candidates sampleStart).Performs (samplePass candidates).1
      (samplePass candidates).2 := Program.performs_run _ _ _

/-- The first of two candidates for a symbol is dropped, the second is submitted, and nothing is
left for the third. -/
theorem runGeneralLanePass2_settles_sample :
    ∃ cycle', (samplePass sampleCandidates).2 = .ok cycle' ∧
    (∀ c ∈ sampleCandidates, ∃ result, cycle'.results[c.cycleIndex]? = some result ∧
      result.symbol = c.symbol ∧ result.status ≠ "PENDING_PASS2") ∧
    (∀ i, i ∉ sampleCandidates.map (·.cycleIndex) → cycle'.results[i]? = sampleStart.results[i]?) ∧
    (printed (samplePass sampleCandidates).1).Perm
      (sampleCandidates.filterMap fun c => cycle'.results[c.cycleIndex]?) :=
  runGeneralLanePass2_settles (samplePass_performs _) (by decide) (by decide)

end AgentTrading.DecisionLoop

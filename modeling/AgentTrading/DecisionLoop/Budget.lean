import AgentTrading.DecisionLoop.Settlement

/-! The second pass as a whole: the best of every symbol in the order of priority, served while the
budget lasts, whatever the order in which the candidates came. -/
namespace AgentTrading.DecisionLoop
open Domain Library Execution Keyed

theorem precedes_ranked : Contest.Ranked precedes priorityKey where
  wins h := decide_eq_true h
  keeps h := (of_decide_eq_true h).le

theorem mem_submissionQueue {candidates : List Candidate} {w : Candidate} :
    w ∈ submissionQueue candidates ↔ w ∈ winners candidates := List.mem_insertionSort _

theorem winners_nodup (candidates : List Candidate) :
    ((winners candidates).map (·.symbol)).Nodup :=
  Contest.nodup_holders precedes Candidate.symbol candidates

theorem submissionQueue_best {candidates : List Candidate} {w : Candidate}
    (hw : w ∈ submissionQueue candidates) :
    w ∈ candidates ∧ ∀ c ∈ candidates, c.symbol = w.symbol → priorityKey w ≤ priorityKey c :=
  precedes_ranked.holder (mem_submissionQueue.mp hw)

theorem exists_submissionQueue {candidates : List Candidate} {c : Candidate} (hc : c ∈ candidates) :
    ∃ w ∈ submissionQueue candidates, w.symbol = c.symbol := by
  obtain ⟨w, hw, hsymbol⟩ := Contest.exists_holder precedes Candidate.symbol hc
  exact ⟨w, mem_submissionQueue.mpr hw, hsymbol⟩

theorem submissionQueue_symbols (candidates : List Candidate) :
    ((submissionQueue candidates).map (·.symbol)).Nodup :=
  ((List.perm_insertionSort _ _).map _).nodup_iff.mpr (winners_nodup candidates)

theorem submissionQueue_sorted (candidates : List Candidate) :
    (submissionQueue candidates).Pairwise fun a b => priorityKey a ≤ priorityKey b := by
  have : IsTrans Candidate fun a b => priorityKey a ≤ priorityKey b := ⟨fun _ _ _ => le_trans⟩
  have : Std.Total fun a b : Candidate => priorityKey a ≤ priorityKey b :=
    ⟨fun a b => le_total (priorityKey a) (priorityKey b)⟩
  exact List.pairwise_insertionSort _ _

variable {loop : Loop} {candidates : List Candidate} {cycle cycle' : Cycle} {steps : Steps}
variable {tried refused : List SubmitTurn}

namespace Conducted

variable (h : Conducted loop candidates cycle steps tried refused cycle')
variable (hindex : (candidates.map (·.cycleIndex)).Nodup)
variable (hrange : ∀ c ∈ candidates, c.cycleIndex < cycle.results.length)
include h hindex hrange

theorem read_turn {t : SubmitTurn} (ht : t ∈ tried ++ refused) :
    cycle'.results[t.entry.cycleIndex]? = some t.result :=
  h.written hindex hrange (List.mem_append_right _ (List.mem_map_of_mem ht))

theorem read_duplicate {c : Candidate} (hc : c ∈ duplicates candidates) :
    cycle'.results[c.cycleIndex]? = some (skippedResult c "symbol_duplicate_in_cycle") :=
  h.written hindex hrange (List.mem_append_left _ (List.mem_map_of_mem hc))

theorem countP_tried : tried.countP (consumes ·.result) =
    (tried.map (·.entry)).countP fun c => cycle'.results[c.cycleIndex]?.any consumes := by
  rw [List.countP_map]
  apply List.countP_congr
  intro t ht
  rw [Function.comp_apply, h.read_turn hindex hrange (List.mem_append_left _ ht), Option.any_some]

end Conducted

/-- Who is tried comes before who is refused, the budget is never overdrawn and used up before
anybody is refused, and who is neither is dropped for a better candidate of its symbol. -/
theorem runGeneralLanePass2_within_budget {out : Except PyError Cycle}
    (hrun : (runGeneralLanePass2 loop candidates cycle).Performs steps out)
    (hindex : (candidates.map (·.cycleIndex)).Nodup)
    (hrange : ∀ c ∈ candidates, c.cycleIndex < cycle.results.length)
    (hstart : cycle.consumed ≤ loop.maxGeneralSubmitsThisCycle) :
    ∃ cycle' tried refused, out = .ok cycle' ∧ tried ++ refused = submissionQueue candidates ∧
      cycle'.consumed = cycle.consumed +
        tried.countP (fun c => cycle'.results[c.cycleIndex]?.any consumes) ∧
      cycle'.consumed ≤ loop.maxGeneralSubmitsThisCycle ∧
      (∀ d ∈ refused,
        cycle'.results[d.cycleIndex]? = some (skippedResult d "submit_budget_consumed_core") ∧
        cycle'.consumed = loop.maxGeneralSubmitsThisCycle ∧
        ∀ c ∈ tried, priorityKey c ≤ priorityKey d) ∧
      (∀ d ∈ candidates, d ∉ tried ++ refused →
        cycle'.results[d.cycleIndex]? = some (skippedResult d "symbol_duplicate_in_cycle") ∧
        ∃ w ∈ tried ++ refused, w.symbol = d.symbol ∧ priorityKey w ≤ priorityKey d) := by
  obtain ⟨tried, refused, cycle', rfl, h⟩ := runGeneralLanePass2_conducted hrun
  have hqueue : tried.map (·.entry) ++ refused.map (·.entry) = submissionQueue candidates := by
    rw [← List.map_append, h.queue]
  refine ⟨cycle', tried.map (·.entry), refused.map (·.entry), rfl, hqueue, ?_,
    h.within hstart, ?_, ?_⟩
  · rw [← h.countP_tried hindex hrange, h.consumed]
  · intro d hd
    obtain ⟨t, ht, rfl⟩ := List.mem_map.mp hd
    have hread := h.read_turn hindex hrange (List.mem_append_right _ ht)
    rw [(h.dropped t ht).1] at hread
    have hsorted := submissionQueue_sorted candidates
    rw [← hqueue, List.pairwise_append] at hsorted
    refine ⟨hread, ?_, fun c hc => hsorted.2.2 c hc _ hd⟩
    exact le_antisymm (h.within hstart) (h.exhausted (List.ne_nil_of_mem ht))
  · intro d hd hnot
    rw [hqueue] at hnot ⊢
    have hdropped : d ∈ duplicates candidates := by
      have hmem := (perm_submissionQueue candidates).mem_iff.mpr hd
      exact (List.mem_append.mp hmem).resolve_right hnot
    obtain ⟨w, hw, hsymbol⟩ := exists_submissionQueue hd
    refine ⟨h.read_duplicate hindex hrange hdropped, w, hw, hsymbol, ?_⟩
    exact (submissionQueue_best hw).2 d hd hsymbol.symm

theorem runGeneralLanePass2_within_budget_sample :
    ∃ cycle' tried refused, (samplePass sampleCandidates).2 = .ok cycle' ∧
      tried ++ refused = submissionQueue sampleCandidates ∧
      cycle'.consumed = 0 +
        tried.countP (fun c => cycle'.results[c.cycleIndex]?.any consumes) ∧
      cycle'.consumed ≤ 1 ∧
      (∀ d ∈ refused,
        cycle'.results[d.cycleIndex]? = some (skippedResult d "submit_budget_consumed_core") ∧
        cycle'.consumed = 1 ∧ ∀ c ∈ tried, priorityKey c ≤ priorityKey d) ∧
      (∀ d ∈ sampleCandidates, d ∉ tried ++ refused →
        cycle'.results[d.cycleIndex]? = some (skippedResult d "symbol_duplicate_in_cycle") ∧
        ∃ w ∈ tried ++ refused, w.symbol = d.symbol ∧ priorityKey w ≤ priorityKey d) :=
  runGeneralLanePass2_within_budget (samplePass_performs _) (by decide) (by decide) (by decide)

section Order

variable {candidates' : List Candidate} (hperm : candidates.Perm candidates')
variable (hkeys : (candidates.map priorityKey).Nodup)
include hperm hkeys

theorem submissionQueue_perm : submissionQueue candidates = submissionQueue candidates' := by
  have hkey : ∀ a ∈ candidates, ∀ b ∈ candidates, priorityKey a = priorityKey b → a = b :=
    fun a ha b hb => eq_of_key hkeys ha hb
  -- the best of a symbol is the same in both
  have hsub : ∀ w ∈ winners candidates, w ∈ winners candidates' := by
    intro w hw
    obtain ⟨hmem, hbest⟩ := submissionQueue_best (mem_submissionQueue.mpr hw)
    obtain ⟨w', hw', hsymbol⟩ := exists_submissionQueue (hperm.mem_iff.mp hmem)
    obtain ⟨hmem', hbest'⟩ := submissionQueue_best hw'
    have hsame : w' = w := by
      apply hkey w' (hperm.mem_iff.mpr hmem') w hmem
      apply le_antisymm
      · exact hbest' w (hperm.mem_iff.mp hmem) hsymbol.symm
      · exact hbest w' (hperm.mem_iff.mpr hmem') hsymbol
    exact hsame ▸ mem_submissionQueue.mp hw'
  have hsup : ∀ w ∈ winners candidates', w ∈ winners candidates := by
    intro w hw
    obtain ⟨hmem, -⟩ := submissionQueue_best (mem_submissionQueue.mpr hw)
    obtain ⟨w', hw', hsymbol⟩ := exists_submissionQueue (hperm.mem_iff.mpr hmem)
    have hw' := mem_submissionQueue.mp hw'
    exact eq_of_key (winners_nodup candidates') (hsub w' hw') hw hsymbol ▸ hw'
  have hwinners : (winners candidates).Perm (winners candidates') :=
    (List.perm_ext_iff_of_nodup (winners_nodup candidates).of_map
      (winners_nodup candidates').of_map).mpr fun w => ⟨hsub w, hsup w⟩
  apply List.Perm.eq_of_pairwise (fun a b ha hb hab hba => ?_) (submissionQueue_sorted candidates)
    (submissionQueue_sorted candidates')
  · exact (List.perm_insertionSort _ _).trans (hwinners.trans (List.perm_insertionSort _ _).symm)
  · have hbmem := hperm.mem_iff.mpr (submissionQueue_best hb).1
    exact hkey a (submissionQueue_best ha).1 b hbmem (le_antisymm hab hba)

theorem duplicates_perm : (duplicates candidates).Perm (duplicates candidates') := by
  have hall := (perm_submissionQueue candidates).trans
    (hperm.trans (perm_submissionQueue candidates').symm)
  rw [submissionQueue_perm hperm hkeys] at hall
  exact (List.perm_append_right_iff _).mp hall

end Order

/-- However the analyses of a cycle overtake one another, the same orders are submitted in the same
order, with the same replies, to the same results. -/
theorem runGeneralLanePass2_order_free {candidates' : List Candidate} {final : Cycle}
    (hrun : (runGeneralLanePass2 loop candidates cycle).Performs steps (.ok final))
    (hperm : candidates.Perm candidates') (hkeys : (candidates.map priorityKey).Nodup)
    (hindex : (candidates.map (·.cycleIndex)).Nodup) :
    ∃ steps', (runGeneralLanePass2 loop candidates' cycle).Performs steps' (.ok final) ∧
      submissions steps' = submissions steps ∧ (printed steps').Perm (printed steps) := by
  rcases Program.performs_bind hrun with ⟨e, -, hout⟩ | ⟨_, first, rest, rfl, hdedupe, hserve⟩
  · cases hout
  obtain ⟨rfl, hout⟩ := dedupe_performs.mp hdedupe
  obtain rfl := Except.ok.inj hout
  have hduplicates := duplicates_perm hperm hkeys
  have hplaces : ((droppedWrites "symbol_duplicate_in_cycle" (duplicates candidates)).map
      Prod.fst).Nodup := by
    have hnodup := ((perm_submissionQueue candidates).map (·.cycleIndex)).nodup_iff.mpr hindex
    rw [List.map_append] at hnodup
    rw [map_droppedWrites]
    exact hnodup.of_append_left
  have hwrites : (droppedWrites "symbol_duplicate_in_cycle" (duplicates candidates)).Perm
      (droppedWrites "symbol_duplicate_in_cycle" (duplicates candidates')) := hduplicates.map _
  have hserve : (submitInTurn loop (submissionQueue candidates) { cycle with
      results := Slots.fill (droppedWrites "symbol_duplicate_in_cycle" (duplicates candidates))
        cycle.results }).Performs rest (.ok final) := hserve
  rw [submissionQueue_perm hperm hkeys, Slots.fill_perm hplaces hwrites] at hserve
  have hsent := submissions_dropped "symbol_duplicate_in_cycle" (duplicates candidates)
  refine ⟨(duplicates candidates').flatMap (dropSteps "symbol_duplicate_in_cycle") ++ rest,
    (dedupe_performs.mpr ⟨rfl, rfl⟩).bind hserve, ?_, ?_⟩
  · rw [submissions_append, submissions_append, submissions_dropped]
    exact congrArg (· ++ submissions rest) hsent.symm
  · have hprinted := printed_dropped "symbol_duplicate_in_cycle" (duplicates candidates)
    rw [printed_append, printed_append, printed_dropped]
    exact (hprinted ▸ (hwrites.map Prod.snd).symm).append_right (printed rest)

theorem runGeneralLanePass2_order_free_sample :
    ∃ final steps', (samplePass sampleCandidates).2 = .ok final ∧
      (runGeneralLanePass2 sampleLoop sampleCandidates.reverse sampleStart).Performs steps'
        (.ok final) ∧
      submissions steps' = submissions (samplePass sampleCandidates).1 ∧
      (printed steps').Perm (printed (samplePass sampleCandidates).1) := by
  have hrun := samplePass_performs sampleCandidates
  obtain ⟨-, -, final, hout, -⟩ := runGeneralLanePass2_conducted hrun
  rw [hout] at hrun
  obtain ⟨steps', h⟩ := runGeneralLanePass2_order_free hrun (List.reverse_perm _).symm
    (by decide +kernel) (by decide)
  exact ⟨final, steps', hout, h⟩

end AgentTrading.DecisionLoop

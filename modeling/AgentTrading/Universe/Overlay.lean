import Mathlib.Data.List.Perm.Subperm
import AgentTrading.Universe.Coverage

/-! What the market overlay may change. It proposes only symbols that are new or came from the
core list, so it takes no place that an event, the watchlist, a position or an order has. -/
namespace AgentTrading.Universe
open Domain Kis Library Library.Keyed Library.Quota Library.Contest

variable {sources : Sources} {ctx : CompositionContext}

theorem parseQuoteToSnapshot_names {symbol market : String} {raw : Dict}
    {snapshot : MarketDataSnapshot} (h : parseQuoteToSnapshot symbol market raw = .ok snapshot) :
    (snapshot.symbol, snapshot.market) = (symbol, market) := by
  unfold parseQuoteToSnapshot at h
  simp only [bind_eq_ok, pure_eq_ok] at h
  obtain ⟨_, -, _, -, _, -, _, -, _, -, _, -, rfl⟩ := h
  rfl

theorem mem_quotedCandidates {quotes : String → Option Dict} {pool : List (String × String)}
    {kept : List MarketDataSnapshot} (h : quotedCandidates sources quotes pool = .ok kept)
    {snapshot : MarketDataSnapshot} (hs : snapshot ∈ kept) :
    (snapshot.symbol, snapshot.market) ∈ pool := by
  induction pool generalizing kept with
  | nil =>
    cases h
    cases hs
  | cons candidate pool ih =>
    rw [quotedCandidates] at h
    split at h
    · exact List.mem_cons_of_mem _ (ih h hs)
    · simp only [bind_eq_ok, pure_eq_ok] at h
      obtain ⟨parsed, hparsed, failed, -, rest, hrest, rfl⟩ := h
      split at hs
      · rcases List.mem_cons.mp hs with rfl | hs
        · rw [parseQuoteToSnapshot_names hparsed]
          exact List.mem_cons_self
        · exact List.mem_cons_of_mem _ (ih hrest hs)
      · exact List.mem_cons_of_mem _ (ih hrest hs)

theorem mem_marketProposals {seen : Seen} {market : List SelectedSymbol}
    (h : marketProposals sources ctx seen = .ok market) :
    market.length ≤ ctx.marketOverlayCap ∧
      ∀ p ∈ market, (seen.get? p.symbol).all (·.sourceType = .core) = true := by
  unfold marketProposals at h
  split at h
  · cases h
    simp
  next client _ =>
    split at h
    · cases h
      simp
    · obtain ⟨scored, hscored, hranked⟩ := bind_eq_ok.mp h
      cases hranked
      constructor
      · rw [List.length_map]
        exact List.length_take_le _ _
      · intro p hp
        obtain ⟨snapshot, hsnapshot, rfl⟩ := List.mem_map.mp hp
        have hkept := List.mem_of_mem_take hsnapshot
        rw [List.mem_insertionSort] at hkept
        have hpool := mem_quotedCandidates hscored hkept
        have hfree := (List.mem_filter.mp (List.mem_of_mem_take hpool)).2
        simp only [Bool.and_eq_true] at hfree
        exact hfree.1

theorem foldl_duel_market {holder : Option SelectedSymbol} {market : List SelectedSymbol}
    (hmarket : ∀ p ∈ market, p.sourceType = .marketOverlay)
    (hcore : market ≠ [] → holder.all (·.sourceType = .core) = true) {s : SelectedSymbol}
    (h : market.foldl (duel beats) holder = some s) :
    (s.sourceType = .marketOverlay ∧ s ∈ market) ∨ holder = some s := by
  cases market with
  | nil => exact Or.inr h
  | cons p rest =>
    left
    rw [List.forall_mem_cons] at hmarket
    have hfirst : duel beats holder p = some p := by
      have hall := hcore (List.cons_ne_nil p rest)
      cases holder with
      | none => rfl
      | some a =>
        have ha : a.sourceType = .core := by simpa using hall
        have hbeats : beats p a = true := by
          simp [beats, SelectedSymbol.priority, ha, hmarket.1, SourceType.priority]
        rw [duel, if_pos hbeats]
    rw [List.foldl_cons, hfirst] at h
    have hmem := foldl_duel_mem h
    refine ⟨?_, hmem⟩
    rcases List.mem_cons.mp hmem with rfl | hrest
    · exact hmarket.1
    · exact hmarket.2 s hrest

theorem mem_tableOf_append {market : List SelectedSymbol}
    (h : marketProposals sources ctx (tableOf (earlierProposals sources ctx)) = .ok market)
    {s : SelectedSymbol} (hs : s ∈ tableOf (earlierProposals sources ctx ++ market)) :
    (s.sourceType = .marketOverlay ∧ s ∈ market) ∨ s ∈ tableOf (earlierProposals sources ctx) := by
  rw [mem_tableOf, List.filter_append, List.foldl_append, ← get?_tableOf] at hs
  have hplace := foldl_duel_market
    (fun p hp => sourceType_market h (List.mem_of_mem_filter hp)) ?_ hs
  · rcases hplace with ⟨hsource, hmem⟩ | hold
    · exact Or.inl ⟨hsource, List.mem_of_mem_filter hmem⟩
    · rw [get?_tableOf, ← mem_tableOf] at hold
      exact Or.inr hold
  · intro hne
    obtain ⟨p, hp⟩ := List.exists_mem_of_ne_nil _ hne
    rw [List.mem_filter, decide_eq_true_eq] at hp
    rw [← hp.2]
    exact (mem_marketProposals h).2 p hp.1

theorem not_market_of_earlier {s : SelectedSymbol} (h : s ∈ earlierProposals sources ctx) :
    s.sourceType ≠ .marketOverlay := by
  simp only [earlierProposals, List.mem_append] at h
  rcases h with (((h | h) | h) | h) | h
  · simp [sourceType_core h]
  · simp [sourceType_held h]
  · simp [sourceType_reconciliation h]
  · simp [sourceType_event h]
  · simp [sourceType_manual h]

/-- Whatever the market overlay adds, a place taken by an event, the watchlist, a position or an
order stays as it was, every entry that is not of the overlay stood in the table before, and no
more entries than its cap come from it. -/
theorem collect_market {seen : Seen} (h : collect sources ctx = .ok seen) :
    (∀ s ∈ seenBeforeMarket sources ctx, s.sourceType ≠ .core → s ∈ seen) ∧
    (∀ s ∈ seen, s.sourceType ≠ .marketOverlay → s ∈ seenBeforeMarket sources ctx) ∧
    (ofSource .marketOverlay seen).length ≤ ctx.marketOverlayCap := by
  rw [collect_eq] at h
  obtain ⟨ps, hps, rfl⟩ := map_eq_ok.mp h
  obtain ⟨market, hmarket, rfl⟩ := proposals_eq_ok hps
  obtain ⟨hlength, hfree⟩ := mem_marketProposals hmarket
  rw [seenBeforeMarket_eq]
  refine ⟨?_, ?_, ?_⟩
  · intro s hs hnotcore
    rw [mem_tableOf] at hs ⊢
    have hnone : market.filter (·.symbol = s.symbol) = [] := by
      rw [List.filter_eq_nil_iff]
      intro p hp hsymbol
      rw [decide_eq_true_eq] at hsymbol
      have hall := hfree p hp
      rw [hsymbol, get?_tableOf, hs] at hall
      exact hnotcore (by simpa using hall)
    rw [List.filter_append, hnone, List.append_nil]
    exact hs
  · intro s hs hnot
    rcases mem_tableOf_append hmarket hs with ⟨hsource, -⟩ | hold
    · exact absurd hsource hnot
    · exact hold
  · have hnodup :
        (ofSource .marketOverlay (tableOf (earlierProposals sources ctx ++ market))).Nodup :=
      (List.Nodup.of_map _ (nodup_tableOf _)).filter _
    refine le_trans (List.subperm_of_subset hnodup ?_).length_le hlength
    intro s hs
    rcases mem_tableOf_append hmarket (List.mem_filter.mp hs).1 with ⟨-, hmem⟩ | hold
    · exact hmem
    · -- before the overlay no entry is of its source
      have hearlier := (best_of_mem_tableOf hold).proposed
      exact absurd (sourceType_of_mem hs) (not_market_of_earlier hearlier)

/-- The sample account with a live client that ranks a core symbol and the held one. -/
def sampleLiveSources : Sources :=
  { sampleSources with
    kisClient := some
      { env := "live"
        marketOverlaySeedSymbols := some fun _ => ["005930", "000660"]
        quotesBatch := fun _ _ => some [("acml_tr_pbmn", .str "2,000,000,000")] } }

def sampleLiveSeen : Seen :=
  [{ symbol := "005930", market := "KOSPI", sourceType := .marketOverlay
     inclusionReason := "price_volume_breakout" },
   { symbol := "000660", market := "KOSPI", sourceType := .heldPosition
     inclusionReason := reasonHeld },
   { symbol := "005935", market := "KOSPI", sourceType := .core, inclusionReason := reasonCore },
   { symbol := "035720", market := "KOSPI", sourceType := .reconciliationOverlay
     inclusionReason := "reconciliation_required:quantity" }]

theorem collect_market_sample :
    (∀ s ∈ seenBeforeMarket sampleLiveSources sampleContext,
      s.sourceType ≠ .core → s ∈ sampleLiveSeen) ∧
    (∀ s ∈ sampleLiveSeen, s.sourceType ≠ .marketOverlay →
      s ∈ seenBeforeMarket sampleLiveSources sampleContext) ∧
    (ofSource .marketOverlay sampleLiveSeen).length ≤ sampleContext.marketOverlayCap :=
  collect_market (show collect sampleLiveSources sampleContext = .ok sampleLiveSeen by
    decide +kernel)

end AgentTrading.Universe

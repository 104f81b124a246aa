import AgentTrading.Library.Runs
import AgentTrading.Library.SetTable

/-! `KISWebSocketClient.subscribe` and `unsubscribe` with the budget they charge. The client keeps
the keys it has registered in sets and the budget keeps counters; a call changes both, each in
its own way. -/
namespace AgentTrading.Kis
open Library

structure SubscriptionBudget where
  maxSubscriptions : Nat := 100
  criticalLimit : Nat := 20
  optionalLimit : Nat := 80
  currentCritical : Nat := 0
  currentOptional : Nat := 0
  deriving DecidableEq

namespace SubscriptionBudget

def totalUsed (budget : SubscriptionBudget) : Nat :=
  budget.currentCritical + budget.currentOptional

def canSubscribeCritical (budget : SubscriptionBudget) : Bool :=
  budget.currentCritical < budget.criticalLimit ∧ budget.totalUsed < budget.maxSubscriptions

def canSubscribeOptional (budget : SubscriptionBudget) : Bool :=
  budget.currentOptional < budget.optionalLimit ∧ budget.totalUsed < budget.maxSubscriptions

/-- A full budget makes room by taking one from the optional counter; which subscription that
is, nobody says. -/
def subscribeCritical (budget : SubscriptionBudget) : Bool × SubscriptionBudget :=
  if budget.criticalLimit ≤ budget.currentCritical then (false, budget)
  else if budget.maxSubscriptions ≤ budget.totalUsed then
    if 0 < budget.currentOptional then
      (true, { budget with
        currentOptional := budget.currentOptional - 1
        currentCritical := budget.currentCritical + 1 })
    else (false, budget)
  else (true, { budget with currentCritical := budget.currentCritical + 1 })

def subscribeOptional (budget : SubscriptionBudget) : Bool × SubscriptionBudget :=
  if budget.optionalLimit ≤ budget.currentOptional then (false, budget)
  else if budget.maxSubscriptions ≤ budget.totalUsed then (false, budget)
  else (true, { budget with currentOptional := budget.currentOptional + 1 })

/-- `unsubscribe(critical=critical, optional=not critical)`. -/
def unsubscribe (budget : SubscriptionBudget) (critical : Bool) : SubscriptionBudget :=
  if critical then
    if 0 < budget.currentCritical then
      { budget with currentCritical := budget.currentCritical - 1 }
    else budget
  else if 0 < budget.currentOptional then
    { budget with currentOptional := budget.currentOptional - 1 }
  else budget

/-- A critical subscription takes the place of an optional one. -/
def Evicts (budget : SubscriptionBudget) : Prop :=
  budget.currentCritical < budget.criticalLimit ∧
    budget.maxSubscriptions ≤ budget.totalUsed ∧ 0 < budget.currentOptional

theorem subscribeCritical_cases (budget : SubscriptionBudget) :
    (¬ budget.canSubscribeCritical ∧ ¬ budget.Evicts ∧ budget.subscribeCritical = (false, budget)) ∨
    (budget.canSubscribeCritical ∧ ¬ budget.Evicts ∧ budget.subscribeCritical =
      (true, { budget with currentCritical := budget.currentCritical + 1 })) ∨
    (budget.Evicts ∧ budget.subscribeCritical = (true, { budget with
      currentOptional := budget.currentOptional - 1
      currentCritical := budget.currentCritical + 1 })) := by
  simp only [canSubscribeCritical, Evicts, decide_eq_true_eq]
  unfold subscribeCritical
  split
  · next hlimit => exact Or.inl ⟨by omega, by omega, rfl⟩
  · split
    · split
      · exact Or.inr (Or.inr ⟨by omega, rfl⟩)
      · exact Or.inl ⟨by omega, by omega, rfl⟩
    · exact Or.inr (Or.inl ⟨by omega, by omega, rfl⟩)

theorem subscribeOptional_cases (budget : SubscriptionBudget) :
    (¬ budget.canSubscribeOptional ∧ budget.subscribeOptional = (false, budget)) ∨
    (budget.canSubscribeOptional ∧ budget.subscribeOptional =
      (true, { budget with currentOptional := budget.currentOptional + 1 })) := by
  simp only [canSubscribeOptional, decide_eq_true_eq]
  unfold subscribeOptional
  split
  · exact Or.inl ⟨by omega, rfl⟩
  · split
    · exact Or.inl ⟨by omega, rfl⟩
    · exact Or.inr ⟨by omega, rfl⟩

end SubscriptionBudget

/-- A frame to the server: "1" registers a key of a channel and "2" takes it back. -/
structure Frame where
  approvalKey : String
  trType : String
  trId : String
  trKey : String
  deriving DecidableEq

structure KISWebSocketClient where
  budget : SubscriptionBudget
  approvalKey : String
  connected : Bool
  subscriptions : SetTable String String
  criticalSubscriptions : SetTable String String

namespace KISWebSocketClient

/-- A client as it is built, with a budget nothing is charged to. -/
def new (maxSubscriptions criticalLimit optionalLimit : Nat) (approvalKey : String)
    (connected : Bool) : KISWebSocketClient where
  budget :=
    { maxSubscriptions := maxSubscriptions
      criticalLimit := criticalLimit
      optionalLimit := optionalLimit }
  approvalKey := approvalKey
  connected := connected
  subscriptions := ∅
  criticalSubscriptions := ∅

def target (client : KISWebSocketClient) : Bool → SetTable String String
  | true => client.criticalSubscriptions
  | false => client.subscriptions

def withTarget (client : KISWebSocketClient) (table : SetTable String String) :
    Bool → KISWebSocketClient
  | true => { client with criticalSubscriptions := table }
  | false => { client with subscriptions := table }

def frame (client : KISWebSocketClient) (trType channel trKey : String) : Frame :=
  { approvalKey := client.approvalKey, trType := trType, trId := channel, trKey := trKey }

/-- What is sent where there is a connection. -/
def send (client : KISWebSocketClient) (trType channel trKey : String) : List Frame :=
  if client.connected then [client.frame trType channel trKey] else []

structure Subscribed where
  granted : Bool
  sent : List Frame
  client : KISWebSocketClient

/-- The key is noted before the frame goes out, so a frame that is lost changes nothing here. -/
def subscribe (client : KISWebSocketClient) (channel trKey : String) (critical : Bool) :
    Subscribed :=
  let (granted, budget) :=
    if critical then client.budget.subscribeCritical else client.budget.subscribeOptional
  let charged := { client with budget := budget }
  if granted then
    { granted := true
      sent := client.send "1" channel trKey
      client := charged.withTarget ((client.target critical).add channel trKey) critical }
  else { granted := false, sent := [], client := charged }

def unsubscribe (client : KISWebSocketClient) (channel trKey : String) (critical : Bool) :
    List Frame × KISWebSocketClient :=
  (client.send "2" channel trKey,
    { client with budget := client.budget.unsubscribe critical }.withTarget
      ((client.target critical).discard channel trKey) critical)

/-- The frames of `_resubscribe_all`: the keys of a set come in no order. -/
def resubscribeAll (client : KISWebSocketClient) : Multiset Frame :=
  client.criticalSubscriptions.listed.map (fun p => client.frame "1" p.1 p.2) +
    client.subscriptions.listed.map fun p => client.frame "1" p.1 p.2

inductive Call where
  | subscribe (channel trKey : String) (critical : Bool)
  | unsubscribe (channel trKey : String) (critical : Bool)

def call (client : KISWebSocketClient) : Call → KISWebSocketClient
  | .subscribe channel trKey critical => (client.subscribe channel trKey critical).client
  | .unsubscribe channel trKey critical => (client.unsubscribe channel trKey critical).2

/-- The counters are the numbers of registered keys, and a reconnection registers no more than
the server allows. -/
structure Counted (client : KISWebSocketClient) : Prop where
  critical : client.budget.currentCritical = client.criticalSubscriptions.pairs.card
  optional : client.budget.currentOptional = client.subscriptions.pairs.card
  replayed : Multiset.card client.resubscribeAll ≤ client.budget.maxSubscriptions

/-- The call registers a new key without an eviction or takes back a registered one, or there is
nothing to charge. -/
def Fits (client : KISWebSocketClient) : Call → Prop
  | .subscribe channel trKey true => ¬ client.budget.Evicts ∧
      (client.budget.canSubscribeCritical → ⟨channel, trKey⟩ ∉ client.criticalSubscriptions.pairs)
  | .subscribe channel trKey false =>
      client.budget.canSubscribeOptional → ⟨channel, trKey⟩ ∉ client.subscriptions.pairs
  | .unsubscribe channel trKey true =>
      0 < client.budget.currentCritical → ⟨channel, trKey⟩ ∈ client.criticalSubscriptions.pairs
  | .unsubscribe channel trKey false =>
      0 < client.budget.currentOptional → ⟨channel, trKey⟩ ∈ client.subscriptions.pairs

theorem card_resubscribeAll (client : KISWebSocketClient) :
    Multiset.card client.resubscribeAll =
      client.criticalSubscriptions.pairs.card + client.subscriptions.pairs.card := by
  simp only [resubscribeAll, Multiset.card_add, Multiset.card_map, SetTable.card_listed]

theorem counted_iff (client : KISWebSocketClient) :
    client.Counted ↔ client.budget.currentCritical = client.criticalSubscriptions.pairs.card ∧
      client.budget.currentOptional = client.subscriptions.pairs.card ∧
      client.budget.totalUsed ≤ client.budget.maxSubscriptions := by
  constructor
  · rintro ⟨hcritical, hoptional, hreplayed⟩
    refine ⟨hcritical, hoptional, ?_⟩
    rw [card_resubscribeAll] at hreplayed
    unfold SubscriptionBudget.totalUsed
    omega
  · rintro ⟨hcritical, hoptional, htotal⟩
    refine ⟨hcritical, hoptional, ?_⟩
    rw [card_resubscribeAll]
    unfold SubscriptionBudget.totalUsed at htotal
    omega

section

variable {client : KISWebSocketClient} (channel trKey : String)

theorem counted_subscribe_critical (h : client.Counted) :
    (client.call (.subscribe channel trKey true)).Counted ↔
      client.Fits (.subscribe channel trKey true) := by
  obtain ⟨hcritical, hoptional, htotal⟩ := client.counted_iff.mp h
  unfold SubscriptionBudget.totalUsed at htotal
  rcases client.budget.subscribeCritical_cases with ⟨hcan, hevicts, hsubscribe⟩ |
    ⟨hcan, hevicts, hsubscribe⟩ | ⟨hevicts, hsubscribe⟩
  · apply iff_of_true
    · simpa only [call, subscribe, if_true, hsubscribe, Bool.false_eq_true, if_false] using h
    · exact ⟨hevicts, fun h => (hcan h).elim⟩
  · have hroom : client.budget.totalUsed < client.budget.maxSubscriptions :=
      (of_decide_eq_true hcan).2
    unfold SubscriptionBudget.totalUsed at hroom
    simp only [counted_iff, Fits, call, subscribe, if_true, hsubscribe, withTarget, target,
      SetTable.pairs_add, SubscriptionBudget.totalUsed, hcan, hevicts, forall_const,
      not_false_eq_true, true_and]
    by_cases hnew : (⟨channel, trKey⟩ : Σ _, String) ∈ client.criticalSubscriptions.pairs
    · rw [Finset.insert_eq_of_mem hnew]
      simp only [hnew, not_true_eq_false, iff_false]
      omega
    · rw [Finset.card_insert_of_notMem hnew]
      simp only [hnew, not_false_eq_true, iff_true]
      omega
  · have hsome : 0 < client.budget.currentOptional := hevicts.2.2
    apply iff_of_false
    · simp only [counted_iff, call, subscribe, if_true, hsubscribe, withTarget, target]
      omega
    · exact fun hfits => hfits.1 hevicts

theorem counted_subscribe_optional (h : client.Counted) :
    (client.call (.subscribe channel trKey false)).Counted ↔
      client.Fits (.subscribe channel trKey false) := by
  obtain ⟨hcritical, hoptional, htotal⟩ := client.counted_iff.mp h
  rcases client.budget.subscribeOptional_cases with ⟨hcan, hsubscribe⟩ | ⟨hcan, hsubscribe⟩
  · apply iff_of_true
    · simpa only [call, subscribe, Bool.false_eq_true, if_false, hsubscribe] using h
    · exact fun h => (hcan h).elim
  · have hroom : client.budget.totalUsed < client.budget.maxSubscriptions :=
      (of_decide_eq_true hcan).2
    unfold SubscriptionBudget.totalUsed at hroom
    simp only [counted_iff, Fits, call, subscribe, Bool.false_eq_true, if_false, if_true,
      hsubscribe, withTarget, target, SetTable.pairs_add, SubscriptionBudget.totalUsed, hcan,
      forall_const]
    by_cases hnew : (⟨channel, trKey⟩ : Σ _, String) ∈ client.subscriptions.pairs
    · rw [Finset.insert_eq_of_mem hnew]
      simp only [hnew, not_true_eq_false, iff_false]
      omega
    · rw [Finset.card_insert_of_notMem hnew]
      simp only [hnew, not_false_eq_true, iff_true]
      omega

theorem counted_unsubscribe_critical (h : client.Counted) :
    (client.call (.unsubscribe channel trKey true)).Counted ↔
      client.Fits (.unsubscribe channel trKey true) := by
  obtain ⟨hcritical, hoptional, htotal⟩ := client.counted_iff.mp h
  unfold SubscriptionBudget.totalUsed at htotal
  simp only [counted_iff, Fits, call, unsubscribe, SubscriptionBudget.unsubscribe, if_true,
    withTarget, target, SetTable.pairs_discard]
  by_cases hmem : (⟨channel, trKey⟩ : Σ _, String) ∈ client.criticalSubscriptions.pairs
  · have hpos := Finset.card_pos.mpr ⟨_, hmem⟩
    rw [if_pos (by omega), Finset.card_erase_of_mem hmem]
    simp only [hmem, implies_true, iff_true, SubscriptionBudget.totalUsed]
    omega
  · rw [Finset.erase_eq_of_notMem hmem]
    simp only [hmem, imp_false, not_lt, SubscriptionBudget.totalUsed]
    split
    · dsimp only
      omega
    · omega

theorem counted_unsubscribe_optional (h : client.Counted) :
    (client.call (.unsubscribe channel trKey false)).Counted ↔
      client.Fits (.unsubscribe channel trKey false) := by
  obtain ⟨hcritical, hoptional, htotal⟩ := client.counted_iff.mp h
  unfold SubscriptionBudget.totalUsed at htotal
  simp only [counted_iff, Fits, call, unsubscribe, SubscriptionBudget.unsubscribe,
    Bool.false_eq_true, if_false, withTarget, target, SetTable.pairs_discard]
  by_cases hmem : (⟨channel, trKey⟩ : Σ _, String) ∈ client.subscriptions.pairs
  · have hpos := Finset.card_pos.mpr ⟨_, hmem⟩
    rw [if_pos (by omega), Finset.card_erase_of_mem hmem]
    simp only [hmem, implies_true, iff_true, SubscriptionBudget.totalUsed]
    omega
  · rw [Finset.erase_eq_of_notMem hmem]
    simp only [hmem, imp_false, not_lt, SubscriptionBudget.totalUsed]
    split
    · dsimp only
      omega
    · omega

end

theorem counted_call (client : KISWebSocketClient) (event : Call) (h : client.Counted) :
    (client.call event).Counted ↔ client.Fits event := by
  cases event with
  | subscribe channel trKey critical =>
    cases critical with
    | true => exact counted_subscribe_critical channel trKey h
    | false => exact counted_subscribe_optional channel trKey h
  | unsubscribe channel trKey critical =>
    cases critical with
    | true => exact counted_unsubscribe_critical channel trKey h
    | false => exact counted_unsubscribe_optional channel trKey h

theorem counted_new (maxSubscriptions criticalLimit optionalLimit : Nat) (approvalKey : String)
    (connected : Bool) :
    (new maxSubscriptions criticalLimit optionalLimit approvalKey connected).Counted :=
  ⟨rfl, rfl, Nat.zero_le _⟩

/-- From a new client on, the counters are the numbers of registered keys at every moment exactly
if every call fits. -/
theorem counted_throughout_iff (maxSubscriptions criticalLimit optionalLimit : Nat)
    (approvalKey : String) (connected : Bool) (calls : List Call) :
    Runs.Throughout call Counted
        (new maxSubscriptions criticalLimit optionalLimit approvalKey connected) calls ↔
      Runs.Meets call Fits
        (new maxSubscriptions criticalLimit optionalLimit approvalKey connected) calls :=
  Runs.throughout_iff call counted_call (counted_new ..) calls

/-- Forty-one keys, a key never registered taken back, and one key more. -/
def oneTooMany : List Call :=
  ((List.range 41).map fun n => .subscribe "H0STCNT0" (toString n) false) ++
    [.unsubscribe "H0STCNT0" "005930" false, .subscribe "H0STCNT0" "000660" false]

/-- The server would be asked for forty-two registrations. -/
theorem oneTooMany_uncounted :
    let client := Runs.run call (new 41 20 80 "" true) oneTooMany
    client.budget.totalUsed = 41 ∧ Multiset.card client.resubscribeAll = 42 ∧
      ¬ Runs.Throughout call Counted (new 41 20 80 "" true) oneTooMany := by
  have hcounts : (Runs.run call (new 41 20 80 "" true) oneTooMany).budget.totalUsed = 41 ∧
      Multiset.card (Runs.run call (new 41 20 80 "" true) oneTooMany).resubscribeAll = 42 ∧
      (Runs.run call (new 41 20 80 "" true) oneTooMany).budget.maxSubscriptions = 41 := by
    decide +kernel
  obtain ⟨htotal, hreplayed, hmax⟩ := hcounts
  refine ⟨htotal, hreplayed, fun h => ?_⟩
  have hwithin := h.finish.replayed
  omega

end KISWebSocketClient

end AgentTrading.Kis

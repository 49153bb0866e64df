import AlgoSystem.VwapHedge.Orders

namespace AlgoSystem.Proof.VwapHedge.Retries
open AlgoSystem.VwapHedge Broker

variable {outcome : Nat → Outcome} {params : OrderParams}

def Lost (outcome : Nat → Outcome) (k : Nat) : Prop :=
  ∃ raises, outcome k = .acceptedResponseLost raises

structure Effect (outcome : Nat → Outcome) (params : OrderParams) (b b' : Broker)
    (result : Option String) (sent : List OrderParams) : Prop where
  accepted : b'.accepted = b.accepted ++ sent
  copies : ∀ order ∈ sent, order = params
  forward : b.calls ≤ b'.calls
  found : result ≠ none → sent ≠ []
  once : (sent.length ≤ 1 ∧ (result = none → sent = [])) ↔
    ∀ k, b.calls ≤ k → k < b'.calls → ¬ Lost outcome k

section Attempt
variable {b b' : Broker} {result : Option String} {sent : List OrderParams} {delay : Nat}

theorem effect_none (b : Broker) : Effect outcome params b b none [] where
  accepted := (List.append_nil _).symm
  copies := by simp
  forward := Nat.le_refl _
  found := by simp
  once := by
    refine iff_of_true ⟨by simp, fun _ => rfl⟩ ?_
    intro k lower upper
    omega

theorem effect_accepted {orderid : String} (here : outcome b.calls = .accepted orderid) :
    Effect outcome params b
      { b with calls := b.calls + 1, accepted := b.accepted ++ [params] } (some orderid) [params] where
  accepted := rfl
  copies := by simp
  forward := Nat.le_succ _
  found := by simp
  once := by
    refine iff_of_true ⟨by simp, by simp⟩ ?_
    rintro k lower upper ⟨raises, lost⟩
    have same : k = b.calls := Nat.le_antisymm (Nat.le_of_lt_succ upper) lower
    rw [same, here] at lost
    cases lost

theorem Effect.after_lost {raises : Bool} (here : outcome b.calls = .acceptedResponseLost raises)
    (rest : Effect outcome params
      (sleep delay { b with calls := b.calls + 1, accepted := b.accepted ++ [params] }) b' result
      sent) : Effect outcome params b b' result (params :: sent) where
  accepted := by
    rw [rest.accepted]
    simp [sleep]
  copies := by simpa using rest.copies
  forward := (Nat.le_succ _).trans rest.forward
  found := by simp
  once := by
    refine iff_of_false ?_ fun never => never b.calls (Nat.le_refl _) rest.forward ⟨raises, here⟩
    rintro ⟨atMost, nothing⟩
    cases result with
    | none => cases nothing rfl
    | some orderid =>
      have more := List.length_pos_of_ne_nil (rest.found (by simp))
      simp only [List.length_cons] at atMost
      omega

theorem Effect.after_rejected {raises : Bool} (here : outcome b.calls = .rejected raises)
    (rest : Effect outcome params (sleep delay { b with calls := b.calls + 1 }) b' result sent) :
    Effect outcome params b b' result sent where
  accepted := rest.accepted
  copies := rest.copies
  forward := (Nat.le_succ _).trans rest.forward
  found := rest.found
  once := by
    rw [rest.once]
    constructor
    · intro never k lower upper
      rcases lower.eq_or_lt with rfl | later
      · rintro ⟨raises', lost⟩
        rw [here] at lost
        cases lost
      · exact never k later upper
    · intro never k lower upper
      exact never k ((Nat.le_succ _).trans lower) upper

end Attempt

theorem placing_effect (outcome : Nat → Outcome) (params : OrderParams) (retries delay : Nat)
    (b : Broker) :
    ∃ sent, Effect outcome params b
      (retryCall sleep (placeOrder outcome params) retries delay b).2
      (retryCall sleep (placeOrder outcome params) retries delay b).1 sent := by
  induction retries generalizing delay b with
  | zero => exact ⟨[], effect_none b⟩
  | succ retries ih =>
    cases here : outcome b.calls with
    | accepted orderid =>
      simp only [retryCall, placeOrder, here]
      exact ⟨[params], effect_accepted here⟩
    | acceptedResponseLost raises =>
      simp only [retryCall, placeOrder, here]
      obtain ⟨sent, rest⟩ := ih (min (delay * 2) 30)
        (sleep delay { b with calls := b.calls + 1, accepted := b.accepted ++ [params] })
      exact ⟨params :: sent, rest.after_lost here⟩
    | rejected raises =>
      simp only [retryCall, placeOrder, here]
      obtain ⟨sent, rest⟩ := ih (min (delay * 2) 30) (sleep delay { b with calls := b.calls + 1 })
      exact ⟨sent, rest.after_rejected here⟩

inductive Request where
  | market (symbol token : String) (qty : Nat) (ordertype : TransactionType)
  | stoploss (symbol token : String) (qty : Nat) (trigger : ℚ)

def Request.order : Request → OrderParams
  | .market symbol token qty ordertype => marketParams symbol token qty ordertype
  | .stoploss symbol token qty trigger => stoplossParams symbol token qty trigger

def Request.place (outcome : Nat → Outcome) : Request → Broker → Option String × Broker
  | .market symbol token qty ordertype => placeMarketOrder outcome symbol token qty ordertype
  | .stoploss symbol token qty trigger => placeStoplossOrder outcome symbol token qty trigger

theorem one_order_iff_no_lost_response (outcome : Nat → Outcome) (request : Request) (b : Broker) :
    ∃ sent, (request.place outcome b).2.accepted = b.accepted ++ sent ∧
      (∀ order ∈ sent, order = request.order) ∧
      ((sent.length ≤ 1 ∧ ((request.place outcome b).1 = none → sent = [])) ↔
        ∀ k, b.calls ≤ k → k < (request.place outcome b).2.calls → ¬ Lost outcome k) := by
  cases request with
  | market symbol token qty ordertype =>
    obtain ⟨sent, effect⟩ :=
      placing_effect outcome (marketParams symbol token qty ordertype) 5 1 b
    exact ⟨sent, effect.accepted, effect.copies, effect.once⟩
  | stoploss symbol token qty trigger =>
    obtain ⟨sent, effect⟩ := placing_effect outcome (stoplossParams symbol token qty trigger) 5 1 b
    exact ⟨sent, effect.accepted, effect.copies, effect.once⟩

theorem entry_sold_twice :
    placeMarketOrder (fun k => if k = 0 then .acceptedResponseLost true else .accepted "2")
        "NIFTY25000CE" "43521" 65 .sell {} =
      (some "2", { calls := 2, slept := 1, accepted :=
        [marketParams "NIFTY25000CE" "43521" 65 .sell,
          marketParams "NIFTY25000CE" "43521" 65 .sell] }) := by
  decide +kernel

end AlgoSystem.Proof.VwapHedge.Retries

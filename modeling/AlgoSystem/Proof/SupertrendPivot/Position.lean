import AlgoSystem.General.Runs
import AlgoSystem.SupertrendPivot.OrderManager
import Mathlib.Tactic.Ring

namespace AlgoSystem.Proof.SupertrendPivot
open AlgoSystem.SupertrendPivot SupertrendPivot.OrderManager General

variable {cfg : Config}

def heldHedge (hedge : Option (Hedge cfg)) (token : String) : ℤ :=
  match hedge with
  | none => 0
  | some hedge => if hedge.contract.token = token then hedge.qty else 0

def held (pos : Position cfg) (token : String) : ℤ :=
  (if pos.contract.token = token then -(pos.qty : ℤ) else 0) + heldHedge pos.hedge token

def tracked (m : OrderManager cfg) (token : String) : ℤ :=
  match m.currentPosition with
  | none => 0
  | some pos => held pos token

def Tracks (m : OrderManager cfg) : Prop := ∀ token, net m.orders token = tracked m token

def ExitCompletes (m : OrderManager cfg) (placed : Placements) : Prop :=
  ∀ pos ∈ m.currentPosition, pos.hedge.isSome = true → pos.qty ≠ 0 → placed.first.isSome = true →
    placed.second.isSome = true

/-- When the first of two orders of a call is accepted, the second one is accepted too. -/
def Completes (m : OrderManager cfg) : Call → Prop
  | .sellOption _ hedgeContract placed =>
    ∀ hedge ∈ hedgeContract, m.canOpenNewPosition = true → cfg.quantity hedge ≠ 0 →
      placed.first.isSome = true → placed.second.isSome = true
  | .exitPosition _ placed | .squareOffAll placed => ExitCompletes m placed

instance (m : OrderManager cfg) (placed : Placements) : Decidable (ExitCompletes m placed) :=
  inferInstanceAs (Decidable (∀ pos ∈ m.currentPosition, _))

instance (m : OrderManager cfg) : DecidablePred (Completes m)
  | .sellOption _ hedgeContract _ => inferInstanceAs (Decidable (∀ hedge ∈ hedgeContract, _))
  | .exitPosition _ placed => inferInstanceAs (Decidable (ExitCompletes m placed))
  | .squareOffAll placed => inferInstanceAs (Decidable (ExitCompletes m placed))

theorem net_snoc (orders : List BrokerOrder) (order : BrokerOrder) (token : String) :
    net (orders ++ [order]) token = net orders token + order.change token := by
  simp [net]

theorem net_accept (m : OrderManager cfg) (contract : Contract) (side : Side) (token : String) :
    net (m.accept contract side).orders token =
      net m.orders token + BrokerOrder.change ⟨contract, side, cfg.quantity contract⟩ token :=
  net_snoc m.orders _ token

theorem change_buy (contract : Contract) (qty : Nat) (token : String) :
    BrokerOrder.change ⟨contract, .buy, qty⟩ token =
      if contract.token = token then (qty : ℤ) else 0 := rfl

theorem change_sell (contract : Contract) (qty : Nat) (token : String) :
    BrokerOrder.change ⟨contract, .sell, qty⟩ token =
      if contract.token = token then -(qty : ℤ) else 0 := rfl

theorem canOpen_flat {m : OrderManager cfg} (can : m.canOpenNewPosition = true) :
    m.currentPosition = none := by
  simp only [canOpenNewPosition, Bool.and_eq_true, Option.isNone_iff_eq_none] at can
  exact can.1

theorem sellShort_tracks {m : OrderManager cfg} {contract : Contract} {hedge : Option (Hedge cfg)}
    (before : ∀ token, net m.orders token = heldHedge hedge token) (price : ℚ) :
    Tracks (m.sellShort contract hedge (some price)).1 := by
  intro token
  have orders : net (m.sellShort contract hedge (some price)).1.orders token =
      net m.orders token + BrokerOrder.change ⟨contract, .sell, cfg.quantity contract⟩ token :=
    net_accept m contract .sell token
  rw [orders, before, change_sell, add_comm]
  rfl

theorem sellOption_tracks_iff {m : OrderManager cfg} (tracks : Tracks m) (contract : Contract)
    (hedgeContract : Option Contract) (placed : Placements) :
    Tracks (m.sellOption contract hedgeContract placed).1 ↔
      Completes m (.sellOption contract hedgeContract placed) := by
  unfold sellOption Completes
  split
  · rename_i can
    have flat : ∀ token, net m.orders token = 0 := by
      intro token
      rw [tracks token, tracked, canOpen_flat can]
    cases hedgeContract with
    | none =>
      refine iff_of_true ?_ nofun
      cases placed.second with
      | none => exact tracks
      | some price => exact sellShort_tracks flat price
    | some hedge =>
      dsimp only
      cases first : placed.first with
      | none => exact iff_of_true tracks nofun
      | some hedgePrice =>
        have bought (token : String) : net (m.accept hedge .buy).orders token =
            if hedge.token = token then (cfg.quantity hedge : ℤ) else 0 := by
          rw [net_accept, flat, zero_add, change_buy]
        cases second : placed.second with
        | some price => exact iff_of_true (sellShort_tracks bought price) (by simp)
        | none =>
          -- The hedge is bought and belongs to no position.
          have kept (token : String) : tracked (m.accept hedge .buy) token = 0 := by
            show tracked m token = 0
            rw [tracked, canOpen_flat can]
          show Tracks (m.accept hedge .buy) ↔ _
          simp only [Tracks, bought, kept]
          constructor
          · intro orphan other same _ some
            cases same
            exact absurd (by simpa using orphan hedge.token) some
          · intro completes token
            have empty : cfg.quantity hedge = 0 := by
              by_contra some
              cases completes hedge rfl can some rfl
            simp [empty]
  · rename_i cannot
    exact iff_of_true tracks fun hedge _ can => absurd can cannot

section Exit

variable {m : OrderManager cfg} {placed : Placements} (reason : String)

theorem net_bought (tracks : Tracks m) {pos : Position cfg} (here : m.currentPosition = some pos)
    (token : String) :
    net (m.accept pos.contract .buy).orders token = heldHedge pos.hedge token := by
  rw [net_accept, tracks, tracked, here, change_buy]
  simp only [held, ← pos.qty_eq]
  split <;> ring

theorem exitPosition_tracks_iff (tracks : Tracks m) :
    Tracks (m.exitPosition reason placed).1 ↔ ExitCompletes m placed := by
  unfold exitPosition ExitCompletes
  cases here : m.currentPosition with
  | none => exact iff_of_true tracks nofun
  | some pos =>
    simp only [Option.mem_some, forall_eq']
    have bought := net_bought tracks here
    cases first : placed.first with
    | none => exact iff_of_true tracks nofun
    | some price =>
      cases covered : pos.hedge with
      | none =>
        refine iff_of_true ?_ nofun
        intro token
        exact (bought token).trans (by rw [covered]; rfl)
      | some hedge =>
        dsimp only
        cases second : placed.second with
        | some hedgePrice =>
          refine iff_of_true ?_ (by simp)
          intro token
          have sold := net_accept (m.accept pos.contract .buy) hedge.contract .sell token
          rw [bought token, covered, change_sell, ← hedge.qty_eq] at sold
          refine sold.trans ?_
          show heldHedge (some hedge) token + _ = 0
          unfold heldHedge
          dsimp only
          split <;> ring
        | none =>
          -- The short is bought back, but the position stays.
          show (∀ token, net (m.accept pos.contract .buy).orders token =
            (if pos.contract.token = token then -(pos.qty : ℤ) else 0) +
              heldHedge (some hedge) token) ↔ _
          simp only [bought, covered]
          constructor
          · intro twice _ some
            have own := twice pos.contract.token
            rw [if_pos rfl] at own
            omega
          · intro completes token
            have empty : pos.qty = 0 := by
              by_contra some
              cases completes rfl some rfl
            simp [empty]

end Exit

theorem squareOffAll_eq (m : OrderManager cfg) (placed : Placements) :
    (m.squareOffAll placed).1 = (m.exitPosition "SQUARE_OFF_EOD" placed).1 := by
  unfold squareOffAll
  split
  · rfl
  · rename_i flat
    have none : m.currentPosition = none := by simpa using flat
    rw [exitPosition, none]

theorem call_tracks_iff {m n : OrderManager cfg} {c : Call} (tracks : Tracks m)
    (called : call m c = some n) : Tracks n ↔ Completes m c := by
  cases c with
  | sellOption contract hedgeContract placed =>
    cases called
    exact sellOption_tracks_iff tracks contract hedgeContract placed
  | exitPosition reason placed =>
    cases called
    exact exitPosition_tracks_iff reason tracks
  | squareOffAll placed =>
    cases called
    rw [squareOffAll_eq]
    exact exitPosition_tracks_iff _ tracks

theorem tracks_iff_completes (cfg : Config) (calls : List Call) (m : OrderManager cfg)
    (path : run call {} calls = some m) :
    (∀ before after (n : OrderManager cfg), calls = before ++ after →
      run call {} before = some n → Tracks n) ↔ Meets (@call cfg) Completes {} calls := by
  exact throughout_iff_meets (P := Tracks) (fun _ => id)
    (fun _ _ _ tracks completes called => (call_tracks_iff tracks called).mpr completes)
    (fun _ _ _ tracks breaks called => (call_tracks_iff tracks called).not.mpr breaks) path
    fun _ => rfl

def put : Contract := ⟨"NIFTY25000PE", "1", some 65⟩
def farPut : Contract := ⟨"NIFTY24000PE", "2", some 65⟩

def managerAfter (calls : List Call) : OrderManager {} := (run call {} calls).getD {}

def enteredAndExited : List Call :=
  [.sellOption put (some farPut) ⟨some 10, some 100⟩, .exitPosition "SUPERTREND_RED" ⟨none, none⟩,
    .squareOffAll ⟨some 80, some 12⟩]

theorem tracks_enteredAndExited :
    Tracks (managerAfter enteredAndExited) ∧ (managerAfter enteredAndExited).orders.length = 4 := by
  have path : run call {} enteredAndExited = some (managerAfter enteredAndExited) := by
    decide +kernel
  have completes : Meets (@call {}) Completes {} enteredAndExited := by decide +kernel
  have tracks := (tracks_iff_completes {} enteredAndExited _ path).mpr completes enteredAndExited []
    (managerAfter enteredAndExited) (by simp) path
  exact ⟨tracks, by decide +kernel⟩

def orphanedHedge : List Call := [.sellOption put (some farPut) ⟨some 10, none⟩]

def boughtBackTwice : List Call :=
  [.sellOption put (some farPut) ⟨some 10, some 100⟩,
    .exitPosition "SUPERTREND_RED" ⟨some 90, none⟩, .squareOffAll ⟨some 80, some 12⟩]

theorem not_tracks_second_order_raises :
    run call {} orphanedHedge = some (managerAfter orphanedHedge) ∧
    (managerAfter orphanedHedge).currentPosition = none ∧
    net (managerAfter orphanedHedge).orders "2" = 520 ∧
    ¬ Tracks (managerAfter orphanedHedge) ∧
    run call {} boughtBackTwice = some (managerAfter boughtBackTwice) ∧
    net (managerAfter boughtBackTwice).orders "1" = 520 ∧
    ¬ Tracks (managerAfter boughtBackTwice) := by
  have flat : (managerAfter orphanedHedge).currentPosition = none := by decide +kernel
  have orphan : net (managerAfter orphanedHedge).orders "2" = 520 := by decide +kernel
  have long : net (managerAfter boughtBackTwice).orders "1" = 520 := by decide +kernel
  have closed : tracked (managerAfter boughtBackTwice) "1" = 0 := by decide +kernel
  refine ⟨by decide +kernel, flat, orphan, ?_, by decide +kernel, long, ?_⟩
  · intro tracks
    have known := tracks "2"
    rw [orphan, tracked, flat] at known
    cases known
  · intro tracks
    have known := tracks "1"
    rw [long, closed] at known
    cases known

end AlgoSystem.Proof.SupertrendPivot

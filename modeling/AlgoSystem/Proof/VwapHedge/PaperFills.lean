import AlgoSystem.General.Runs
import AlgoSystem.VwapHedge.Paper

namespace AlgoSystem.Proof.VwapHedge.PaperFills
open General AlgoSystem.VwapHedge List

variable {short : Short} {s t : Desk} {ledger : Ledger} {symbol : String}

@[simp] theorem quantity_append (side : TransactionType) (fills : List Fill) (fill : Fill) :
    Ledger.quantity symbol side (fills ++ [fill]) = Ledger.quantity symbol side fills +
      if fill.symbol = symbol ∧ fill.side = side then fill.qty else 0 := by
  induction fills with
  | nil => simp [Ledger.quantity]
  | cons first fills ih => simp only [cons_append, Ledger.quantity, ih, Nat.add_assoc]

theorem bought_recordFill (token : String) (qty : Nat) (price : ℚ) :
    (ledger.recordFill ⟨symbol, token, .buy, qty, price⟩).bought symbol =
      ledger.bought symbol + qty := by
  simp [Ledger.bought, Ledger.recordFill]

theorem sold_recordFill {fill : Fill} (buys : fill.side = .buy) :
    (ledger.recordFill fill).sold symbol = ledger.sold symbol := by
  simp [Ledger.sold, Ledger.recordFill, buys]

def statusOf (ledger : Ledger) (orderid : String) : Option SlStatus :=
  (ledger.slOrders.get? orderid).map SlOrder.status

variable {orderid : String}

theorem readStoploss_inr {sl : SlOrder} (read : ledger.readStoploss orderid = .inr sl) :
    ledger.slOrders.get? orderid = some sl ∧ sl.status = .isOpen := by
  unfold Ledger.readStoploss at read
  split at read
  · cases read
  · rename_i found
    split at read
    · rename_i isOpen
      cases read
      exact ⟨found, isOpen⟩
    · cases read

theorem readStoploss_inl (read : ledger.readStoploss orderid = .inl .complete) :
    statusOf ledger orderid = some .complete := by
  unfold Ledger.readStoploss at read
  split at read
  · cases read
  · rename_i sl found
    split at read
    · cases read
    · simpa [statusOf, found] using read

structure Cancels (before after : Ledger) (orderid : String) : Prop where
  fills : after.fills = before.fills
  complete : statusOf after orderid = some .complete ↔ statusOf before orderid = some .complete
  orders : ∀ sl, after.slOrders.get? orderid = some sl →
    ∃ old, before.slOrders.get? orderid = some old ∧ old.symbol = sl.symbol ∧ old.qty = sl.qty

theorem cancels_of_get? {after : Ledger} {f : SlOrder → SlOrder}
    (fills : after.fills = ledger.fills)
    (orders : after.slOrders.get? orderid = (ledger.slOrders.get? orderid).map f)
    (same : ∀ sl, sl.symbol = (f sl).symbol ∧ sl.qty = (f sl).qty ∧
      ((f sl).status = .complete ↔ sl.status = .complete)) :
    Cancels ledger after orderid where
  fills := fills
  complete := by
    rw [statusOf, statusOf, orders]
    cases ledger.slOrders.get? orderid with
    | none => simp
    | some sl => simpa using (same sl).2.2
  orders := by
    intro sl found
    obtain ⟨old, present, rfl⟩ := Option.map_eq_some_iff.mp (orders.symm.trans found)
    exact ⟨old, present, (same old).1, (same old).2.1⟩

theorem cancelIfOpen_same (sl : SlOrder) :
    sl.symbol = sl.cancelIfOpen.symbol ∧ sl.qty = sl.cancelIfOpen.qty ∧
      (sl.cancelIfOpen.status = .complete ↔ sl.status = .complete) := by
  unfold SlOrder.cancelIfOpen
  split
  next isOpen => simp [isOpen]
  · simp

theorem cancels_cancelSymbol (orderid : String) : Cancels ledger (ledger.cancelSymbol symbol) orderid := by
  refine cancels_of_get? rfl (Dict.get?_mapValues _ _ _) ?_
  intro sl
  split
  · exact cancelIfOpen_same sl
  · exact ⟨rfl, rfl, .rfl⟩

theorem cancels_refl (ledger : Ledger) (orderid : String) : Cancels ledger ledger orderid :=
  cancels_of_get? (f := id) rfl (by simp) (fun _ => ⟨rfl, rfl, .rfl⟩)

theorem cancels_cancelStoploss (cancelled orderid : String) :
    Cancels ledger (ledger.cancelStoploss cancelled) orderid := by
  unfold Ledger.cancelStoploss
  split
  · rename_i sl found
    by_cases same : orderid = cancelled
    · subst same
      refine cancels_of_get? (f := SlOrder.cancelIfOpen) rfl ?_ cancelIfOpen_same
      simp [Dict.get?_set, found]
    · refine cancels_of_get? (f := id) rfl ?_ (fun _ => ⟨rfl, rfl, .rfl⟩)
      simp [Dict.get?_set, same]
  · exact cancels_refl ledger orderid

def pending (s : Desk) : Nat :=
  match s.tracking with
  | .completed sl _ => sl.qty
  | _ => 0

def readOrder : Tracking → Option SlOrder
  | .pricing sl | .reached sl _ | .completed sl _ => some sl
  | _ => none

structure Tracked (short : Short) (qty : Nat) (s : Desk) : Prop where
  order : ∀ sl, s.ledger.slOrders.get? short.orderid = some sl ∨ readOrder s.tracking = some sl →
    sl.symbol = short.symbol ∧ sl.qty = qty
  complete : statusOf s.ledger short.orderid = some .complete →
    s.slFill.isSome ∨ ∃ sl price, s.tracking = .completed sl price
  marked : ∀ sl price, s.tracking = .completed sl price →
    statusOf s.ledger short.orderid = some .complete
  hit : s.slHit = true ∨ s.tracking = .answered .complete ↔ s.slFill.isSome
  recorded : ∀ fill, s.slFill = some fill → fill ∈ s.ledger.fills

section Schedule
variable (short : Short) (before : Ledger) (qty : Nat)

/-- A stop-loss marked complete and still to be recorded counts as bought. -/
structure Within (s : Desk) : Prop where
  bought : s.ledger.bought short.symbol + pending s ≤ before.bought short.symbol + qty
  sold : s.ledger.sold short.symbol = before.sold short.symbol + qty

def reaching : Tracking → Bool
  | .reached _ _ => true
  | _ => false

def paying : Buying → Option Nat
  | .priced qty _ => some qty
  | _ => none

/-- The stop-loss is not completed once something is bought back, and a BUY is recorded only if
nothing is, the stop-loss is not complete and the quantity is at most the one sold. -/
def Apart (s : Desk) : DeskEvent → Prop
  | .track _ => reaching s.tracking = true → statusOf s.ledger short.orderid = some .isOpen →
      s.ledger.bought short.symbol = before.bought short.symbol
  | .buy i _ => ∀ bought ∈ s.buyers[i]?.bind paying,
      s.ledger.bought short.symbol = before.bought short.symbol ∧
        statusOf s.ledger short.orderid ≠ some .complete ∧ bought ≤ qty
  | _ => True

instance (s : Desk) : DecidablePred (Apart short before qty s)
  | .track _ => inferInstanceAs (Decidable (_ → _))
  | .buy _ _ => inferInstanceAs (Decidable (∀ bought ∈ _, _))
  | .squareOff _ _ => .isTrue trivial
  | .marketBuy _ => .isTrue trivial

end Schedule

inductive Change (short : Short) (s : Desk) (event : DeskEvent) (t : Desk) : Prop where
  | moved (tracking : Tracking) (result : t = { s with tracking })
      (before : ∀ sl price, s.tracking ≠ .completed sl price) (silent : s.tracking ≠ .answered .complete)
      (after : ∀ sl price, tracking ≠ .completed sl price)
      (reports : tracking = .answered .complete → statusOf s.ledger short.orderid = some .complete)
      (reads : ∀ sl, readOrder tracking = some sl →
        s.ledger.slOrders.get? short.orderid = some sl ∨ readOrder s.tracking = some sl)
  | marked (sl found : SlOrder) (price : ℚ) (reached : s.tracking = .reached sl price)
      (present : s.ledger.slOrders.get? short.orderid = some found)
      (guarded : ∀ before qty, Apart short before qty s event →
        s.ledger.bought short.symbol = before.bought short.symbol)
      (result : t = { s with
        ledger := { s.ledger with
          slOrders := s.ledger.slOrders.set short.orderid { found with status := .complete } }
        tracking := .completed sl price })
  | recordedStoploss (sl : SlOrder) (price : ℚ) (completed : s.tracking = .completed sl price)
      (result : t = { s with
        ledger := s.ledger.recordFill ⟨sl.symbol, sl.token, .buy, sl.qty, price⟩
        tracking := .answered .complete
        slFill := some ⟨sl.symbol, sl.token, .buy, sl.qty, price⟩ })
  | answered (status : SlStatus) (answer : s.tracking = .answered status)
      (result : t = { s with
        slHit := s.slHit || status = .complete
        tracking := if status = .isOpen then .checking else .ended })
  | cancelled (ledger : Ledger) (buyers : List Buying)
      (cancels : Cancels s.ledger ledger short.orderid) (result : t = { s with ledger, buyers })
  | bought (qty : Nat) (price : ℚ) (buyers : List Buying)
      (guarded : ∀ before most, Apart short before most s event →
        s.ledger.bought short.symbol = before.bought short.symbol ∧
          statusOf s.ledger short.orderid ≠ some .complete ∧ qty ≤ most)
      (result : t = { s with
        ledger := s.ledger.recordFill ⟨short.symbol, short.token, .buy, qty, price⟩
        buyers })

variable {price : Option ℚ}

theorem change_of_status {status : SlStatus}
    (read : s.ledger.readStoploss short.orderid = .inl status)
    (before : ∀ sl price, s.tracking ≠ .completed sl price)
    (silent : s.tracking ≠ .answered .complete) :
    Change short s (.track price) { s with tracking := .answered status } := by
  refine .moved (.answered status) rfl before silent (by simp) ?_ (by simp [readOrder])
  intro complete
  cases complete
  exact readStoploss_inl read

theorem change_of_pricing {sl : SlOrder} {tracking : Tracking} (here : s.tracking = .pricing sl)
    (after : tracking = .answered .isOpen ∨ ∃ price, tracking = .reached sl price) :
    Change short s (.track price) { s with tracking } := by
  refine .moved tracking rfl (by simp [here]) (by simp [here]) ?_ ?_ ?_
  all_goals rcases after with rfl | ⟨price, rfl⟩
  all_goals simp +contextual [readOrder, here]

theorem change_of_track (tracked : s.track short price = some t) :
    Change short s (.track price) t := by
  unfold Desk.track at tracked
  cases here : s.tracking with
  | checking =>
    simp only [here] at tracked
    cases read : s.ledger.readStoploss short.orderid with
    | inl status =>
      rw [read] at tracked
      cases tracked
      exact change_of_status read (by simp [here]) (by simp [here])
    | inr sl =>
      rw [read] at tracked
      cases tracked
      refine .moved (.pricing sl) rfl (by simp [here]) (by simp [here]) (by simp) (by simp) ?_
      rintro _ ⟨⟩
      exact .inl (readStoploss_inr read).1
  | pricing sl =>
    simp only [here] at tracked
    split at tracked
    · cases tracked
      exact change_of_pricing here (.inl rfl)
    · split at tracked
      · cases tracked
        exact change_of_pricing here (.inl rfl)
      · cases tracked
        exact change_of_pricing here (.inr ⟨_, rfl⟩)
  | reached sl price' =>
    simp only [here, Ledger.completeStoploss] at tracked
    cases read : s.ledger.readStoploss short.orderid with
    | inl status =>
      rw [read] at tracked
      cases tracked
      exact change_of_status read (by simp [here]) (by simp [here])
    | inr found =>
      rw [read] at tracked
      cases tracked
      obtain ⟨present, isOpen⟩ := readStoploss_inr read
      refine .marked sl found price' here present ?_ rfl
      intro before qty apart
      exact apart (by rw [here]; rfl) (by simp [statusOf, present, isOpen])
  | completed sl price' =>
    simp only [here] at tracked
    cases tracked
    exact .recordedStoploss sl price' here rfl
  | answered status =>
    simp only [here] at tracked
    cases tracked
    exact .answered status here rfl
  | ended => simp [here] at tracked

theorem change_of_buy {i : Nat} {here : Buying} {next : Ledger × Buying}
    (found : s.buyers[i]? = some here) (moved : Desk.buy short s.ledger price here = some next) :
    Change short s (.buy i price)
      { s with ledger := next.1, buyers := s.buyers.set i next.2 } := by
  have waits (cancels : Cancels s.ledger next.1 short.orderid) : Change short s (.buy i price)
      { s with ledger := next.1, buyers := s.buyers.set i next.2 } :=
    .cancelled next.1 (s.buyers.set i next.2) cancels rfl
  unfold Desk.buy at moved
  split at moved
  · cases moved
    exact waits (cancels_refl _ _)
  · cases moved
    exact waits (cancels_cancelStoploss _ _)
  · split at moved <;> cases moved <;> exact waits (cancels_refl _ _)
  · rename_i qty paid
    cases moved
    refine .bought qty paid _ ?_ rfl
    intro before most apart
    exact apart qty (by simp [found, paying])
  · cases moved
    exact waits (cancels_cancelSymbol _)
  · cases moved

variable {event : DeskEvent}

theorem change_of_step (stepped : s.step short event = some t) :
    Change short s event t := by
  cases event with
  | track price => exact change_of_track stepped
  | squareOff orderid qty | marketBuy qty =>
    cases stepped
    exact .cancelled s.ledger _ (cancels_refl _ _) rfl
  | buy i price =>
    obtain ⟨here, found, moved⟩ := Option.bind_eq_some_iff.mp stepped
    obtain ⟨next, bought, rfl⟩ := Option.map_eq_some_iff.mp moved
    exact change_of_buy found bought

variable {before : Ledger} {qty : Nat}

theorem Tracked.complete_filled (tracked : Tracked short qty s)
    (other : ∀ sl price, s.tracking ≠ .completed sl price)
    (complete : statusOf s.ledger short.orderid = some .complete) : s.slFill.isSome := by
  rcases tracked.complete complete with filled | ⟨sl, price, completed⟩
  · exact filled
  · exact absurd completed (other sl price)

theorem Tracked.change (tracked : Tracked short qty s) (change : Change short s event t) :
    Tracked short qty t := by
  cases change with
  | moved tracking result before silent after reports reads =>
    subst result
    -- No fill is waiting for the flag, so the two agree before the step.
    have hit : s.slHit = true ↔ s.slFill.isSome := by
      rw [← tracked.hit, or_iff_left silent]
    refine ⟨?_, ?_, ?_, ?_, tracked.recorded⟩
    · rintro sl (found | read)
      · exact tracked.order sl (.inl found)
      · exact tracked.order sl (reads sl read)
    · intro complete
      exact .inl (tracked.complete_filled before complete)
    · intro sl price completed
      exact absurd completed (after sl price)
    · constructor
      · rintro (set | answer)
        · exact hit.mp set
        · exact tracked.complete_filled before (reports answer)
      · intro filled
        exact .inl (hit.mpr filled)
  | marked sl found price reached present guarded result =>
    subst result
    refine ⟨?_, fun _ => .inr ⟨sl, price, rfl⟩, ?_, ?_, tracked.recorded⟩
    · rintro order (stored | ⟨⟨⟩⟩)
      · rw [Dict.get?_set, if_pos rfl] at stored
        cases stored
        exact tracked.order found (.inl present)
      · exact tracked.order sl (.inr (by rw [reached]; rfl))
    · simp [statusOf, Dict.get?_set]
    · have hit := tracked.hit
      simp only [reached, reduceCtorEq, or_false] at hit
      simpa using hit
  | recordedStoploss sl price completed result =>
    subst result
    refine ⟨?_, fun _ => .inl rfl, by simp, by simp, ?_⟩
    · rintro order (stored | ⟨⟨⟩⟩)
      exact tracked.order order (.inl stored)
    · rintro _ ⟨⟩
      exact mem_append_right _ (mem_singleton_self _)
  | answered status answer result =>
    subst result
    refine ⟨?_, ?_, ?_, ?_, tracked.recorded⟩
    · rintro order (stored | read)
      · exact tracked.order order (.inl stored)
      · dsimp only at read
        split at read <;> cases read
    · intro complete
      exact .inl (tracked.complete_filled (by simp [answer]) complete)
    · intro sl price completed
      dsimp only at completed
      split at completed <;> cases completed
    · have hit := tracked.hit
      simp only [answer, Tracking.answered.injEq] at hit
      rw [← hit]
      simp only [Bool.or_eq_true, decide_eq_true_eq]
      split <;> simp
  | cancelled ledger buyers cancels result =>
    subst result
    refine ⟨?_, fun complete => tracked.complete (cancels.complete.mp complete),
      fun sl price completed => cancels.complete.mpr (tracked.marked sl price completed),
      tracked.hit, ?_⟩
    · rintro sl (found | read)
      · obtain ⟨old, present, symbol, quantity⟩ := cancels.orders sl found
        rw [← symbol, ← quantity]
        exact tracked.order old (.inl present)
      · exact tracked.order sl (.inr read)
    · intro fill same
      exact cancels.fills ▸ tracked.recorded fill same
  | bought bought price buyers guarded result =>
    subst result
    exact ⟨tracked.order, tracked.complete, tracked.marked, tracked.hit,
      fun fill same => mem_append_left _ (tracked.recorded fill same)⟩

theorem pending_eq_zero (other : ∀ sl price, s.tracking ≠ .completed sl price) : pending s = 0 := by
  unfold pending
  split
  · rename_i completed
    exact absurd completed (other _ _)
  · rfl

theorem Within.change (within : Within short before qty s) (tracked : Tracked short qty s)
    (apart : Apart short before qty s event) (change : Change short s event t) :
    Within short before qty t := by
  obtain ⟨bound, sold⟩ := within
  cases change with
  | moved tracking result before silent after reports reads =>
    subst result
    refine ⟨?_, sold⟩
    rw [pending_eq_zero (s := { s with tracking }) after]
    exact (Nat.le_add_right _ _).trans bound
  | marked sl found price reached present guarded result =>
    subst result
    refine ⟨?_, sold⟩
    have same := (tracked.order sl (.inr (by rw [reached]; rfl))).2
    show s.ledger.bought short.symbol + sl.qty ≤ _
    rw [guarded before qty apart, same]
  | recordedStoploss sl price completed result =>
    -- What was pending is bought now, so the sum stays.
    subst result
    have same := (tracked.order sl (.inr (by rw [completed]; rfl))).1
    rw [pending, completed] at bound
    refine ⟨?_, by rwa [sold_recordFill rfl]⟩
    rw [same, bought_recordFill]
    exact bound
  | answered status answer result =>
    subst result
    refine ⟨?_, sold⟩
    rw [pending_eq_zero (by intro sl price; dsimp only; split <;> simp)]
    exact (Nat.le_add_right _ _).trans bound
  | cancelled ledger buyers cancels result =>
    subst result
    rw [Ledger.bought, ← cancels.fills] at bound
    rw [Ledger.sold, ← cancels.fills] at sold
    exact ⟨bound, sold⟩
  | bought bought price buyers guarded result =>
    subst result
    obtain ⟨none, notComplete, small⟩ := guarded before qty apart
    have idle : pending s = 0 :=
      pending_eq_zero fun sl price completed => notComplete (tracked.marked sl price completed)
    refine ⟨?_, by rwa [sold_recordFill rfl]⟩
    rw [bought_recordFill, none]
    show before.bought short.symbol + bought + pending s ≤ _
    omega

def entered (short : Short) (before : Ledger) (qty : Nat) (price trigger : ℚ) : Desk where
  ledger := (before.recordFill ⟨short.symbol, short.token, .sell, qty, price⟩).stoplossOrder
    short.orderid short.symbol short.token qty trigger

theorem entered_tracked (short : Short) (before : Ledger) (qty : Nat) (price trigger : ℚ) :
    Tracked short qty (entered short before qty price trigger) where
  order := by
    rintro sl (found | ⟨⟨⟩⟩)
    rw [entered, Ledger.stoplossOrder, Dict.get?_set, if_pos rfl] at found
    cases found
    exact ⟨rfl, rfl⟩
  complete := by simp [statusOf, entered, Ledger.stoplossOrder, Dict.get?_set]
  marked := by simp [entered]
  hit := by simp [entered]
  recorded := by simp [entered]

theorem entered_within (short : Short) (before : Ledger) (qty : Nat) (price trigger : ℚ) :
    Within short before qty (entered short before qty price trigger) where
  bought := by
    simp [entered, Ledger.stoplossOrder, Ledger.recordFill, Ledger.bought, pending]
  sold := by simp [entered, Ledger.stoplossOrder, Ledger.recordFill, Ledger.sold]

/-- What is bought back stays within what is sold if the stop-loss and the BUYs keep apart. -/
theorem bought_within_sold {before : Ledger}
    (flat : before.bought short.symbol ≤ before.sold short.symbol) (qty : Nat) (price trigger : ℚ)
    {events : List DeskEvent}
    (path : run (Desk.step short) (entered short before qty price trigger) events = some t) :
    (Meets (Desk.step short) (Apart short before qty) (entered short before qty price trigger) events →
        t.ledger.bought short.symbol ≤ t.ledger.sold short.symbol) ∧
      (t.slHit = true → ∃ fill ∈ t.ledger.fills, t.slFill = some fill) ∧
      (t.slFill.isSome → t.slHit = true ∨ t.tracking = .answered .complete) := by
  have start := entered_tracked short before qty price trigger
  have tracked : Tracked short qty t := run_invariant
    (fun _ _ _ tracked stepped => tracked.change (change_of_step stepped)) path start
  refine ⟨?_, ?_, tracked.hit.mpr⟩
  · intro meets
    obtain ⟨-, bound, sold⟩ := run_invariant_of_meets
      (I := fun s => Tracked short qty s ∧ Within short before qty s)
      (fun _ _ _ both apart stepped => ⟨both.1.change (change_of_step stepped),
        both.2.change both.1 apart (change_of_step stepped)⟩)
      path meets ⟨start, entered_within short before qty price trigger⟩
    omega
  · intro set
    obtain ⟨fill, same⟩ := Option.isSome_iff_exists.mp (tracked.hit.mp (.inl set))
    exact ⟨fill, tracked.recorded fill same, same⟩

def call : Short := ⟨"NIFTY19MAY2623700CE", "45123", "DRYRUN-SL-1"⟩

/-- The stop-loss is read as open and its trigger reached, but the square-off has cancelled it. -/
def squaredOff : List DeskEvent :=
  [.track none, .squareOff (some call.orderid) 75, .buy 0 none, .buy 0 (some 105), .track (some 120),
    .buy 0 none, .track none, .buy 0 none, .track none]

theorem bought_back_by_square_off :
    ∃ t, run (Desk.step call) (entered call {} 75 100 110) squaredOff = some t ∧
      t.ledger.bought call.symbol = 75 ∧
      t.ledger.bought call.symbol ≤ t.ledger.sold call.symbol := by
  have observed : (run (Desk.step call) (entered call {} 75 100 110) squaredOff).map
      (fun t => t.ledger.bought call.symbol) = some 75 := by decide +kernel
  obtain ⟨t, path, bought⟩ := Option.map_eq_some_iff.mp observed
  have apart : Meets (Desk.step call) (Apart call {} 75) (entered call {} 75 100 110) squaredOff := by
    decide +kernel
  exact ⟨t, path, bought, (bought_within_sold (Nat.le_refl _) 75 100 110 path).1 apart⟩

def stopped : List DeskEvent := [.track none, .track (some 120), .track none, .track none, .track none]

theorem bought_back_twice :
    (run (Desk.step call) (entered call {} 75 100 110)
        (stopped ++ [.squareOff (some call.orderid) 75, .buy 0 none, .buy 0 (some 120), .buy 0 none])).map
      (fun t => (t.ledger.bought call.symbol, t.ledger.sold call.symbol)) = some (150, 75) := by
  decide +kernel

end AlgoSystem.Proof.VwapHedge.PaperFills

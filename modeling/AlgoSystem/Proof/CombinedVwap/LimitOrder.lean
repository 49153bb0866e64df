import AlgoSystem.CombinedVwap.LimitOrder
import AlgoSystem.General.Lists
import AlgoSystem.General.Runs
import Mathlib.Algebra.BigOperators.Group.List.Basic

namespace AlgoSystem.Proof.CombinedVwap.LimitOrder
open AlgoSystem.CombinedVwap hiding Event step
open AlgoSystem.CombinedVwap.LimitOrder General

variable {o' : BrokerOrder} {book : List Row} {qty : Nat}

def filledSum (orders : List BrokerOrder) : Nat := (orders.map BrokerOrder.filled).sum

def total (s : State) : Nat := filledSum s.orders

def watched (s : State) : Option Nat :=
  match s.pc with
  | .polling order _ => some order
  | _ => none

def filledAt (s : State) (order : Nat) : Nat := (s.orders[order]?.map BrokerOrder.filled).getD 0

def watchedFilled (s : State) : Nat := ((watched s).map (filledAt s)).getD 0

def seenFilled (s : State) : Nat :=
  match s.pc with
  | .polling _ info => (info.getD {}).filledQty
  | _ => 0

/-- Only the watched order fills, and it is not left while the last look misses some of it. -/
def Watchful (s : State) : Event → Prop
  | .fill order _ _ => watched s = some order
  | .deadline => seenFilled s = watchedFilled s
  | _ => True

instance (s : State) (e : Event) : Decidable (Watchful s e) := by
  cases e <;> unfold Watchful <;> infer_instance

structure Sees (o : BrokerOrder) (info : Info) : Prop where
  filled_le : info.filledQty ≤ o.filled
  final : LimitOrder.final info.status → o.status ≠ .resting ∧ info.filledQty = o.filled

structure Evolves (o o' : BrokerOrder) : Prop where
  qty : o'.qty = o.qty
  filled : o.filled ≤ o'.filled
  settled : o.status ≠ .resting → o' = o

variable {o : BrokerOrder}

theorem Evolves.rfl : Evolves o o := ⟨Eq.refl _, le_rfl, fun _ => Eq.refl _⟩

variable {info : Info}

theorem Sees.evolves (sees : Sees o info) (later : Evolves o o') : Sees o' info where
  filled_le := sees.filled_le.trans later.filled
  final := by
    intro ended
    obtain ⟨settled, same⟩ := sees.final ended
    rw [later.settled settled]
    exact ⟨settled, same⟩

theorem close_evolves (o : BrokerOrder) (status : OrderStatus) : Evolves o (o.close status) := by
  unfold BrokerOrder.close
  split
  · rename_i resting
    exact ⟨rfl, le_rfl, fun settled => absurd resting settled⟩
  · exact Evolves.rfl

theorem close_filled (o : BrokerOrder) (status : OrderStatus) :
    (o.close status).filled = o.filled := by
  unfold BrokerOrder.close
  split <;> rfl

@[simp] theorem firstNonzero_none_right {α : Type} [Zero α] [DecidableEq α] (a : α) :
    firstNonzero (some a) none = a := by
  unfold firstNonzero
  split <;> simp_all

@[simp] theorem firstNonzero_none_left {α : Type} [Zero α] [DecidableEq α] (a : α) :
    firstNonzero none (some a) = a := by
  simp [firstNonzero]

theorem row_info_filledQty (broker : Broker) (orderid : OrderId) (o : BrokerOrder) :
    (o.row broker orderid).info.filledQty = o.filled := by
  cases broker <;> simp [BrokerOrder.row, Row.info]

theorem row_sees (broker : Broker) (orderid : OrderId) (o : BrokerOrder) :
    Sees o (o.row broker orderid).info where
  filled_le := (row_info_filledQty broker orderid o).le
  final := by
    intro ended
    refine ⟨?_, row_info_filledQty broker orderid o⟩
    intro resting
    cases broker <;> simp [BrokerOrder.row, Row.info, OrderStatus.text, final, resting] at ended

def Truthful (orders : List BrokerOrder) (book : List Row) : Prop :=
  ∀ index info, orderInfo (.own index) book = some info →
    ∃ o, orders[index]? = some o ∧ Sees o info

def Grew (orders orders' : List BrokerOrder) : Prop :=
  ∀ (index : Nat) o, orders[index]? = some o → ∃ o', orders'[index]? = some o' ∧ Evolves o o'

theorem Truthful.grew {orders orders' : List BrokerOrder} (truthful : Truthful orders book)
    (grew : Grew orders orders') : Truthful orders' book := by
  intro index info found
  obtain ⟨o, here, sees⟩ := truthful index info found
  obtain ⟨o', here', later⟩ := grew index o here
  exact ⟨o', here', sees.evolves later⟩

theorem orderInfo_eq_some {orderid : OrderId} (found : orderInfo orderid book = some info) :
    ∃ row ∈ book, row.oid = some orderid ∧ row.info = info := by
  obtain ⟨row, here, rfl⟩ := Option.map_eq_some_iff.mp found
  exact ⟨row, List.mem_of_find?_eq_some here, by simpa using List.find?_some here, rfl⟩

theorem others_not_own {others : OtherRows} {row : Row} (member : row ∈ others.val) (index : Nat) :
    row.oid ≠ some (.own index) := by
  intro own
  have foreign := List.all_eq_true.mp others.property row member
  simp [Row.foreign, own] at foreign

theorem row_oid (broker : Broker) (orderid : OrderId) (o : BrokerOrder) :
    (o.row broker orderid).oid = some orderid := by
  cases broker <;> rfl

theorem others_truthful (orders : List BrokerOrder) (others : OtherRows) :
    Truthful orders others.val := by
  intro index info found
  obtain ⟨row, member, own, -⟩ := orderInfo_eq_some found
  exact absurd own (others_not_own member index)

theorem book_truthful (call : Call) (s : State) (others : OtherRows) :
    Truthful s.orders (others.val ++ rows call s) := by
  intro index info found
  obtain ⟨row, member, own, rfl⟩ := orderInfo_eq_some found
  rcases List.mem_append.mp member with other | mine
  · exact absurd own (others_not_own other index)
  · obtain ⟨i, bound, rfl⟩ := List.mem_mapIdx.mp mine
    rw [row_oid] at own
    cases own
    exact ⟨s.orders[index], List.getElem?_eq_getElem bound, row_sees _ _ _⟩

theorem grew_append (orders : List BrokerOrder) (o : BrokerOrder) : Grew orders (orders ++ [o]) := by
  intro index p here
  have bound := (List.getElem?_eq_some_iff.mp here).1
  exact ⟨p, by rw [List.getElem?_append_left bound, here], Evolves.rfl⟩

theorem grew_close (orders : List BrokerOrder) (order : Nat) (status : OrderStatus) :
    Grew orders (orders.modify order fun o => o.close status) := by
  intro index o here
  rw [List.getElem?_modify, here]
  by_cases same : order = index
  · exact ⟨o.close status, by simp [same], close_evolves o status⟩
  · exact ⟨o, by simp [same], Evolves.rfl⟩

variable {order : Nat}

theorem grew_set {orders : List BrokerOrder} (here : orders[order]? = some o) (later : Evolves o o') :
    Grew orders (orders.set order o') := by
  intro index p found
  have bound := (List.getElem?_eq_some_iff.mp here).1
  by_cases same : order = index
  · subst same
    rw [here] at found
    cases found
    exact ⟨o', by simp [bound], later⟩
  · exact ⟨p, by rw [List.getElem?_set_ne same, found], Evolves.rfl⟩

theorem filledSum_append (orders : List BrokerOrder) (qty : Nat) (price : ℚ) :
    filledSum (orders ++ [BrokerOrder.placed qty price]) = filledSum orders := by
  simp [filledSum, BrokerOrder.placed]

theorem map_filled_close (orders : List BrokerOrder) (order : Nat) (status : OrderStatus) :
    (orders.modify order fun o => o.close status).map BrokerOrder.filled =
      orders.map BrokerOrder.filled := by
  apply List.ext_getElem?
  intro index
  simp only [List.getElem?_map, List.getElem?_modify]
  cases orders[index]? with
  | none => rfl
  | some o =>
    by_cases same : order = index <;> simp [same, close_filled]

theorem filledSum_close (orders : List BrokerOrder) (order : Nat) (status : OrderStatus) :
    filledSum (orders.modify order fun o => o.close status) = filledSum orders := by
  rw [filledSum, map_filled_close, filledSum]

structure Base (call : Call) (s : State) : Prop where
  book : Truthful s.orders s.orderbook
  fetched : ∀ book ∈ s.fetched, Truthful s.orders book
  remaining : s.remaining + s.totalFilled = call.qty
  counted : s.totalFilled ≤ total s

structure Inv (call : Call) (s : State) : Prop extends Base call s where
  watches : ∀ order info, s.pc = .polling order info → ∃ o, s.orders[order]? = some o ∧
    o.qty = s.remaining ∧ s.totalFilled + o.filled ≤ total s ∧ ∀ seen ∈ info, Sees o seen
  returned : ∀ r, s.pc = .returned r → r.filledQty = s.totalFilled

def gap (s : State) : Nat := total s - (s.totalFilled + watchedFilled s)

variable {s : State}

theorem watchedFilled_polling {info : Option Info} (pc : s.pc = .polling order info)
    (here : s.orders[order]? = some o) :
    watchedFilled s = o.filled := by
  simp [watchedFilled, watched, pc, filledAt, here]

variable {call : Call}

theorem Base.unwatched (base : Base call s) {pc : Pc}
    (left : ∀ order info, pc ≠ .polling order info)
    (returned : ∀ r, pc = .returned r → r.filledQty = s.totalFilled) :
    Inv call { s with pc } ∧ gap { s with pc } = total s - s.totalFilled := by
  refine ⟨⟨⟨base.book, base.fetched, base.remaining, base.counted⟩, ?_, returned⟩, ?_⟩
  · intro order info polling
    exact absurd polling (left order info)
  · cases pc with
    | polling order info => exact absurd rfl (left order info)
    | placing | cancelling | returned => rfl

theorem Base.watching (base : Base call s) {info : Option Info} (here : s.orders[order]? = some o)
    (qty : o.qty = s.remaining) (room : s.totalFilled + o.filled ≤ total s)
    (sees : ∀ seen ∈ info, Sees o seen) :
    Inv call { s with pc := .polling order info } ∧
      gap { s with pc := .polling order info } = total s - (s.totalFilled + o.filled) := by
  refine ⟨⟨⟨base.book, base.fetched, base.remaining, base.counted⟩, ?_, by simp⟩, ?_⟩
  · intro order' info' polling
    cases polling
    exact ⟨o, here, qty, room, sees⟩
  · simp [gap, total, watchedFilled, watched, filledAt, here]

theorem result_filledQty (call : Call) (s : State) (r : Result)
    (pc : Pc.returned (result call s) = .returned r) : r.filledQty = s.totalFilled := by
  cases pc
  rfl

section
variable (base : Base call s)
include base

theorem Base.loopHead :
    Inv call (loopHead call s) ∧ gap (loopHead call s) = total s - s.totalFilled := by
  unfold CombinedVwap.LimitOrder.loopHead
  split
  · exact base.unwatched (by simp) (result_filledQty call s)
  · exact base.unwatched (by simp) (by simp)

theorem Base.nextAttempt :
    Inv call (nextAttempt call s) ∧ gap (nextAttempt call s) = total s - s.totalFilled :=
  Base.loopHead (s := { s with attempt := s.attempt + 1 })
    ⟨base.book, base.fetched, base.remaining, base.counted⟩

theorem Base.retryPlace (tries : Nat) :
    Inv call (retryPlace call s tries) ∧
      gap (retryPlace call s tries) = total s - s.totalFilled := by
  unfold CombinedVwap.LimitOrder.retryPlace
  split
  · exact base.unwatched (by simp) (by simp)
  · exact base.nextAttempt

theorem Base.orders {orders : List BrokerOrder} (grew : Grew s.orders orders)
    (sum : total s ≤ filledSum orders) : Base call { s with orders } where
  book := base.book.grew grew
  fetched := fun book member => (base.fetched book member).grew grew
  remaining := base.remaining
  counted := base.counted.trans sum

theorem Base.submit : Base call (submit call s) ∧ total (submit call s) = total s := by
  have sum := filledSum_append s.orders s.remaining (roundTo 2 (limitPrice call s.attempt))
  exact ⟨base.orders (grew_append _ _) sum.ge, sum⟩

end

theorem start_inv (call : Call) (orderbook : OtherRows) :
    Inv call (start call orderbook) ∧ gap (start call orderbook) = 0 := by
  have base : Base call { orderbook := orderbook.val, remaining := call.qty } :=
    { book := others_truthful _ _
      fetched := fun _ member => absurd member (by simp)
      remaining := rfl
      counted := Nat.zero_le _ }
  exact base.loopHead

theorem count_spec (base : Base call s) (qty : o.qty = s.remaining)
    (room : s.totalFilled + o.filled ≤ total s) (seen : info.filledQty ≤ o.filled) :
    Base call (count call s info) ∧ total (count call s info) = total s ∧
      (count call s info).totalFilled = s.totalFilled + info.filledQty := by
  have bound := o.filled_le
  have remaining := base.remaining
  unfold count
  split
  · refine ⟨⟨base.book, base.fetched, ?_, ?_⟩, rfl, rfl⟩
    · change call.qty - (s.totalFilled + info.filledQty) + (s.totalFilled + info.filledQty) = call.qty
      omega
    · change s.totalFilled + info.filledQty ≤ total s
      omega
  · exact ⟨base, rfl, by omega⟩

theorem tally_spec (order : Nat) {info : Option Info} (base : Base call s)
    (qty : o.qty = s.remaining) (room : s.totalFilled + o.filled ≤ total s)
    (seen : ∀ view ∈ info, Sees o view) :
    Inv call (tally call s order info) ∧
      gap (tally call s order info) = total s - (s.totalFilled + (info.getD {}).filledQty) := by
  have view : (info.getD {}).filledQty ≤ o.filled := by
    cases info with
    | none => exact Nat.zero_le _
    | some view => exact (seen view rfl).filled_le
  obtain ⟨counted, sum, filled⟩ := count_spec base qty room view
  rw [← sum, ← filled]
  unfold tally
  dsimp only
  split
  · exact counted.unwatched (by simp) (result_filledQty call _)
  · exact counted.unwatched (by simp) (by simp)

theorem Inv.room (inv : Inv call s) :
    s.totalFilled + watchedFilled s ≤ total s := by
  cases pc : s.pc with
  | polling order info =>
    obtain ⟨o, here, -, room, -⟩ := inv.watches order info pc
    rwa [watchedFilled_polling pc here]
  | placing tries | cancelling order | returned r =>
    simpa [watchedFilled, watched, pc] using inv.counted

structure StepSpec (call : Call) (s : State) (e : Event) (t : State) : Prop where
  inv : Inv call t
  grows : gap s ≤ gap t
  same : gap t = gap s ↔ Watchful s e

variable {t : State}

theorem StepSpec.of_gap_eq {e : Event} (inv : Inv call t) (same : gap t = gap s)
    (watchful : Watchful s e) : StepSpec call s e t :=
  ⟨inv, same.ge, iff_of_true same watchful⟩

theorem gap_of_unwatched (left : watched s = none) :
    gap s = total s - s.totalFilled := by
  simp [gap, watchedFilled, left]

section
variable (inv : Inv call s)
include inv

theorem place_spec {outcome : PlaceOutcome} (moved : step call s (.place outcome) = some t) :
    StepSpec call s (.place outcome) t := by
  cases pc : s.pc with
  | placing tries =>
    have before : gap s = total s - s.totalFilled := gap_of_unwatched (by simp [watched, pc])
    obtain ⟨submitted, sum⟩ := inv.toBase.submit
    simp only [step, pc] at moved
    cases outcome with
    | accepted =>
      cases moved
      have here : (submit call s).orders[s.orders.length]? =
          some (.placed s.remaining (roundTo 2 (limitPrice call s.attempt))) := by
        simp [submit]
      have unseen : ∀ seen ∈ (none : Option Info),
          Sees (.placed s.remaining (roundTo 2 (limitPrice call s.attempt))) seen := nofun
      obtain ⟨after, gap⟩ := submitted.watching here rfl submitted.counted unseen
      exact .of_gap_eq after (by rw [gap, sum, before]; rfl) trivial
    | lost =>
      cases moved
      obtain ⟨after, gap⟩ := submitted.retryPlace tries
      exact .of_gap_eq after (by rw [gap, sum, before]; rfl) trivial
    | refused =>
      cases moved
      obtain ⟨after, gap⟩ := inv.toBase.retryPlace tries
      exact .of_gap_eq after (by rw [gap, before]) trivial
  | polling | cancelling | returned => simp [step, pc] at moved

theorem poll_spec (moved : step call s .poll = some t) : StepSpec call s .poll t := by
  cases pc : s.pc with
  | polling order info =>
    obtain ⟨o, here, qty, room, -⟩ := inv.watches order info pc
    have before : gap s = total s - (s.totalFilled + o.filled) := by
      rw [gap, watchedFilled_polling pc here]
    have keepsPolling (look : Option Info) (sees : ∀ seen ∈ look, Sees o seen) :
        StepSpec call s .poll { s with pc := .polling order look } := by
      obtain ⟨after, gap⟩ := inv.toBase.watching here qty room sees
      exact .of_gap_eq after (gap.trans before.symm) trivial
    simp only [step, pc, Option.some.injEq] at moved
    subst moved
    unfold poll
    cases found : orderInfo (.own order) s.orderbook with
    | none => exact keepsPolling none (by simp)
    | some look =>
      obtain ⟨p, there, sees⟩ := inv.book order look found
      rw [here] at there
      cases there
      dsimp only
      split
      · rename_i ended
        have views : ∀ seen ∈ some look, Sees o seen := by simpa using sees
        obtain ⟨after, gap⟩ := tally_spec order inv.toBase qty room views
        refine .of_gap_eq after ?_ trivial
        rw [gap, before, Option.getD_some, (sees.final ended).2]
      · exact keepsPolling (some look) (by simpa using sees)
  | placing | cancelling | returned => simp [step, pc] at moved

theorem deadline_spec (moved : step call s .deadline = some t) : StepSpec call s .deadline t := by
  cases pc : s.pc with
  | polling order info =>
    obtain ⟨o, here, qty, room, sees⟩ := inv.watches order info pc
    simp only [step, pc, Option.some.injEq] at moved
    subst moved
    obtain ⟨after, left⟩ := tally_spec order inv.toBase qty room sees
    have before : gap s = total s - (s.totalFilled + o.filled) := by
      rw [gap, watchedFilled_polling pc here]
    have seen : (info.getD {}).filledQty ≤ o.filled := by
      cases info with
      | none => exact Nat.zero_le _
      | some look => exact (sees look rfl).filled_le
    refine ⟨after, by omega, ?_⟩
    have shown : seenFilled s = (info.getD {}).filledQty := by simp [seenFilled, pc]
    rw [Watchful, shown, watchedFilled_polling pc here, left, before]
    omega
  | placing | cancelling | returned => simp [step, pc] at moved

theorem cancel_spec {outcome : CancelOutcome} (moved : step call s (.cancel outcome) = some t) :
    StepSpec call s (.cancel outcome) t := by
  cases pc : s.pc with
  | cancelling order =>
    have before : gap s = total s - s.totalFilled := gap_of_unwatched (by simp [watched, pc])
    simp only [step, pc, Option.some.injEq] at moved
    subst moved
    cases outcome with
    | accepted =>
      have sum := filledSum_close s.orders order .cancelled
      obtain ⟨after, gap⟩ :=
        (inv.toBase.orders (grew_close s.orders order .cancelled) sum.ge).nextAttempt
      refine .of_gap_eq after (gap.trans ?_) trivial
      rw [before]
      exact congrArg (· - s.totalFilled) sum
    | rejected | raised =>
      obtain ⟨after, gap⟩ := inv.toBase.nextAttempt
      exact .of_gap_eq after (gap.trans before.symm) trivial
  | placing | polling | returned => simp [step, pc] at moved

theorem Inv.orders {orders : List BrokerOrder} (grew : Grew s.orders orders)
    (room : s.totalFilled + watchedFilled { s with orders } ≤ filledSum orders) :
    Inv call { s with orders } := by
  refine ⟨⟨inv.book.grew grew, fun book member => (inv.fetched book member).grew grew,
    inv.remaining, (Nat.le_add_right _ _).trans room⟩, ?_, inv.returned⟩
  intro order info pc
  obtain ⟨o, here, qty, -, sees⟩ := inv.watches order info pc
  obtain ⟨o', here', later⟩ := grew order o here
  rw [watchedFilled_polling (s := { s with orders }) pc here'] at room
  exact ⟨o', here', later.qty.trans qty, room, fun seen member => (sees seen member).evolves later⟩

theorem brokerEnds_spec {status : OrderStatus}
    (moved : step call s (.brokerEnds order status) = some t) :
    StepSpec call s (.brokerEnds order status) t := by
  simp only [step, Option.ite_none_right_eq_some, Option.some.injEq] at moved
  obtain ⟨-, rfl⟩ := moved
  have sum := filledSum_close s.orders order status
  have same : watchedFilled { s with orders := s.orders.modify order fun o => o.close status } =
      watchedFilled s := by
    unfold watchedFilled watched filledAt
    simp only [← List.getElem?_map, map_filled_close]
  refine .of_gap_eq (inv.orders (grew_close s.orders order status) ?_) ?_ trivial
  · rw [same, sum]
    exact inv.room
  · rw [gap, gap, same, total, sum]
    rfl

end

theorem fill_evolves (price : ℚ) (fits : o.filled + qty ≤ o.qty) (resting : o.status = .resting) :
    Evolves o (o.fill qty price fits) :=
  ⟨rfl, Nat.le_add_right _ _, fun settled => absurd resting settled⟩

theorem watchedFilled_set (here : s.orders[order]? = some o) (o' : BrokerOrder) :
    watchedFilled { s with orders := s.orders.set order o' } =
      if watched s = some order then o'.filled else watchedFilled s := by
  have bound := (List.getElem?_eq_some_iff.mp here).1
  cases pc : s.pc with
  | polling watching info =>
    by_cases same : watching = order
    · subst same
      simp [watchedFilled, watched, filledAt, pc, bound]
    · simp [watchedFilled, watched, filledAt, pc, same, List.getElem?_set_ne (Ne.symm same)]
  | placing | cancelling | returned => simp [watchedFilled, watched, pc]

theorem fill_spec {price : ℚ} (inv : Inv call s)
    (moved : step call s (.fill order qty price) = some t) :
    StepSpec call s (.fill order qty price) t := by
  cases here : s.orders[order]? with
  | none => simp [step, here] at moved
  | some o =>
    simp only [step, here] at moved
    split at moved
    · rename_i fits
      simp only [Option.ite_none_right_eq_some, Option.some.injEq] at moved
      obtain ⟨⟨resting, positive⟩, rfl⟩ := moved
      set t : State := { s with orders := s.orders.set order (o.fill qty price fits) }
      have grown : total t = total s + qty := by
        have sum := sum_map_set (f := BrokerOrder.filled) (b := o.fill qty price fits) here
        change filledSum _ + o.filled = filledSum _ + (o.filled + qty) at sum
        change filledSum (s.orders.set order (o.fill qty price fits)) = filledSum s.orders + qty
        omega
      have watching : watchedFilled t =
          if watched s = some order then o.filled + qty else watchedFilled s :=
        watchedFilled_set here (o.fill qty price fits)
      have room := inv.room
      have grew := grew_set here (fill_evolves price fits resting)
      have counted : t.totalFilled = s.totalFilled := rfl
      by_cases now : watched s = some order
      · rw [if_pos now] at watching
        have before : watchedFilled s = o.filled := by
          simp [watchedFilled, now, filledAt, here]
        refine .of_gap_eq (inv.orders grew ?_) ?_ now
        · change s.totalFilled + watchedFilled t ≤ total t
          omega
        · unfold gap
          omega
      · rw [if_neg now] at watching
        refine ⟨inv.orders grew ?_, ?_, iff_of_false ?_ now⟩
        · change s.totalFilled + watchedFilled t ≤ total t
          omega
        all_goals
          unfold gap
          omega
    · cases moved

theorem Inv.books (inv : Inv call s) {orderbook : List Row} {fetched : Option (List Row)}
    (book : Truthful s.orders orderbook) (later : ∀ book ∈ fetched, Truthful s.orders book) :
    Inv call { s with orderbook, fetched } :=
  ⟨⟨book, later, inv.remaining, inv.counted⟩, inv.watches, inv.returned⟩

theorem step_spec (s : State) (e : Event) (t : State) (inv : Inv call s)
    (moved : step call s e = some t) : StepSpec call s e t := by
  cases e with
  | place outcome => exact place_spec inv moved
  | poll => exact poll_spec inv moved
  | deadline => exact deadline_spec inv moved
  | cancel outcome => exact cancel_spec inv moved
  | fill order qty price => exact fill_spec inv moved
  | brokerEnds order status => exact brokerEnds_spec inv moved
  | fetch others =>
    cases moved
    refine .of_gap_eq (inv.books inv.book ?_) rfl trivial
    intro book member
    cases member
    exact book_truthful call s others
  | store =>
    obtain ⟨orderbook, arrived, rfl⟩ := Option.map_eq_some_iff.mp moved
    exact .of_gap_eq (inv.books (inv.fetched orderbook arrived) (by simp)) rfl trivial
  | refreshFailed =>
    cases moved
    refine .of_gap_eq (inv.books ?_ (by simp)) rfl trivial
    exact others_truthful s.orders ⟨[], rfl⟩

theorem run_gap {orderbook : OtherRows} {events : List Event}
    (path : run (step call) (start call orderbook) events = some t) :
    Inv call t ∧ (gap t = 0 ↔ Meets (step call) Watchful (start call orderbook) events) := by
  obtain ⟨initial, zero⟩ := start_inv call orderbook
  have keeps : ∀ s e t, Inv call s → step call s e = some t → Inv call t :=
    fun s e t inv moved => (step_spec s e t inv moved).inv
  have grows : ∀ s e t, Inv call s → step call s e = some t →
      gap s ≤ gap t ∧ (gap t = gap s ↔ Watchful s e) := by
    intro s e t inv moved
    have spec := step_spec s e t inv moved
    exact ⟨spec.grows, spec.same⟩
  have same := (run_measure_eq_iff keeps grows path initial).2
  rw [zero] at same
  exact ⟨run_invariant keeps path initial, same⟩

theorem total_le_of_gap (inv : Inv call s) (closed : gap s = 0) :
    total s ≤ call.qty := by
  have remaining := inv.remaining
  have room := inv.room
  have watching : watchedFilled s ≤ s.remaining := by
    cases pc : s.pc with
    | polling order info =>
      obtain ⟨o, here, qty, -, -⟩ := inv.watches order info pc
      rw [watchedFilled_polling pc here, ← qty]
      exact o.filled_le
    | placing | cancelling | returned => simp [watchedFilled, watched, pc]
  unfold gap at closed
  omega

/-- A call that has returned never traded more than its quantity, and reports what was traded
exactly when only watched orders filled and the last look before a timeout showed it all. -/
theorem executeLimitOrder_exact_iff (call : Call) (orderbook : OtherRows) (events : List Event)
    (t : State) (path : run (step call) (start call orderbook) events = some t) (r : Result)
    (returned : t.pc = .returned r) :
    ((∀ before after u, events = before ++ after →
        run (step call) (start call orderbook) before = some u → total u ≤ call.qty) ∧
      r.filledQty = total t) ↔
    Meets (step call) Watchful (start call orderbook) events := by
  obtain ⟨inv, closed⟩ := run_gap path
  have left : gap t = total t - r.filledQty := by
    rw [inv.returned r returned]
    exact gap_of_unwatched (by simp [watched, returned])
  have counted : r.filledQty ≤ total t := (inv.returned r returned).trans_le inv.counted
  constructor
  · rintro ⟨-, reported⟩
    rw [← closed]
    omega
  · intro meets
    refine ⟨?_, by have := closed.mpr meets; omega⟩
    rintro before after u rfl reached
    obtain ⟨here, small⟩ := run_gap reached
    exact total_le_of_gap here (small.mpr ((meets_append reached).mp meets).1)

def sellOneLot : Call := { broker := .angel, qty := 65, side := .sell, referencePrice := 100 }

def noRows : OtherRows := ⟨[], rfl⟩

def callAfter (events : List Event) : State :=
  (run (step sellOneLot) (start sellOneLot noRows) events).getD (start sellOneLot noRows)

def shownInTime : List Event :=
  [.place .accepted, .fill 0 65 100, .fetch noRows, .store, .poll]

theorem executeLimitOrder_exact_shownInTime :
    (callAfter shownInTime).pc = .returned ⟨65, 100, 0⟩ ∧ 65 = total (callAfter shownInTime) := by
  have path : run (step sellOneLot) (start sellOneLot noRows) shownInTime =
      some (callAfter shownInTime) := by decide +kernel
  have returned : (callAfter shownInTime).pc = .returned ⟨65, 100, 0⟩ := by decide +kernel
  have meets : Meets (step sellOneLot) Watchful (start sellOneLot noRows) shownInTime := by
    decide +kernel
  exact ⟨returned, ((executeLimitOrder_exact_iff sellOneLot noRows shownInTime _ path _ returned).mpr
    meets).2⟩

def filledUnseen : List Event :=
  [.place .accepted, .fetch noRows, .store, .poll, .fill 0 65 100, .poll, .deadline,
    .cancel .rejected, .place .accepted, .fill 1 65 100, .fetch noRows, .store, .poll]

theorem executeLimitOrder_sells_twice :
    run (step sellOneLot) (start sellOneLot noRows) filledUnseen = some (callAfter filledUnseen) ∧
    (callAfter filledUnseen).pc = .returned ⟨65, 100, 0⟩ ∧
    (∀ o ∈ (callAfter filledUnseen).orders, o.status = .complete) ∧
    total (callAfter filledUnseen) = 130 := by
  decide +kernel

end AlgoSystem.Proof.CombinedVwap.LimitOrder

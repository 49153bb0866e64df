import AlgoSystem.DoubleStraddle.TimeExit
import AlgoSystem.General.Runs

namespace AlgoSystem.Proof.DoubleStraddle
open AlgoSystem.DoubleStraddle General List

variable {chosen : BookRow → Bool} {status : Status} {row : BookRow} {fetched : Bool}

def own (s : SquareOff) : List Nat := s.buys.map Prod.snd

def HasBuyBack (s : SquareOff) : Recorded → Prop
  | .stopLossFilled _ oid => ∃ row ∈ s.broker, row.orderid = oid ∧ row.status = .complete
  | .boughtBack opt =>
    ∃ oid, (opt, oid) ∈ s.buys ∧ ∃ row ∈ s.broker, row.orderid = oid ∧ row.status.dead = false

structure KeepsBuyBacks (s : SquareOff) : Prop where
  cancels : ∀ oid ∈ s.cancels, oid ∉ own s
  covered : ∀ r ∈ s.recorded, HasBuyBack s r

def Spared (s : SquareOff) (rows : List BookRow) : Prop :=
  ∀ row ∈ rows, row.orderid ∈ own s → s.wanted row = false

/-- Every buy-back is accepted, the book that the sweep reads lists none of them as pending, and
while they are open nobody else cancels or rejects them. -/
def Undisturbed (s : SquareOff) : SquareOffEvent → Prop
  | .advance a =>
    match s.pc with
    | .close _ (.buying _) => (a.placed.any fun placed => !placed.2.dead) = true
    | .refresh =>
      (s.cacheFresh = true → Spared s (s.orderbook.getD [])) ∧
        (s.cacheFresh = false → a.fetched = true → Spared s s.broker)
    | _ => True
  | .update oid status => status.dead = true → oid ∈ own s →
      ∀ row ∈ s.broker, row.orderid = oid → row.status.ended = true
  | _ => True

instance (s : SquareOff) (rows : List BookRow) : Decidable (Spared s rows) := by
  unfold Spared
  infer_instance

instance (s : SquareOff) (e : SquareOffEvent) : Decidable (Undisturbed s e) := by
  cases e with
  | advance a =>
    unfold Undisturbed
    dsimp only
    split <;> infer_instance
  | wait | refresh | update | order | legChanges =>
    unfold Undisturbed
    infer_instance

inductive BrokerMove (old : List BookRow) : List BookRow → Prop where
  | same : BrokerMove old old
  | set (chosen : BookRow → Bool) (status : Status) : BrokerMove old (setStatus old chosen status)
  | add (row : BookRow) (fresh : ∀ other ∈ old, other.orderid ≠ row.orderid) :
      BrokerMove old (old ++ [row])

def Held (oid : Nat) (broker : List BookRow) : Prop :=
  ∃ row ∈ broker, row.orderid = oid ∧ row.variety = .normal ∧
    ∀ other ∈ broker, other.orderid = oid → other = row

def Filled (oid : Nat) (broker : List BookRow) : Prop :=
  ∃ row ∈ broker, row.orderid = oid ∧ row.status = .complete

def Live (oid : Nat) (broker : List BookRow) : Prop :=
  ∀ row ∈ broker, row.orderid = oid → row.status.dead = false

theorem mem_setStatus {rows : List BookRow} {after : BookRow} :
    after ∈ setStatus rows chosen status ↔ ∃ row ∈ rows,
      (if chosen row && !row.status.ended then { row with status } else row) = after :=
  mem_map

theorem changed_orderid (row : BookRow) (changes : Bool) (status : Status) :
    (if changes then { row with status } else row).orderid = row.orderid := by
  cases changes <;> rfl

variable {old new : List BookRow} {oid : Nat}

theorem BrokerMove.held (move : BrokerMove old new) (held : Held oid old) : Held oid new := by
  obtain ⟨row, there, number, normal, only⟩ := held
  cases move with
  | same => exact ⟨row, there, number, normal, only⟩
  | set chosen status =>
    refine ⟨_, mem_setStatus.mpr ⟨row, there, rfl⟩, (changed_orderid _ _ _).trans number, ?_, ?_⟩
    · split <;> exact normal
    · intro other member this
      obtain ⟨before, was, rfl⟩ := mem_setStatus.mp member
      rw [changed_orderid] at this
      rw [only before was this]
  | add new fresh =>
    refine ⟨row, mem_append_left _ there, number, normal, ?_⟩
    intro other member this
    rcases mem_append.mp member with here | here
    · exact only other here this
    · rw [mem_singleton] at here
      exact absurd (number.trans (here ▸ this).symm) (fresh row there)

theorem BrokerMove.filled (move : BrokerMove old new) (filled : Filled oid old) : Filled oid new := by
  obtain ⟨row, there, number, complete⟩ := filled
  cases move with
  | same => exact ⟨row, there, number, complete⟩
  | set chosen status =>
    exact ⟨row, mem_setStatus.mpr ⟨row, there, by simp [complete, Status.ended]⟩, number, complete⟩
  | add => exact ⟨row, mem_append_left _ there, number, complete⟩

theorem live_setStatus_iff :
    Live oid (setStatus old chosen status) ↔ Live oid old ∧ (status.dead = true →
      ∀ row ∈ old, row.orderid = oid → chosen row = true → row.status.ended = true) := by
  have each (row : BookRow) :
      (if chosen row && !row.status.ended then { row with status } else row).status.dead = false ↔
        row.status.dead = false ∧
          (status.dead = true → chosen row = true → row.status.ended = true) := by
    grind [Status.ended]
  simp only [Live, setStatus, forall_mem_map, changed_orderid, each]
  grind

theorem live_snoc_iff (other : row.orderid ≠ oid) : Live oid (old ++ [row]) ↔ Live oid old := by
  simp [Live, or_imp, forall_and, other]

def recordingOf : SquareOffPc → Option Opt
  | .close opt (.recording _) => some opt
  | _ => none

def Needs (s : SquareOff) (opt : Opt) : Prop :=
  .boughtBack opt ∈ s.recorded ∨ recordingOf s.pc = some opt

def rowsLeft : SquareOffPc → List BookRow
  | .sweep rows => rows
  | _ => []

def later : Opt → List Opt
  | .ce => [.pe]
  | .pe => []

def toCome : SquareOffPc → List Opt
  | .begin => .ce :: later .ce
  | .leg opt => opt :: later opt
  | .close opt (.recording _) => later opt
  | .close opt _ => opt :: later opt
  | _ => []

theorem toCome_afterLeg (opt : Opt) : toCome (.afterLeg opt) = later opt := by
  cases opt <;> rfl

theorem recordingOf_afterLeg (opt : Opt) : recordingOf (.afterLeg opt) = none := by
  cases opt <;> rfl

theorem rowsLeft_afterLeg (opt : Opt) : rowsLeft (.afterLeg opt) = [] := by
  cases opt <;> rfl

structure CallInv (s : SquareOff) : Prop where
  needs : ∀ opt oid, (opt, oid) ∈ s.buys → Needs s opt
  ahead : ∀ opt ∈ toCome s.pc, ¬ Needs s opt ∧ s.cancels = []
  once : ∀ opt oid other, (opt, oid) ∈ s.buys → (opt, other) ∈ s.buys → oid = other
  held : ∀ oid ∈ own s, Held oid s.broker
  filled : ∀ opt oid, .stopLossFilled opt oid ∈ s.recorded → Filled oid s.broker

structure Passes (s v : SquareOff) : Prop where
  buys : v.buys = s.buys
  wanted : v.wanted = s.wanted
  needs : ∀ opt, Needs v opt ↔ Needs s opt
  ahead : toCome v.pc ⊆ toCome s.pc
  filled : ∀ opt oid, .stopLossFilled opt oid ∈ v.recorded →
    .stopLossFilled opt oid ∈ s.recorded ∨ Filled oid s.broker

variable {s v : SquareOff} {e : SquareOffEvent}

theorem Passes.own (passes : Passes s v) : own v = own s := by
  rw [DoubleStraddle.own, DoubleStraddle.own, passes.buys]

theorem CallInv.passes (inv : CallInv s) (passes : Passes s v)
    (cancels : toCome v.pc = [] ∨ v.cancels = s.cancels) (broker : BrokerMove s.broker v.broker) :
    CallInv v where
  needs opt oid bought := (passes.needs opt).mpr (inv.needs opt oid (passes.buys ▸ bought))
  ahead opt coming := by
    obtain none | cancels := cancels
    · rw [none] at coming
      cases coming
    · rw [passes.needs, cancels]
      exact inv.ahead opt (passes.ahead coming)
  once := passes.buys ▸ inv.once
  held oid mine := broker.held (inv.held oid (passes.own ▸ mine))
  filled opt oid recorded := by
    obtain old | filled := passes.filled opt oid recorded
    · exact broker.filled (inv.filled opt oid old)
    · exact broker.filled filled

def Unharmed (s v : SquareOff) : Prop :=
  (∀ oid ∈ own s, Live oid v.broker) ∧ (∀ oid ∈ v.cancels, oid ∉ own s) ∧ Spared s (rowsLeft v.pc)

def Safe (s : SquareOff) : Prop :=
  Unharmed s s ∧ ∀ opt, Needs s opt → ∃ oid, (opt, oid) ∈ s.buys

theorem safe_iff_keepsBuyBacks (inv : CallInv s) (returned : s.pc = .returned) :
    Safe s ↔ KeepsBuyBacks s := by
  have needs (opt : Opt) : Needs s opt ↔ .boughtBack opt ∈ s.recorded := by
    simp [Needs, returned, recordingOf]
  constructor
  · rintro ⟨⟨live, cancels, -⟩, backed⟩
    refine ⟨cancels, ?_⟩
    intro r member
    cases r with
    | stopLossFilled opt oid => exact inv.filled opt oid member
    | boughtBack opt =>
      obtain ⟨oid, bought⟩ := backed opt ((needs opt).mpr member)
      have mine : oid ∈ own s := mem_map_of_mem bought
      obtain ⟨row, there, number, -⟩ := inv.held oid mine
      exact ⟨oid, bought, row, there, number, live oid mine row there number⟩
  · rintro ⟨cancels, covered⟩
    refine ⟨⟨?_, cancels, by simp [Spared, returned, rowsLeft]⟩, ?_⟩
    · intro oid mine row there number
      obtain ⟨⟨opt, n⟩, bought, rfl⟩ := mem_map.mp mine
      obtain ⟨m, bought', row', there', number', live⟩ :=
        covered _ ((needs opt).mp (inv.needs opt n bought))
      obtain rfl := inv.once opt n m bought bought'
      obtain ⟨only, -, -, -, same⟩ := inv.held _ mine
      rw [same row there number, ← same row' there' number']
      exact live
    · intro opt needed
      obtain ⟨oid, bought, -⟩ := covered _ ((needs opt).mp needed)
      exact ⟨oid, bought⟩

/-- One step of the call or around it; only an answer to a buy-back gives it an order. -/
inductive CallMove (s : SquareOff) (e : SquareOffEvent) (v : SquareOff) : Prop where
  | passes (passes : Passes s v) (cancels : toCome v.pc = [] ∨ v.cancels = s.cancels)
      (broker : BrokerMove s.broker v.broker)
      (unharmed : Unharmed s v ↔ Unharmed s s ∧ Undisturbed s e)
  | answered {a : BookAnswer} {opt : Opt} {reason : Reason} (event : e = .advance a)
      (before : s.pc = .close opt (.buying reason)) (after : v.pc = .close opt (.recording reason))
      (fresh : ∀ placed ∈ a.placed, ∀ row ∈ s.broker, row.orderid ≠ placed.1)
      (broker : v.broker = s.broker ++
        a.placed.toList.map fun placed => ⟨placed.1, s.tok opt, placed.2, .normal⟩)
      (buys : v.buys = s.buys ++ a.placed.toList.map fun placed => (opt, placed.1))
      (recorded : v.recorded = s.recorded) (cancels : v.cancels = s.cancels)

theorem refreshOrderbook_eq (s : SquareOff) (force fetched : Bool) :
    ∃ book time, s.refreshOrderbook force fetched =
      { s with orderbook := book, lastOrderbook := time } := by
  unfold SquareOff.refreshOrderbook
  split
  · exact ⟨_, _, rfl⟩
  · exact ⟨_, _, rfl⟩

structure Begins (s : SquareOff) : Prop where
  pc : s.pc = .begin
  buys : s.buys = []
  recorded : s.recorded = []
  cancels : s.cancels = []

theorem Begins.callInv (begins : Begins s) : CallInv s := by
  constructor <;>
    simp [begins.buys, begins.recorded, begins.cancels, begins.pc, own, Needs, recordingOf]

theorem Begins.safe (begins : Begins s) : Safe s := by
  simp [Safe, Unharmed, Spared, begins.buys, begins.recorded, begins.cancels, begins.pc, own, Needs,
    recordingOf, rowsLeft]

theorem Passes.goes (buys : v.buys = s.buys) (wanted : v.wanted = s.wanted)
    (recorded : v.recorded = s.recorded) (writes : recordingOf v.pc = recordingOf s.pc)
    (ahead : toCome v.pc ⊆ toCome s.pc) : Passes s v where
  buys := buys
  wanted := wanted
  needs opt := by rw [Needs, Needs, recorded, writes]
  ahead := ahead
  filled opt oid member := .inl (recorded ▸ member)

theorem CallMove.quiet (passes : Passes s v) (cancels : v.cancels = s.cancels)
    (left : rowsLeft v.pc = rowsLeft s.pc) (broker : v.broker = s.broker)
    (undisturbed : Undisturbed s e) : CallMove s e v := by
  refine .passes passes (.inr cancels) (broker ▸ .same) ?_
  rw [Unharmed, broker, cancels, left]
  exact (and_iff_left undisturbed).symm

section Close
variable {a : BookAnswer} {opt : Opt} {phase : Close} {pc : SquareOffPc} {oid : Nat}

theorem fetched_filled (found : (s.refreshOrderbook true fetched).orderStatus oid = some .complete) :
    Filled oid s.broker := by
  cases fetched with
  | false => simp [SquareOff.refreshOrderbook, SquareOff.orderStatus] at found
  | true =>
    simp only [SquareOff.refreshOrderbook, SquareOff.orderStatus, Bool.not_true, Bool.false_and,
      Bool.false_eq_true, if_false, if_true, Option.getD_some, Option.map_eq_some_iff] at found
    obtain ⟨row, found, same⟩ := found
    exact ⟨row, mem_of_find?_eq_some found, by simpa using find?_some found, same⟩

def Opened (pc : SquareOffPc) (opt : Opt) : Prop :=
  recordingOf pc = none ∧ rowsLeft pc = [] ∧ toCome pc = opt :: later opt

theorem Opened.moves (opened : Opened s.pc opt) (goes : Opened v.pc opt ∨ v.pc = .afterLeg opt)
    (buys : v.buys = s.buys) (wanted : v.wanted = s.wanted) (cancels : v.cancels = s.cancels)
    (broker : v.broker = s.broker) (recorded : v.recorded = s.recorded ∨
      ∃ oid, Filled oid s.broker ∧ v.recorded = s.recorded ++ [.stopLossFilled opt oid])
    (undisturbed : Undisturbed s e) : CallMove s e v := by
  obtain ⟨writes, left, ahead⟩ := opened
  have there : recordingOf v.pc = none ∧ rowsLeft v.pc = [] ∧ toCome v.pc ⊆ opt :: later opt := by
    obtain ⟨writes', left', ahead'⟩ | pc := goes
    · exact ⟨writes', left', ahead' ▸ List.Subset.refl _⟩
    · rw [pc, recordingOf_afterLeg, rowsLeft_afterLeg, toCome_afterLeg]
      exact ⟨rfl, rfl, subset_cons_self _ _⟩
  refine .quiet ⟨buys, wanted, ?_, ahead ▸ there.2.2, ?_⟩ cancels (there.2.1.trans left.symm) broker
    undisturbed
  · intro o
    rw [Needs, Needs, there.1, writes]
    obtain same | ⟨oid, -, recorded⟩ := recorded
    · rw [same]
    · simp [recorded]
  · intro o n member
    obtain same | ⟨oid, filled, recorded⟩ := recorded
    · exact .inl (same ▸ member)
    · rw [recorded, mem_append, mem_singleton] at member
      obtain old | new := member
      · exact .inl old
      · cases new
        exact .inr filled

theorem Opened.fetches (opened : Opened s.pc opt) (goes : Opened pc opt ∨ pc = .afterLeg opt)
    (fetched : Bool) (undisturbed : Undisturbed s e) :
    CallMove s e { s.refreshOrderbook true fetched with pc := pc } := by
  obtain ⟨book, time, same⟩ := refreshOrderbook_eq s true fetched
  rw [same]
  exact opened.moves goes rfl rfl rfl rfl (.inl rfl) undisturbed

theorem Opened.fills (opened : Opened s.pc opt)
    (found : (s.refreshOrderbook true fetched).orderStatus oid = some .complete)
    (undisturbed : Undisturbed s e) :
    CallMove s e ((s.refreshOrderbook true fetched).recordStopLoss opt oid) := by
  have filled := fetched_filled found
  obtain ⟨book, time, same⟩ := refreshOrderbook_eq s true fetched
  rw [same]
  exact opened.moves (.inr rfl) rfl rfl rfl rfl (.inr ⟨oid, filled, rfl⟩) undisturbed

theorem closeAdvance_callMove (inv : CallInv s) (here : s.pc = .close opt phase)
    (fresh : ∀ placed ∈ a.placed, ∀ row ∈ s.broker, row.orderid ≠ placed.1) :
    CallMove s (.advance a) (s.closeAdvance a opt phase) := by
  cases phase with
  | start reason =>
    have opened : Opened s.pc opt := here ▸ ⟨rfl, rfl, rfl⟩
    have undisturbed : Undisturbed s (.advance a) := by simp [Undisturbed, here]
    simp only [SquareOff.closeAdvance]
    split
    · exact opened.moves (.inr rfl) rfl rfl rfl rfl (.inl rfl) undisturbed
    · split
      · exact opened.moves (.inl ⟨rfl, rfl, rfl⟩) rfl rfl rfl rfl (.inl rfl) undisturbed
      · split
        · exact opened.fills (by assumption) undisturbed
        all_goals exact opened.fetches (.inl ⟨rfl, rfl, rfl⟩) a.fetched undisturbed
  | cancelling reason oid =>
    have undisturbed : Undisturbed s (.advance a) := by simp [Undisturbed, here]
    refine .passes (.goes rfl rfl rfl (here ▸ rfl) (here ▸ List.Subset.refl _)) (.inr rfl)
      (.set _ _) ?_
    rw [and_iff_left undisturbed, Unharmed, Unharmed, here]
    refine and_congr_left' (forall₂_congr fun n mine => live_setStatus_iff.trans (and_iff_left ?_))
    -- the call's own orders are not of the variety that is cancelled here
    intro _ row there number chosen
    obtain ⟨only, -, -, normal, same⟩ := inv.held n mine
    rw [← same row there number] at normal
    simp [normal, Variety.cancelled] at chosen
  | confirming reason oid =>
    have opened : Opened s.pc opt := here ▸ ⟨rfl, rfl, rfl⟩
    have undisturbed : Undisturbed s (.advance a) := by simp [Undisturbed, here]
    simp only [SquareOff.closeAdvance]
    split
    · exact opened.fills (by assumption) undisturbed
    · exact opened.fetches (.inl ⟨rfl, rfl, rfl⟩) a.fetched undisturbed
    · exact opened.fetches (.inl ⟨rfl, rfl, rfl⟩) a.fetched undisturbed
    · split
      · exact opened.fetches (.inr rfl) a.fetched undisturbed
      · exact opened.fetches (.inl ⟨rfl, rfl, rfl⟩) a.fetched undisturbed
  | buying reason =>
    simp only [SquareOff.closeAdvance]
    split
    · rename_i answer
      exact .answered rfl here rfl fresh (by simp [answer]) (by simp [answer]) rfl rfl
    · rename_i oid status answer
      exact .answered rfl here rfl fresh (by simp [answer, SquareOff.tok]) (by simp [answer]) rfl rfl
  | recording reason =>
    have undisturbed : Undisturbed s (.advance a) := by simp [Undisturbed, here]
    refine .quiet ⟨rfl, rfl, ?_, ?_, ?_⟩ rfl ?_ rfl undisturbed
    · intro o
      show .boughtBack o ∈ s.recorded ++ [.boughtBack opt] ∨ recordingOf (.afterLeg opt) = some o ↔ _
      rw [recordingOf_afterLeg, Needs, here]
      simp [recordingOf, eq_comm]
    · show toCome (.afterLeg opt) ⊆ toCome s.pc
      rw [toCome_afterLeg, here]
      exact List.Subset.refl _
    · intro o n member
      exact .inl (by simpa [SquareOff.closeAdvance, SquareOff.endClose] using member)
    · rw [here]
      exact rowsLeft_afterLeg opt

theorem spared_refresh_iff (s : SquareOff) (fetched : Bool) :
    Spared s ((s.refreshOrderbook false fetched).orderbook.getD []) ↔
      (s.cacheFresh = true → Spared s (s.orderbook.getD [])) ∧
        (s.cacheFresh = false → fetched = true → Spared s s.broker) := by
  unfold SquareOff.refreshOrderbook Spared
  cases fresh : s.cacheFresh <;> cases fetched <;> simp

theorem advance_callMove (inv : CallInv s) (moved : s.advance a = some v) :
    CallMove s (.advance a) v := by
  unfold SquareOff.advance at moved
  split at moved
  · rename_i here
    obtain rfl := Option.some.inj moved
    have undisturbed : Undisturbed s (.advance a) := by simp [Undisturbed, here]
    split
    · exact .quiet (.goes rfl rfl rfl (here ▸ rfl) (here ▸ List.Subset.refl _)) rfl (here ▸ rfl) rfl
        undisturbed
    · exact .quiet (.goes rfl rfl rfl (here ▸ rfl) (nil_subset _)) rfl (here ▸ rfl) rfl undisturbed
  · rename_i opt here
    obtain rfl := Option.some.inj moved
    have opened : Opened s.pc opt := here ▸ ⟨rfl, rfl, rfl⟩
    have undisturbed : Undisturbed s (.advance a) := by simp [Undisturbed, here]
    split
    · exact opened.moves (.inr rfl) rfl rfl rfl rfl (.inl rfl) undisturbed
    · exact opened.moves (.inl ⟨rfl, rfl, rfl⟩) rfl rfl rfl rfl (.inl rfl) undisturbed
  · rename_i opt phase here
    simp only [Option.ite_none_right_eq_some, Option.some.injEq] at moved
    obtain ⟨fresh, rfl⟩ := moved
    apply closeAdvance_callMove inv here
    intro placed accepted row there
    rw [Option.mem_def] at accepted
    simp only [accepted, Option.all_some, all_eq_true, decide_eq_true_eq] at fresh
    exact fresh row there
  · rename_i here
    obtain rfl := Option.some.inj moved
    have spared := spared_refresh_iff s a.fetched
    obtain ⟨book, time, same⟩ := refreshOrderbook_eq s false a.fetched
    rw [same] at spared ⊢
    refine .passes (.goes rfl rfl rfl (here ▸ rfl) (nil_subset _)) (.inl rfl) .same ?_
    have empty : Spared s [] := nofun
    simp only [Unharmed, Undisturbed, here, rowsLeft, ← spared, empty, and_true, and_assoc]
  · rename_i here
    obtain rfl := Option.some.inj moved
    exact .quiet (.goes rfl rfl rfl (here ▸ rfl) (nil_subset _)) rfl (here ▸ rfl) rfl
      (by simp [Undisturbed, here])
  · rename_i row rows here
    obtain rfl := Option.some.inj moved
    have undisturbed : Undisturbed s (.advance a) := by simp [Undisturbed, here]
    have spared : Spared s (row :: rows) ↔
        (row.orderid ∈ own s → s.wanted row = false) ∧ Spared s rows := forall_mem_cons
    unfold SquareOff.sweepRow
    split
    · rename_i wanted
      refine .passes (.goes rfl rfl rfl (here ▸ rfl) (nil_subset _)) (.inl rfl) (.set _ _) ?_
      rw [and_iff_left undisturbed]
      simp only [Unharmed, here, rowsLeft, spared, wanted, Bool.true_eq_false, imp_false,
        SquareOff.cancel, mem_append, mem_singleton, or_imp, forall_and, forall_eq, live_setStatus_iff]
      grind
    · rename_i unwanted
      refine .passes (.goes rfl rfl rfl (here ▸ rfl) (nil_subset _)) (.inl rfl) .same ?_
      rw [and_iff_left undisturbed]
      simp only [Unharmed, here, rowsLeft, spared, Bool.not_eq_true] at unwanted ⊢
      simp only [unwanted, implies_true, true_and]
  · cases moved

end Close

theorem step_callMove (inv : CallInv s) (moved : squareOffStep s e = some v) : CallMove s e v := by
  cases e with
  | advance a => exact advance_callMove inv moved
  | wait seconds =>
    simp only [squareOffStep, Option.ite_none_right_eq_some, Option.some.injEq] at moved
    obtain ⟨-, rfl⟩ := moved
    exact .quiet (.goes rfl rfl rfl rfl (List.Subset.refl _)) rfl rfl rfl trivial
  | refresh force fetched =>
    cases moved
    obtain ⟨book, time, same⟩ := refreshOrderbook_eq s force fetched
    rw [same]
    exact .quiet (.goes rfl rfl rfl rfl (List.Subset.refl _)) rfl rfl rfl trivial
  | update oid status =>
    cases moved
    refine .passes (.goes rfl rfl rfl rfl (List.Subset.refl _)) (.inr rfl) (.set _ _) ?_
    simp only [Unharmed, live_setStatus_iff, Undisturbed, decide_eq_true_eq]
    grind
  | order row =>
    simp only [squareOffStep, Option.ite_none_right_eq_some, Option.some.injEq] at moved
    obtain ⟨fresh, rfl⟩ := moved
    simp only [all_eq_true, decide_eq_true_eq] at fresh
    refine .passes (.goes rfl rfl rfl rfl (List.Subset.refl _)) (.inr rfl) (.add row fresh) ?_
    rw [and_iff_left (show Undisturbed s (.order row) from trivial)]
    refine and_congr_left' (forall₂_congr fun n mine => live_snoc_iff ?_)
    obtain ⟨known, there, rfl, -⟩ := inv.held n mine
    exact (fresh known there).symm
  | legChanges opt leg =>
    simp only [squareOffStep, Option.ite_none_left_eq_some, Option.some.injEq] at moved
    obtain ⟨-, rfl⟩ := moved
    exact .quiet (.goes rfl rfl rfl rfl (List.Subset.refl _)) rfl rfl rfl trivial

section Answered
variable {a : BookAnswer} {opt : Opt} {reason : Reason}

theorem CallInv.buying (inv : CallInv s) (before : s.pc = .close opt (.buying reason)) :
    (∀ o ∈ opt :: later opt, ¬ Needs s o ∧ s.cancels = []) ∧ ∀ n, (opt, n) ∉ s.buys := by
  have ahead := inv.ahead
  rw [before] at ahead
  refine ⟨ahead, ?_⟩
  intro n bought
  exact (ahead opt mem_cons_self).1 (inv.needs opt n bought)

theorem needs_recording (before : s.pc = .close opt (.buying reason))
    (after : v.pc = .close opt (.recording reason)) (recorded : v.recorded = s.recorded) (o : Opt) :
    Needs v o ↔ Needs s o ∨ o = opt := by
  simp [Needs, before, after, recorded, recordingOf, eq_comm]

theorem held_snoc (fresh : ∀ other ∈ old, other.orderid ≠ row.orderid)
    (normal : row.variety = .normal) : Held row.orderid (old ++ [row]) := by
  refine ⟨row, by simp, rfl, normal, ?_⟩
  intro other member number
  obtain there | new := mem_append.mp member
  · exact absurd number (fresh other there)
  · exact mem_singleton.mp new

theorem live_snoc_self_iff (fresh : ∀ other ∈ old, other.orderid ≠ row.orderid) :
    Live row.orderid (old ++ [row]) ↔ row.status.dead = false := by
  simp +contextual [Live, or_imp, fresh]

end Answered

theorem CallMove.callInv (move : CallMove s e v) (inv : CallInv s) : CallInv v := by
  cases move with
  | passes passes cancels broker => exact inv.passes passes cancels broker
  | @answered a opt reason event before after fresh broker buys recorded cancels =>
    have needs := needs_recording before after recorded
    obtain ⟨ahead, unbought⟩ := inv.buying before
    have coming : ∀ o ∈ toCome v.pc, ¬ Needs v o ∧ v.cancels = [] := by
      intro o coming
      rw [after] at coming
      obtain ⟨unneeded, none⟩ := ahead o (mem_cons_of_mem _ coming)
      refine ⟨?_, cancels.trans none⟩
      rw [needs]
      rintro (needed | rfl)
      · exact unneeded needed
      · cases o <;> simp [toCome, later] at coming
    cases answer : a.placed with
    | none =>
      rw [answer, Option.toList_none, map_nil, append_nil] at broker buys
      refine ⟨?_, coming, buys ▸ inv.once, ?_, ?_⟩
      · intro o n bought
        exact (needs o).mpr (.inl (inv.needs o n (buys ▸ bought)))
      · rw [own, buys, broker]
        exact inv.held
      · rw [recorded, broker]
        exact inv.filled
    | some order =>
      rw [answer, Option.toList_some, map_singleton] at broker buys
      have new : ∀ row ∈ s.broker, row.orderid ≠ order.1 := fresh order answer
      have move : BrokerMove s.broker v.broker := broker ▸ .add _ new
      refine ⟨?_, coming, ?_, ?_, ?_⟩
      · intro o n bought
        rw [needs]
        rw [buys, mem_append, mem_singleton] at bought
        obtain old | new := bought
        · exact .inl (inv.needs o n old)
        · cases new
          exact .inr rfl
      · intro o n m bought bought'
        simp only [buys, mem_append, mem_singleton, Prod.mk.injEq] at bought bought'
        grind [inv.once o n m]
      · intro n mine
        simp only [own, buys, map_append, map_cons, map_nil, mem_append, mem_singleton] at mine
        obtain old | rfl := mine
        · exact move.held (inv.held n old)
        · rw [broker]
          exact held_snoc new rfl
      · intro o n filled
        exact move.filled (inv.filled o n (recorded ▸ filled))

theorem CallMove.safe_iff (move : CallMove s e v) (inv : CallInv s) :
    Safe v ↔ Safe s ∧ Undisturbed s e := by
  cases move with
  | passes passes _ _ unharmed =>
    have same : Unharmed v v ↔ Unharmed s v := by
      rw [Unharmed, Unharmed, Spared, Spared, passes.own, passes.wanted]
    simp only [Safe, same, unharmed, passes.needs, passes.buys]
    exact and_right_comm
  | @answered a opt reason event before after fresh broker buys recorded cancels =>
    subst event
    have needs := needs_recording before after recorded
    obtain ⟨ahead, unbought⟩ := inv.buying before
    obtain ⟨unneeded, none⟩ := ahead opt mem_cons_self
    cases answer : a.placed with
    | none =>
      refine iff_of_false ?_ (by simp [Undisturbed, before, answer])
      rintro ⟨-, backed⟩
      obtain ⟨n, bought⟩ := backed opt ((needs opt).mpr (.inr rfl))
      rw [buys, answer, Option.toList_none, map_nil, append_nil] at bought
      exact unbought n bought
    | some order =>
      rw [answer, Option.toList_some, map_singleton] at broker buys
      have new : ∀ row ∈ s.broker, row.orderid ≠ order.1 := fresh order answer
      have live : (∀ n ∈ own v, Live n v.broker) ↔
          (∀ n ∈ own s, Live n s.broker) ∧ order.2.dead = false := by
        simp only [own, buys, broker, map_append, map_singleton, mem_append, mem_singleton, or_imp,
          forall_and, forall_eq]
        refine and_congr (forall₂_congr fun n mine => live_snoc_iff ?_) (live_snoc_self_iff new)
        obtain ⟨known, there, rfl, -⟩ := inv.held n mine
        exact (new known there).symm
      have backed : (∀ o, Needs v o → ∃ n, (o, n) ∈ v.buys) ↔
          ∀ o, Needs s o → ∃ n, (o, n) ∈ s.buys := by
        simp only [needs, buys, mem_append, mem_singleton, Prod.mk.injEq]
        grind
      have undisturbed : Undisturbed s (.advance a) ↔ order.2.dead = false := by
        simp [Undisturbed, before, answer]
      simp only [Safe, Unharmed, live, backed, undisturbed, cancels, none, before, after, rowsLeft,
        Spared, not_mem_nil, false_implies, implies_true, and_true]
      exact and_right_comm

theorem keepsBuyBacks_iff_undisturbed {s t : SquareOff} {events : List SquareOffEvent}
    (begins : Begins s) (path : run squareOffStep s events = some t) (returned : t.pc = .returned) :
    KeepsBuyBacks t ↔ Meets squareOffStep Undisturbed s events := by
  have keeps : ∀ s e t, CallInv s → squareOffStep s e = some t → CallInv t :=
    fun s e t inv moved => (step_callMove inv moved).callInv inv
  have start : CallInv s := begins.callInv
  rw [← safe_iff_keepsBuyBacks (run_invariant keeps path start) returned,
    run_property_iff keeps (fun s e t inv moved => (step_callMove inv moved).safe_iff inv) path start]
  exact and_iff_right begins.safe

def callAfter (s : SquareOff) (events : List SquareOffEvent) : SquareOff :=
  (run squareOffStep s events).getD s

def putUnprotected : SquareOff where
  session := some ⟨{ entry := some 100, slOid := some 1 }, { entry := some 90 }⟩
  ceTok := 11
  peTok := 12
  broker := [⟨1, 11, .triggerPending, .stoploss⟩, ⟨2, 12, .opened, .normal⟩]
  orderbook := some []
  lastOrderbook := 0
  clock := 100

def putUnprotectedCall : List SquareOffEvent :=
  [.advance {}, .advance {}, .advance {}, .advance {}, .advance {},
    .advance { placed := some (3, .opened) }, .advance {},
    .advance {}, .advance {}, .advance { placed := some (4, .opened) }, .advance {}, .wait (4 / 5),
    .advance {}, .advance {}, .advance {}, .advance {}]

theorem keepsBuyBacks_putUnprotected :
    KeepsBuyBacks (callAfter putUnprotected putUnprotectedCall) ∧
      (callAfter putUnprotected putUnprotectedCall).pc = .returned ∧
      (callAfter putUnprotected putUnprotectedCall).recorded = [.boughtBack .ce, .boughtBack .pe] ∧
      (callAfter putUnprotected putUnprotectedCall).cancels = [2] := by
  have path : run squareOffStep putUnprotected putUnprotectedCall =
      some (callAfter putUnprotected putUnprotectedCall) := by decide +kernel
  have undisturbed : Meets squareOffStep Undisturbed putUnprotected putUnprotectedCall := by
    decide +kernel
  have returned : (callAfter putUnprotected putUnprotectedCall).pc = .returned := by
    decide +kernel
  exact ⟨(keepsBuyBacks_iff_undisturbed ⟨rfl, rfl, rfl, rfl⟩ path returned).mpr undisturbed,
    returned, by decide +kernel, by decide +kernel⟩

def bothProtected : SquareOff where
  session := some ⟨{ entry := some 100, slOid := some 1 }, { entry := some 90, slOid := some 2 }⟩
  ceTok := 11
  peTok := 12
  broker := [⟨1, 11, .triggerPending, .stoploss⟩, ⟨2, 12, .triggerPending, .stoploss⟩]
  orderbook := some []
  lastOrderbook := 0
  clock := 100

/-- The book that is fetched for the put's stop-loss lists the call's buy-back, and the sweep reads
that book from the cache. -/
def bothProtectedCall : List SquareOffEvent :=
  [.advance {}, .advance {}, .advance {}, .advance {}, .advance {},
    .advance { placed := some (3, .opened) }, .advance {},
    .advance {}, .advance {}, .advance {}, .advance {}, .advance { placed := some (4, .opened) },
    .advance {}, .wait (4 / 5), .advance {}, .advance {}, .advance {}, .advance {}, .advance {}]

theorem buyBack_swept_bothProtected :
    run squareOffStep bothProtected bothProtectedCall =
      some (callAfter bothProtected bothProtectedCall) ∧
    (callAfter bothProtected bothProtectedCall).pc = .returned ∧
    (.ce, 3) ∈ (callAfter bothProtected bothProtectedCall).buys ∧
    3 ∈ (callAfter bothProtected bothProtectedCall).cancels ∧
    ((callAfter bothProtected bothProtectedCall).leg .ce).done = true ∧
    .boughtBack .ce ∈ (callAfter bothProtected bothProtectedCall).recorded ∧
    ¬ HasBuyBack (callAfter bothProtected bothProtectedCall) (.boughtBack .ce) := by
  have buys : (callAfter bothProtected bothProtectedCall).buys = [(.ce, 3), (.pe, 4)] := by
    decide +kernel
  have broker : (callAfter bothProtected bothProtectedCall).broker =
      [⟨1, 11, .cancelled, .stoploss⟩, ⟨2, 12, .cancelled, .stoploss⟩,
        ⟨3, 11, .cancelled, .normal⟩, ⟨4, 12, .opened, .normal⟩] := by
    decide +kernel
  refine ⟨by decide +kernel, by decide +kernel, by simp [buys], by decide +kernel,
    by decide +kernel, by decide +kernel, ?_⟩
  rintro ⟨oid, bought, row, there, rfl, live⟩
  rw [buys] at bought
  simp only [broker, mem_cons, not_mem_nil, or_false] at there
  rcases there with rfl | rfl | rfl | rfl <;> simp [Status.dead] at bought live

end AlgoSystem.Proof.DoubleStraddle

import AlgoSystem.Proof.MarketData.StraddlePulse

namespace AlgoSystem.Proof.MarketData.OiSnapshots
open General AlgoSystem.MarketData AlgoSystem.MarketData.StraddlePulse List
open Proof.MarketData.StraddlePulse

section Rows
variable (settings : Settings) (session : DailySession) (expiry : Int) (atm : AtmLock)

def OfSession (row : OISnapshot) : Prop :=
  row.underlying = session.underlying ∧ row.expiryDate = expiry ∧
    row.tradingDate = session.tradingDate

instance (row : OISnapshot) : Decidable (OfSession session expiry row) :=
  inferInstanceAs (Decidable (_ ∧ _))

def rowsOf (db : Db) : List OISnapshot :=
  db.oiSnapshots.filter fun row => OfSession session expiry row

def windowTotal (call : Call) (optionType : OptionType) : Int :=
  oiTotal settings call session.underlying expiry optionType
    (sessionWindow settings call.master session.underlying expiry atm)

structure Recorded (calls : List Call) (rows : List OISnapshot) : Prop where
  ordered : rows.Pairwise fun a b => a.timestamp < b.timestamp
  taken : ∀ call ∈ calls, ∃ row ∈ rows, row.timestamp = minuteStart call.utcNow
  totals : ∀ row ∈ rows, ∃ call,
    calls.find? (fun call => minuteStart call.utcNow = row.timestamp) = some call ∧
      row.callOiTotal = windowTotal settings session expiry atm call .ce ∧
      row.putOiTotal = windowTotal settings session expiry atm call .pe
  changes : ∀ first, rows.head? = some first → ∀ row ∈ rows,
    row.callOiChange = row.callOiTotal - first.callOiTotal ∧
      row.putOiChange = row.putOiTotal - first.putOiTotal

def newRow (db : Db) (call : Call) : OISnapshot :=
  snapshotRow db session expiry (minuteStart call.utcNow)
    (windowTotal settings session expiry atm call .ce)
    (windowTotal settings session expiry atm call .pe)

end Rows

variable {settings : Settings} {db : Db} {session : DailySession} {cycle : ExpiryCycle}
  {atm : AtmLock}

theorem once {rows : List OISnapshot}
    (ordered : rows.Pairwise fun a b => a.timestamp < b.timestamp) :
    (rows.map OISnapshot.timestamp).Nodup := by
  refine pairwise_map.mpr (ordered.imp ?_)
  intro a b before
  exact before.ne

theorem filter_minute (session : DailySession) (expiry ts : Int) (db : Db) :
    (db.oiSnapshots.filter fun row => row.underlying = session.underlying ∧
      row.expiryDate = expiry ∧ row.tradingDate = session.tradingDate ∧ row.timestamp = ts) =
    (rowsOf session expiry db).filter fun row => row.timestamp = ts := by
  rw [rowsOf, filter_filter]
  refine filter_congr fun row _ => ?_
  rw [Bool.eq_iff_iff, Bool.and_eq_true, decide_eq_true_iff, decide_eq_true_iff, decide_eq_true_iff,
    OfSession]
  tauto

theorem newRow_changes (settings : Settings) (atm : AtmLock) {expiry : Int} (call : Call)
    (ordered : (rowsOf session expiry db).Pairwise fun a b => a.timestamp < b.timestamp) :
    let row := newRow settings session expiry atm db call
    let first := (rowsOf session expiry db).head?.getD row
    row.callOiChange = row.callOiTotal - first.callOiTotal ∧
      row.putOiChange = row.putOiTotal - first.putOiTotal := by
  have sorted : (db.oiSnapshots.filter fun row => row.underlying = session.underlying ∧
      row.expiryDate = expiry ∧ row.tradingDate = session.tradingDate).insertionSort
        (fun a b => a.timestamp ≤ b.timestamp) = rowsOf session expiry db :=
    (ordered.imp fun before => before.le).insertionSort_eq
  simp only [newRow, snapshotRow, sorted]
  cases (rowsOf session expiry db).head? <;> exact ⟨rfl, rfl⟩

theorem snapshot_cases (settings : Settings) (locked : session.status = .locked atm)
    (found : cycleOf db session = some cycle)
    (ordered : (rowsOf session cycle.expiryDate db).Pairwise fun a b => a.timestamp < b.timestamp)
    (call : Call) :
    (snapshot settings db session call).1 = db ∧
        (∃ row ∈ rowsOf session cycle.expiryDate db, row.timestamp = minuteStart call.utcNow) ∨
      (snapshot settings db session call).1 = { db with
          oiSnapshots := db.oiSnapshots ++
            [newRow settings session cycle.expiryDate atm db call] } ∧
        ∀ row ∈ rowsOf session cycle.expiryDate db, row.timestamp ≠ minuteStart call.utcNow := by
  simp only [snapshot, locked, found, filter_minute]
  obtain ⟨none, looked⟩ | ⟨row, single, looked⟩ | ⟨twice, -⟩ :=
    scalarOneOrNone_cases ((rowsOf session cycle.expiryDate db).filter fun row =>
      row.timestamp = minuteStart call.utcNow)
  · right
    simp only [looked]
    exact ⟨rfl, by simpa [filter_eq_nil_iff] using none⟩
  · left
    simp only [looked, true_and]
    have mem := mem_filter.mp (single ▸ mem_singleton_self row)
    exact ⟨row, mem.1, of_decide_eq_true mem.2⟩
  · have atMost : ((rowsOf session cycle.expiryDate db).filter fun row =>
        row.timestamp = minuteStart call.utcNow).length ≤ 1 := by
      refine filter_length_le_one (once ordered) ?_
      intro a _ b _ atA atB
      exact (of_decide_eq_true atA).trans (of_decide_eq_true atB).symm
    omega

section Call
variable {expiry : Int} {calls : List Call} {rows : List OISnapshot} {call : Call}
  (recorded : Recorded settings session expiry atm calls rows)
include recorded

theorem Recorded.again (already : ∃ row ∈ rows, row.timestamp = minuteStart call.utcNow) :
    Recorded settings session expiry atm (calls ++ [call]) rows where
  ordered := recorded.ordered
  taken := by
    intro c mem
    rcases mem_append.mp mem with before | new
    · exact recorded.taken c before
    · exact mem_singleton.mp new ▸ already
  totals := by
    intro row mem
    obtain ⟨first, found, totals⟩ := recorded.totals row mem
    exact ⟨first, by rw [find?_append, found, Option.some_or], totals⟩
  changes := recorded.changes

theorem Recorded.le_minute (later : ∀ c ∈ calls, c.utcNow ≤ call.utcNow) (row : OISnapshot)
    (mem : row ∈ rows) : row.timestamp ≤ minuteStart call.utcNow := by
  obtain ⟨first, found, -⟩ := recorded.totals row mem
  have same : minuteStart first.utcNow = row.timestamp := by simpa using find?_some found
  have before := later first (mem_of_find?_eq_some found)
  rw [← same]
  simp only [minuteStart, oneMinute]
  omega

theorem Recorded.append (all : rowsOf session expiry db = rows)
    (later : ∀ c ∈ calls, c.utcNow ≤ call.utcNow)
    (fresh : ∀ row ∈ rows, row.timestamp ≠ minuteStart call.utcNow) :
    Recorded settings session expiry atm (calls ++ [call])
      (rows ++ [newRow settings session expiry atm db call]) where
  ordered := by
    refine pairwise_append.mpr ⟨recorded.ordered, pairwise_singleton _ _, ?_⟩
    intro row mem new isNew
    rw [mem_singleton.mp isNew]
    exact lt_of_le_of_ne (recorded.le_minute later row mem) (fresh row mem)
  taken := by
    intro c mem
    rcases mem_append.mp mem with before | new
    · obtain ⟨row, member, same⟩ := recorded.taken c before
      exact ⟨row, mem_append_left _ member, same⟩
    · exact ⟨_, mem_append_right _ (mem_singleton_self _),
        congrArg _ (congrArg _ (mem_singleton.mp new).symm)⟩
  totals := by
    intro row mem
    rcases mem_append.mp mem with old | new
    · obtain ⟨first, found, totals⟩ := recorded.totals row old
      exact ⟨first, by rw [find?_append, found, Option.some_or], totals⟩
    · -- a call of this minute before would have left a row
      have none : calls.find? (fun c => minuteStart c.utcNow = minuteStart call.utcNow) = none := by
        refine find?_eq_none.mpr fun c mem => ?_
        obtain ⟨row, member, same⟩ := recorded.taken c mem
        simpa [← same] using fresh row member
      rw [mem_singleton.mp new]
      have found : (calls ++ [call]).find?
          (fun c => minuteStart c.utcNow = minuteStart call.utcNow) = some call := by
        rw [find?_append, none]
        simp
      exact ⟨call, found, rfl, rfl⟩
  changes := by
    have changes := newRow_changes settings atm call (all ▸ recorded.ordered)
    rw [all] at changes
    cases rows with
    | nil =>
      rintro _ ⟨⟩ row mem
      rw [mem_singleton.mp mem]
      exact changes
    | cons first rows =>
      rintro _ ⟨⟩ row mem
      rcases mem_append.mp mem with old | new
      · exact recorded.changes first rfl row old
      · rw [mem_singleton.mp new]
        exact changes

end Call

theorem recorded_nil {expiry : Int} : Recorded settings session expiry atm [] [] where
  ordered := .nil
  taken := by simp
  totals := by simp
  changes := by simp

def takeAll (settings : Settings) (session : DailySession) (db : Db) (calls : List Call) : Db :=
  calls.foldl (fun db call => (snapshot settings db session call).1) db

theorem takeAll_snoc (db : Db) (calls : List Call) (call : Call) :
    takeAll settings session db (calls ++ [call]) =
      (snapshot settings (takeAll settings session db calls) session call).1 := by
  simp [takeAll]

theorem snapshot_grows (settings : Settings) (session : DailySession) (db : Db) (call : Call) :
    (snapshot settings db session call).1.cycles = db.cycles ∧
      db.oiSnapshots <+: (snapshot settings db session call).1.oiSnapshots := by
  have taken := snapshot_taken settings db call session
  generalize snapshot settings db session call = out at taken ⊢
  cases taken with
  | taken fresh => exact ⟨rfl, prefix_append _ _⟩
  | _ => exact ⟨rfl, prefix_rfl⟩

theorem takeAll_grows (db : Db) (calls : List Call) :
    (takeAll settings session db calls).cycles = db.cycles ∧
      db.oiSnapshots <+: (takeAll settings session db calls).oiSnapshots := by
  induction calls generalizing db with
  | nil => exact ⟨rfl, prefix_rfl⟩
  | cons call calls ih =>
    obtain ⟨cycles, grows⟩ := snapshot_grows settings session db call
    obtain ⟨cycles', grows'⟩ := ih (snapshot settings db session call).1
    exact ⟨cycles'.trans cycles, grows.trans grows'⟩

theorem takeAll_recorded (settings : Settings) (locked : session.status = .locked atm)
    (found : cycleOf db session = some cycle)
    (empty : rowsOf session cycle.expiryDate db = []) {calls : List Call}
    (inOrder : calls.Pairwise fun a b => a.utcNow ≤ b.utcNow) :
    Recorded settings session cycle.expiryDate atm calls
      (rowsOf session cycle.expiryDate (takeAll settings session db calls)) := by
  induction calls using List.reverseRecOn with
  | nil => exact empty.symm ▸ recorded_nil
  | append_singleton calls call ih =>
    obtain ⟨before, -, later⟩ := pairwise_append.mp inOrder
    have recorded := ih before
    have found' : cycleOf (takeAll settings session db calls) session = some cycle := by
      rw [cycleOf, (takeAll_grows db calls).1]
      exact found
    rw [takeAll_snoc]
    obtain ⟨same, already⟩ | ⟨grown, fresh⟩ :=
      snapshot_cases settings locked found' recorded.ordered call
    · rw [same]
      exact recorded.again already
    · have rows : rowsOf session cycle.expiryDate
          (snapshot settings (takeAll settings session db calls) session call).1 =
          rowsOf session cycle.expiryDate (takeAll settings session db calls) ++
            [newRow settings session cycle.expiryDate atm
              (takeAll settings session db calls) call] := by
        rw [grown, rowsOf, filter_append]
        simp [rowsOf, OfSession, newRow, snapshotRow]
      rw [rows]
      exact recorded.append rfl (fun c mem => later c mem call (mem_singleton_self _)) fresh

/-- The calls of a session leave at most one row for a minute, with the totals at its first call and
the changes since the first row. -/
theorem snapshots_of_session (settings : Settings) (cycle : ExpiryCycle) {calls : List Call}
    (locked : session.status = .locked atm) (found : cycleOf db session = some cycle)
    (empty : rowsOf session cycle.expiryDate db = [])
    (inOrder : calls.Pairwise fun a b => a.utcNow ≤ b.utcNow) :
    let rows := rowsOf session cycle.expiryDate (takeAll settings session db calls)
    Recorded settings session cycle.expiryDate atm calls rows ∧
      (rows.map OISnapshot.timestamp).Nodup ∧
      (∀ first, rows.head? = some first → first.callOiChange = 0 ∧ first.putOiChange = 0) ∧
      ∀ before after, calls = before ++ after →
        (takeAll settings session db before).oiSnapshots <+:
          (takeAll settings session db calls).oiSnapshots := by
  have recorded := takeAll_recorded settings locked found empty inOrder
  refine ⟨recorded, once recorded.ordered, ?_, ?_⟩
  · intro first head
    obtain ⟨callChange, putChange⟩ :=
      recorded.changes first head first (mem_of_mem_head? head)
    exact ⟨callChange.trans (sub_self _), putChange.trans (sub_self _)⟩
  · rintro before after rfl
    rw [takeAll, takeAll, foldl_append]
    exact (takeAll_grows _ after).2

section Cases

def thursday : ExpiryCycle where
  id := 1
  underlying := .nifty
  exchange := .nfo
  expiryDate := 20006
  cycleStartDate := 20000
  cycleEndDate := 20006

def lockedSession : DailySession where
  id := 1
  cycleId := 1
  underlying := .nifty
  tradingDate := 20003
  status := .locked ⟨152, 150, "CE", "PE", none, none⟩

def snapshotAt (seconds oi : Int) : Call where
  underlying := .nifty
  now := seconds * 1000000
  master := ⟨[100, 150, 200, 250].map fun strike => ⟨"CE", .nfo, "NIFTY", 20006, strike, .ce, none⟩⟩
  candles := []
  contractIds := .empty
  openInterest _ := some oi
  utcNow := seconds * 1000000

def oneStrike : Settings where
  strikeRange _ := 1
  formats := { isoformat := fun _ => "", strike := fun _ => "" }

theorem snapshots_two_minutes :
    let calls := [snapshotAt 5 10, snapshotAt 40 11, snapshotAt 70 14]
    let rows := rowsOf lockedSession 20006
      (takeAll oneStrike lockedSession { cycles := [thursday] } calls)
    rows.map (fun row => (row.timestamp, row.callOiTotal, row.callOiChange)) =
      [(0, 30, 0), (60000000, 42, 12)] ∧
    Recorded oneStrike lockedSession 20006 ⟨152, 150, "CE", "PE", none, none⟩ calls rows :=
  ⟨by decide +kernel,
    (snapshots_of_session oneStrike thursday rfl rfl rfl (by decide)).1⟩

end Cases

end AlgoSystem.Proof.MarketData.OiSnapshots

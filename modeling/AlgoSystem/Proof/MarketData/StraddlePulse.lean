import AlgoSystem.General.Sorted
import AlgoSystem.MarketData.StraddlePulse
import Mathlib.Logic.Relation

namespace AlgoSystem.Proof.MarketData.StraddlePulse
open AlgoSystem.MarketData AlgoSystem.MarketData.StraddlePulse General List

variable {day e : Int} {out : Outcome Advanced} {db' : Db} {c cycle : ExpiryCycle}
  {s : DailySession}

theorem scalarOneOrNone_cases {α : Type} (rows : List α) :
    rows = [] ∧ scalarOneOrNone rows = .ok none ∨
      (∃ row, rows = [row] ∧ scalarOneOrNone rows = .ok (some row)) ∨
      2 ≤ rows.length ∧ scalarOneOrNone rows = .error .multipleResultsFound := by
  match rows with
  | [] => exact .inl ⟨rfl, rfl⟩
  | [row] => exact .inr (.inl ⟨row, rfl, rfl⟩)
  | _ :: _ :: _ => exact .inr (.inr ⟨by simp, rfl⟩)

theorem scalarOneOrNone_filter {α : Type} (rows : List α) (p : α → Prop) [DecidablePred p] :
    (∀ row ∈ rows, ¬ p row) ∧ scalarOneOrNone (rows.filter p) = .ok none ∨
      (∃ row ∈ rows, p row ∧ scalarOneOrNone (rows.filter p) = .ok (some row)) ∨
      2 ≤ (rows.filter p).length ∧
        scalarOneOrNone (rows.filter p) = .error .multipleResultsFound := by
  obtain ⟨none_found, looked⟩ | ⟨row, one, looked⟩ | twice := scalarOneOrNone_cases (rows.filter p)
  · exact .inl ⟨by simpa [filter_eq_nil_iff] using none_found, looked⟩
  · have mem : row ∈ rows.filter p := one ▸ mem_singleton_self row
    obtain ⟨member, passes⟩ := mem_filter.mp mem
    exact .inr (.inl ⟨row, member, of_decide_eq_true passes, looked⟩)
  · exact .inr (.inr twice)

def IsNearest (expiries : List Int) (day e : Int) : Prop :=
  e ∈ expiries ∧ day ≤ e ∧ ∀ x ∈ expiries, day ≤ x → e ≤ x

theorem IsNearest.unique {expiries : List Int} {e' : Int} (nearest : IsNearest expiries day e)
    (nearest' : IsNearest expiries day e') : e = e' := by
  have le := nearest.2.2 e' nearest'.1 nearest'.2.1
  have ge := nearest'.2.2 e nearest.1 nearest.2.1
  omega

theorem isNearest_iff_head? {expiries : List Int} :
    ((expiries.filter (day ≤ ·)).insertionSort (· ≤ ·)).head? = some e ↔
      IsNearest expiries day e := by
  rw [head?_insertionSort_eq_some]
  simp [IsNearest, and_assoc]

theorem cycleStart_cases (expiries : List Int) (e : Int) :
    (∀ x ∈ expiries, e ≤ x) ∧ cycleStart expiries e = e ∨
      ∃ x ∈ expiries, x < e ∧ (∀ y ∈ expiries, y < e → y ≤ x) ∧ cycleStart expiries e = x + 1 := by
  unfold cycleStart
  cases last : ((expiries.filter (· < e)).insertionSort (· ≤ ·)).getLast? with
  | some x =>
    obtain ⟨member, greatest⟩ := getLast?_insertionSort_eq_some.mp last
    obtain ⟨listed, earlier⟩ := mem_filter.mp member
    refine .inr ⟨x, listed, by simpa using earlier, ?_, rfl⟩
    intro y other before
    exact greatest y (mem_filter.mpr ⟨other, by simpa using before⟩)
  | none =>
    refine .inl ⟨?_, rfl⟩
    intro x listed
    by_contra before
    have mem : x ∈ (expiries.filter (· < e)).insertionSort (· ≤ ·) := by
      simpa [mem_insertionSort, listed] using before
    rw [getLast?_eq_none_iff.mp last] at mem
    cases mem

theorem cycleStart_le (expiries : List Int) (e : Int) : cycleStart expiries e ≤ e := by
  obtain ⟨_, start⟩ | ⟨x, _, before, _, start⟩ := cycleStart_cases expiries e <;> omega

variable (settings : Settings) (db : Db) (call : Call)

def past : Db := completePastCycles db call.underlying (today settings call)

def Listed (e : Int) : Prop := IsNearest (expiries call) (today settings call) e

inductive CycleOpened : Outcome (Option ExpiryCycle) → Prop
  | unlisted (none_listed : ∀ x ∈ expiries call, x < today settings call) :
      CycleOpened (past settings db call, .ok none)
  | existing {e : Int} {c : ExpiryCycle} (listed : Listed settings call e)
      (found : c ∈ (past settings db call).cycles) (own : c.underlying = call.underlying)
      (expiry : c.expiryDate = e) :
      CycleOpened (past settings db call, .ok (some c))
  | created {e : Int} (listed : Listed settings call e)
      (fresh : ∀ c ∈ (past settings db call).cycles, c.underlying = call.underlying →
        c.expiryDate ≠ e ∧ c.status ≠ .active) :
      CycleOpened
        ({ past settings db call with
            cycles := (past settings db call).cycles ++
              [newCycle (past settings db call) call.underlying (expiries call) e] },
          .ok (some (newCycle (past settings db call) call.underlying (expiries call) e)))
  | refused {e : Int} {c : ExpiryCycle} (listed : Listed settings call e)
      (fresh : ∀ c ∈ (past settings db call).cycles, c.underlying = call.underlying →
        c.expiryDate ≠ e)
      (other : c ∈ (past settings db call).cycles) (own : c.underlying = call.underlying)
      (active : c.status = .active) :
      CycleOpened (past settings db call, .error .integrityError)
  | ambiguous {e : Int} (twice : 2 ≤ ((past settings db call).cycles.filter fun c =>
      c.underlying = call.underlying ∧ c.expiryDate = e).length) :
    CycleOpened (past settings db call, .error .multipleResultsFound)

theorem openCycle_opened : CycleOpened settings db call (openCycle settings db call) := by
  unfold openCycle getOrCreateActiveCycle
  rw [← past]
  split
  next empty =>
    refine .unlisted ?_
    intro x listed
    by_contra late
    have mem : x ∈ ((expiries call).filter (today settings call ≤ ·)).insertionSort (· ≤ ·) := by
      simpa [mem_insertionSort, listed] using late
    rw [empty] at mem
    cases mem
  next e rest sorted =>
    have listed : Listed settings call e := isNearest_iff_head?.mp (by rw [sorted]; rfl)
    unfold findCycle
    obtain ⟨fresh, looked⟩ | ⟨c, member, ⟨own, same⟩, looked⟩ | ⟨twice, looked⟩ :=
      scalarOneOrNone_filter (past settings db call).cycles fun c =>
        c.underlying = call.underlying ∧ c.expiryDate = e
    · simp only [looked]
      unfold commitCycle
      split_ifs with conflict
      · obtain ⟨c, member, own, same | ⟨active, _⟩⟩ := conflict
        · exact absurd ⟨own, same⟩ (fresh c member)
        · exact .refused listed (fun c member own same => fresh c member ⟨own, same⟩) member own
            active
      · push Not at conflict
        refine .created listed ?_
        intro c member own
        obtain ⟨other, inactive⟩ := conflict c member own
        exact ⟨other, fun active => inactive active rfl⟩
    · simp only [looked]
      exact .existing listed member own same
    · simp only [looked]
      exact .ambiguous twice

inductive TodayOpened (underlying : Underlying) (cycle : ExpiryCycle) (day : Int)
    (holidays : List Int) : Outcome (Option DailySession) → Prop
  | closed (holiday : isTradingDay day holidays = false) :
      TodayOpened underlying cycle day holidays (db, .ok none)
  | existing {s : DailySession} (trading : isTradingDay day holidays = true)
      (found : s ∈ db.sessions) (own : s.underlying = underlying) (date : s.tradingDate = day) :
      TodayOpened underlying cycle day holidays (db, .ok (some s))
  | created (trading : isTradingDay day holidays = true)
      (fresh : ∀ s ∈ db.sessions, s.underlying = underlying → s.tradingDate ≠ day) :
      TodayOpened underlying cycle day holidays
        ({ db with sessions := db.sessions ++ [newSession db underlying cycle day] },
          .ok (some (newSession db underlying cycle day)))
  | ambiguous (twice : 2 ≤ (db.sessions.filter fun s =>
      s.underlying = underlying ∧ s.tradingDate = day).length) :
    TodayOpened underlying cycle day holidays (db, .error .multipleResultsFound)

theorem getOrCreateToday_opened (underlying : Underlying) (cycle : ExpiryCycle) (day : Int)
    (holidays : List Int) :
    TodayOpened db underlying cycle day holidays
      (getOrCreateToday db underlying cycle day holidays) := by
  unfold getOrCreateToday
  split_ifs with trading
  · obtain ⟨fresh, looked⟩ | ⟨s, member, ⟨own, date⟩, looked⟩ | ⟨twice, looked⟩ :=
      scalarOneOrNone_filter db.sessions fun s =>
        s.underlying = underlying ∧ s.tradingDate = day
    · simp only [looked]
      exact .created trading fun s member own date => fresh s member ⟨own, date⟩
    · simp only [looked]
      exact .existing trading member own date
    · simp only [looked]
      exact .ambiguous twice
  · exact .closed (by simpa using trading)

inductive SnapshotTaken (session : DailySession) : Outcome (Option OISnapshot) → Prop
  | unchanged {row : Option OISnapshot} : SnapshotTaken session (db, .ok row)
  | orphan (orphan : cycleOf db session = none) :
      SnapshotTaken session (db, .error .attributeError)
  | ambiguous {expiry ts : Int} (twice : 2 ≤ (db.oiSnapshots.filter fun row =>
      row.underlying = session.underlying ∧ row.expiryDate = expiry ∧
      row.tradingDate = session.tradingDate ∧ row.timestamp = ts).length) :
    SnapshotTaken session (db, .error .multipleResultsFound)
  | taken {row : OISnapshot}
      (fresh : ∀ other ∈ db.oiSnapshots, other.underlying = row.underlying →
        other.expiryDate = row.expiryDate → other.tradingDate = row.tradingDate →
        other.timestamp ≠ row.timestamp) :
      SnapshotTaken session ({ db with oiSnapshots := db.oiSnapshots ++ [row] }, .ok (some row))

theorem snapshot_taken (session : DailySession) :
    SnapshotTaken db session (snapshot settings db session call) := by
  unfold snapshot
  split
  next => exact .unchanged
  next atm locked =>
    split
    next orphan => exact .orphan orphan
    next cycle found =>
      obtain ⟨fresh, looked⟩ | ⟨_, _, _, looked⟩ | ⟨twice, looked⟩ :=
        scalarOneOrNone_filter db.oiSnapshots fun row => row.underlying = session.underlying ∧
          row.expiryDate = cycle.expiryDate ∧ row.tradingDate = session.tradingDate ∧
          row.timestamp = minuteStart call.utcNow
      · simp only [looked]
        exact .taken fun row member own expiry date ts => fresh row member ⟨own, expiry, date, ts⟩
      · simp only [looked]
        exact .unchanged
      · simp only [looked]
        exact .ambiguous twice

inductive Write (day : Int) : Db → Db → Prop
  | complete (db : Db) (underlying : Underlying) :
      Write day db (completePastCycles db underlying day)
  | cycle (db : Db) (c : ExpiryCycle) (number : c.id = db.cycles.length + 1)
      (active : c.status = .active) (due : day ≤ c.expiryDate)
      (starts : c.cycleStartDate ≤ c.expiryDate) (ends : c.cycleEndDate = c.expiryDate)
      (fresh : ∀ other ∈ db.cycles, other.underlying = c.underlying →
        other.expiryDate ≠ c.expiryDate ∧ other.status ≠ .active) :
      Write day db { db with cycles := db.cycles ++ [c] }
  | session (db : Db) (s : DailySession) (c : ExpiryCycle) (number : s.id = db.sessions.length + 1)
      (member : c ∈ db.cycles) (reference : s.cycleId = c.id) (own : s.underlying = c.underlying)
      (pending : s.status = .pending) (date : s.tradingDate = day) (due : day ≤ c.expiryDate)
      (trading : isTradingDay day settings.holidays = true)
      (fresh : ∀ other ∈ db.sessions, other.underlying = s.underlying →
        other.tradingDate ≠ s.tradingDate) :
      Write day db { db with sessions := db.sessions ++ [s] }
  | lock (db : Db) (s : DailySession) (atm : AtmLock) (member : s ∈ db.sessions)
      (pending : s.status = .pending) :
      Write day db (saveSession db { s with status := .locked atm })
  | snapshot (db : Db) (row : OISnapshot)
      (fresh : ∀ other ∈ db.oiSnapshots, other.underlying = row.underlying →
        other.expiryDate = row.expiryDate → other.tradingDate = row.tradingDate →
        other.timestamp ≠ row.timestamp) :
      Write day db { db with oiSnapshots := db.oiSnapshots ++ [row] }

abbrev Writes (day : Int) : Db → Db → Prop := Relation.ReflTransGen (Write settings day)

variable {settings db call}

theorem writes_past : Writes settings (today settings call) db (past settings db call) :=
  .single (.complete db call.underlying)

theorem CycleOpened.writes {out : Outcome (Option ExpiryCycle)}
    (opened : CycleOpened settings db call out) :
    Writes settings (today settings call) db out.1 := by
  cases opened with
  | created listed fresh =>
    refine writes_past.tail (.cycle _ _ rfl rfl listed.2.1 ?_ rfl fresh)
    exact cycleStart_le (expiries call) _
  | unlisted | existing | refused | ambiguous => exact writes_past

theorem CycleOpened.returned (opened : CycleOpened settings db call (db', .ok (some c))) :
    c ∈ db'.cycles ∧ c.underlying = call.underlying ∧ Listed settings call c.expiryDate := by
  cases opened with
  | existing listed found own expiry =>
    rw [expiry]
    exact ⟨found, own, listed⟩
  | created listed fresh => exact ⟨mem_append_right _ (mem_singleton_self _), rfl, listed⟩

theorem openCycle_returned (opened : openCycle settings db call = (db', .ok (some c))) :
    c ∈ db'.cycles ∧ c.underlying = call.underlying ∧ Listed settings call c.expiryDate := by
  apply CycleOpened.returned
  rw [← opened]
  exact openCycle_opened settings db call

theorem openCycle_writes {result : Except Fault (Option ExpiryCycle)}
    (opened : openCycle settings db call = (db', result)) :
    Writes settings (today settings call) db db' := by
  have writes := (openCycle_opened settings db call).writes
  rwa [opened] at writes

theorem TodayOpened.writes {out : Outcome (Option DailySession)} (member : cycle ∈ db.cycles)
    (own : cycle.underlying = call.underlying) (listed : Listed settings call cycle.expiryDate)
    (opened : TodayOpened db call.underlying cycle (today settings call) settings.holidays out) :
    Writes settings (today settings call) db out.1 := by
  cases opened with
  | created trading fresh =>
    exact .single (.session db _ cycle rfl member rfl own.symm rfl rfl listed.2.1 trading fresh)
  | closed | existing | ambiguous => exact .refl

theorem TodayOpened.returned {underlying : Underlying} {holidays : List Int}
    (opened : TodayOpened db underlying cycle day holidays (db', .ok (some s))) :
    s ∈ db'.sessions ∧ s.underlying = underlying ∧ s.tradingDate = day := by
  cases opened with
  | existing trading found own date => exact ⟨found, own, date⟩
  | created => exact ⟨mem_append_right _ (mem_singleton_self _), rfl, rfl⟩

theorem lockIfDue_writes (member : s ∈ db.sessions) :
    Writes settings day db (lockIfDue settings db s call).1 := by
  unfold lockIfDue
  split
  next => exact .refl
  next pending =>
    split_ifs
    · exact .refl
    split
    · exact .refl
    · exact .refl
    split
    · exact .refl
    dsimp only
    split
    · exact .refl
    · exact .single (.lock db s _ member pending)

theorem openSession_writes :
    Writes settings (today settings call) db (openSession settings db call).1 := by
  unfold openSession
  split
  next opened => exact openCycle_writes opened
  next opened => exact openCycle_writes opened
  next db' cycle opened =>
    obtain ⟨member, own, listed⟩ := openCycle_returned opened
    have writes := (openCycle_writes opened).trans
      ((getOrCreateToday_opened db' ..).writes member own listed)
    split
    all_goals
      next got => rwa [got] at writes

theorem openSession_returned {cycle : Option ExpiryCycle}
    (opened : openSession settings db call = (db', .ok { cycle, session := some s })) :
    s ∈ db'.sessions ∧ s.underlying = call.underlying ∧ s.tradingDate = today settings call := by
  unfold openSession at opened
  split at opened
  · cases opened
  · cases opened
  next db₁ c _ =>
    split at opened
    · cases opened
    next got =>
      cases opened
      have today := getOrCreateToday_opened db₁ call.underlying c (today settings call)
        settings.holidays
      rw [got] at today
      exact today.returned

theorem SnapshotTaken.writes {out : Outcome (Option OISnapshot)} (taken : SnapshotTaken db s out) :
    Writes settings day db out.1 := by
  cases taken with
  | taken fresh => exact .single (.snapshot db _ fresh)
  | unchanged | orphan | ambiguous => exact .refl

theorem lockSession_writes :
    Writes settings (today settings call) db (lockSession settings db call).1 := by
  have before := @openSession_writes settings db call
  unfold lockSession
  split
  next db' cycle session opened =>
    rw [opened] at before
    have writes : Writes settings (today settings call) db
        (lockIfDue settings db' session call).1 :=
      before.trans (lockIfDue_writes (openSession_returned opened).1)
    split
    all_goals
      next got => rwa [got] at writes
  next => exact before

theorem advance_writes :
    Writes settings (today settings call) db (advance settings db call).1 := by
  have before := @lockSession_writes settings db call
  unfold advance
  split
  next db' cycle session locked =>
    rw [locked] at before
    have writes := before.trans (snapshot_taken settings db' call session).writes
    split
    all_goals
      next got => rwa [got] at writes
  next => exact before

theorem interrupted_writes (point : CommitPoint) :
    Writes settings (today settings call) db (interrupted settings db call point) := by
  cases point with
  | completion => exact writes_past
  | cycle => exact openCycle_writes rfl
  | session => exact openSession_writes
  | lock => exact lockSession_writes

end AlgoSystem.Proof.MarketData.StraddlePulse

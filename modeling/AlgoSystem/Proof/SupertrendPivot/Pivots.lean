import AlgoSystem.General.Lists
import AlgoSystem.General.Summary
import AlgoSystem.Proof.SupertrendPivot.Frames
import AlgoSystem.Proof.SupertrendPivot.Supertrend
import Mathlib.Data.Finset.Card

namespace AlgoSystem.Proof.SupertrendPivot.Pivots
open General AlgoSystem.SupertrendPivot Frames List
open AlgoSystem.MarketData (oneMinute oneDay minuteStart)

variable {df history frame : List Candle} {prev today : Int}
variable {reading : Reading} {c : Candle}

theorem dailyBarOf_eq_some_iff {bar : DailyBar} :
    dailyBarOf df prev = some bar ↔
      ∃ first rest, df.filter (fun c => dateOf c.datetime = prev) = first :: rest ∧
        bar = dailyBar prev first rest := by
  unfold dailyBarOf
  cases df.filter (fun c => dateOf c.datetime = prev) with
  | nil => simp
  | cons first rest => simp [eq_comm]

theorem exists_dailyBarOf (traded : ∃ c ∈ df, dateOf c.datetime = prev) :
    ∃ bar, dailyBarOf df prev = some bar := by
  obtain ⟨c, mem, date⟩ := traded
  have member : c ∈ df.filter (fun c => dateOf c.datetime = prev) :=
    mem_filter.mpr ⟨mem, decide_eq_true date⟩
  obtain ⟨first, rest, rows⟩ := exists_cons_of_ne_nil (ne_nil_of_mem member)
  exact ⟨_, dailyBarOf_eq_some_iff.mpr ⟨first, rest, rows, rfl⟩⟩

def dates (df : List Candle) : List Int :=
  (df.map fun c => dateOf c.datetime).dedup.insertionSort (· ≤ ·)

theorem mem_dates {date : Int} : date ∈ dates df ↔ ∃ c ∈ df, dateOf c.datetime = date := by
  rw [dates, mem_insertionSort, mem_dedup, mem_map]

theorem dates_increasing (df : List Candle) : (dates df).Pairwise (· < ·) := by
  have distinct : ((df.map fun c => dateOf c.datetime).dedup.map id).Nodup := by
    rw [map_id]
    exact nodup_dedup _
  exact insertionSort_lt_of_nodup distinct

theorem previousDayOhlc_last_but_one (traded : ∃ c ∈ df, dateOf c.datetime = prev)
    (tradedToday : ∃ c ∈ df, dateOf c.datetime = today) (earlier : prev < today)
    (adjacent : ∀ c ∈ df, dateOf c.datetime ≤ prev ∨ dateOf c.datetime = today) :
    (previousDayOhlc df).dropLast.getLast? = dailyBarOf df prev := by
  have split : dates df = (dates df).filter (· < prev) ++ [prev, today] := by
    refine eq_of_pairwise_lt (f := id) (dates_increasing df) ?_ ?_
    · refine pairwise_append.mpr ⟨(dates_increasing df).filter _, by simpa using earlier, ?_⟩
      intro a before b last
      have lower : a < prev := by simpa using of_mem_filter before
      rcases mem_cons.mp last with rfl | last
      · exact lower
      · rw [mem_singleton.mp last]
        exact lower.trans earlier
    · intro date
      simp only [mem_append, mem_filter, mem_dates, decide_eq_true_eq, mem_cons,
        not_mem_nil, or_false]
      constructor
      · rintro ⟨c, mem, rfl⟩
        rcases adjacent c mem with old | now
        · rcases old.lt_or_eq with before | same
          · exact .inl ⟨⟨c, mem, rfl⟩, before⟩
          · exact .inr (.inl same)
        · exact .inr (.inr now)
      · rintro (⟨found, -⟩ | rfl | rfl)
        · exact found
        · exact traded
        · exact tradedToday
  obtain ⟨bar, found⟩ := exists_dailyBarOf traded
  obtain ⟨last, foundLast⟩ := exists_dailyBarOf tradedToday
  have rows : previousDayOhlc df = (dates df).filterMap (dailyBarOf df) := rfl
  rw [rows, split, filterMap_append]
  simp [found, foundLast]

theorem length_previousDayOhlc (df : List Candle) :
    (previousDayOhlc df).length = (dates df).length := by
  have dated : ((dates df).filterMap (dailyBarOf df)).map DailyBar.date = dates df := by
    rw [map_filterMap]
    refine (filterMap_congr fun date mem => ?_).trans filterMap_some
    obtain ⟨bar, found⟩ := exists_dailyBarOf (mem_dates.mp mem)
    obtain ⟨first, rest, -, rfl⟩ := dailyBarOf_eq_some_iff.mp found
    rw [found]
    rfl
  rw [← dated, length_map]
  rfl

theorem card_dates (df : List Candle) : (dates df).toFinset.card = (previousDayOhlc df).length := by
  rw [length_previousDayOhlc, toFinset_card_of_nodup ((dates_increasing df).imp ne_of_lt)]

theorem exists_date_of_last_but_one {bar : DailyBar} (today : Int)
    (found : (previousDayOhlc df).dropLast.getLast? = some bar) :
    ∃ c ∈ df, dateOf c.datetime ≠ today := by
  have several : 1 < (dates df).toFinset.card := by
    have bound := length_pos_of_mem (mem_of_getLast? found)
    rw [length_dropLast] at bound
    rw [card_dates]
    omega
  obtain ⟨date, mem, other⟩ := Finset.exists_mem_ne several today
  obtain ⟨c, member, rfl⟩ := mem_dates.mp (mem_toFinset.mp mem)
  exact ⟨c, member, other⟩

theorem exists_last_but_one (tradedToday : ∃ c ∈ df, dateOf c.datetime = today)
    (other : ∃ c ∈ df, dateOf c.datetime ≠ today) :
    ∃ bar, (previousDayOhlc df).dropLast.getLast? = some bar := by
  obtain ⟨c, member, different⟩ := other
  have several : 1 < (dates df).toFinset.card :=
    Finset.one_lt_card.mpr ⟨_, mem_toFinset.mpr (mem_dates.mpr ⟨c, member, rfl⟩), today,
      mem_toFinset.mpr (mem_dates.mpr tradedToday), different⟩
  rw [card_dates] at several
  refine Option.isSome_iff_exists.mp (getLast?_isSome.mpr (ne_nil_of_length_pos ?_))
  rw [length_dropLast]
  omega

theorem readSignals_ok {now : Int} (used : readSignals df now = .ok reading) :
    df.getLast? = some reading.candle ∧ dateOf reading.candle.datetime = dateOf now ∧
      ∃ bar, (previousDayOhlc df).dropLast.getLast? = some bar ∧ reading.pivots = dailyPivots bar := by
  unfold readSignals at used
  split at used
  · cases used
  · split at used
    next bar row found last =>
      split at used
      · cases used
      next date =>
        cases used
        exact ⟨Supertrend.getLast?_candle last, not_not.mp date, bar, found, rfl⟩
    · cases used

theorem exists_reading_iff {now : Int} {last : Candle} :
    (∃ reading, readSignals df now = .ok reading ∧ reading.candle = last) ↔
      supertrendPeriod + 2 ≤ df.length ∧ df.getLast? = some last ∧
        dateOf last.datetime = dateOf now ∧ ∃ c ∈ df, dateOf c.datetime ≠ dateOf now := by
  constructor
  · rintro ⟨reading, used, rfl⟩
    obtain ⟨isLast, isToday, bar, found, -⟩ := readSignals_ok used
    refine ⟨?_, isLast, isToday, exists_date_of_last_but_one _ found⟩
    by_contra few
    simp [readSignals, not_le.mp few] at used
  · rintro ⟨enough, isLast, isToday, other⟩
    obtain ⟨bar, found⟩ := exists_last_but_one ⟨last, mem_of_getLast? isLast, isToday⟩ other
    obtain ⟨row, lastRow, rfl⟩ := Supertrend.exists_lastRow supertrendPeriod supertrendMultiplier isLast
    simp [readSignals, enough.not_gt, found, lastRow, isToday]

theorem pivots_eq_iff {a b : DailyBar} (close : a.close = b.close) :
    ((dailyPivots a).r1 = (dailyPivots b).r1 ∧ (dailyPivots a).s1 = (dailyPivots b).s1) ↔
      a.high = b.high ∧ a.low = b.low := by
  simp only [dailyPivots, close]
  constructor
  · rintro ⟨r1, s1⟩
    constructor <;> linarith
  · rintro ⟨high, low⟩
    rw [high, low]
    exact ⟨rfl, rfl⟩

def session (history : List Candle) (day : Int) : List Candle :=
  history.filter fun c => dateOf c.datetime = day

theorem dailyBar_close (day : Int) (first : Candle) (rest : List Candle) :
    (first :: rest).getLast?.map Candle.close = some (dailyBar day first rest).close := by
  rw [getLast?_cons]
  rfl

theorem dailyBar_of_end_iff (day : Int) {early : List Candle} {first first' : Candle}
    {rest rest' : List Candle} (split : first' :: rest' = early ++ first :: rest) :
    (dailyBar day first rest).close = (dailyBar day first' rest').close ∧
      ((dailyBar day first rest).high = (dailyBar day first' rest').high ∧
        (dailyBar day first rest).low = (dailyBar day first' rest').low ↔
      ∀ c ∈ early, (∃ k ∈ first :: rest, c.high ≤ k.high) ∧ ∃ k ∈ first :: rest, k.low ≤ c.low) := by
  constructor
  · have close := dailyBar_close day first' rest'
    rw [split, getLast?_append_of_ne_nil _ (cons_ne_nil first rest),
      dailyBar_close day first rest] at close
    exact Option.some.inj close
  · simp only [dailyBar, foldl_max_end_iff Candle.high split, foldl_min_end_iff Candle.low split]
    constructor
    · rintro ⟨above, below⟩ c mem
      exact ⟨above c mem, below c mem⟩
    · intro covered
      exact ⟨fun c mem => (covered c mem).1, fun c mem => (covered c mem).2⟩

structure PreviousDay (history : List Candle) (prev today : Int) : Prop where
  traded : ∃ c ∈ history, dateOf c.datetime = prev
  earlier : prev < today
  recent : today ≤ prev + 5
  adjacent : ∀ c ∈ history, ¬ (prev < dateOf c.datetime ∧ dateOf c.datetime < today)

section Request
variable {md : MarketData} {fetchedAt : Int}

structure Frame (history : List Candle) (md : MarketData) (fetchedAt : Int) (frame : List Candle) :
    Prop where
  ordered : history.Pairwise fun a b => a.datetime < b.datetime
  merged : frame = md.mergeLiveCandles (history.filter (requestWindow fetchedAt 5).covers)
  live : ∀ c ∈ md.liveCandles, dateOf c.datetime = dateOf fetchedAt

section
variable (made : Frame history md fetchedAt frame)
include made

theorem Frame.mem_iff :
    c ∈ frame ↔ c ∈ md.liveCandles ∨
      (c ∈ history ∧ (requestWindow fetchedAt 5).fromDate ≤ c.datetime ∧
        c.datetime ≤ (requestWindow fetchedAt 5).toDate) ∧
      ∀ l ∈ md.liveCandles, l.datetime ≠ c.datetime := by
  have distinct : (history.filter (requestWindow fetchedAt 5).covers).Pairwise
      fun a b => a.datetime ≠ b.datetime := (made.ordered.filter _).imp ne_of_lt
  rw [made.merged, mem_mergeLiveCandles distinct, mem_filter]
  simp [Window.covers]

theorem Frame.mem (past : dateOf c.datetime < dateOf fetchedAt) :
    c ∈ frame ↔ c ∈ history ∧ (requestWindow fetchedAt 5).fromDate ≤ c.datetime := by
  have notLive : ∀ l ∈ md.liveCandles, l.datetime ≠ c.datetime := by
    intro l mem same
    have date := made.live l mem
    rw [same] at date
    omega
  have upper : c.datetime ≤ (requestWindow fetchedAt 5).toDate := by
    simp only [dateOf, oneDay, oneMinute] at past
    simp only [requestWindow, minuteStart, oneMinute]
    omega
  rw [made.mem_iff]
  constructor
  · rintro (inLive | ⟨⟨mem, lower, -⟩, -⟩)
    · exact absurd rfl (notLive c inLive)
    · exact ⟨mem, lower⟩
  · rintro ⟨mem, lower⟩
    exact .inr ⟨⟨mem, lower, upper⟩, notLive⟩

theorem Frame.date_le (mem : c ∈ frame) :
    dateOf c.datetime = dateOf fetchedAt ∨
      c ∈ history ∧ dateOf c.datetime < dateOf fetchedAt ∧
        dateOf fetchedAt - 5 ≤ dateOf c.datetime := by
  rcases made.mem_iff.mp mem with inLive | ⟨⟨member, lower, upper⟩, -⟩
  · exact .inl (made.live c inLive)
  · simp only [requestWindow, minuteStart, oneDay, oneMinute] at lower upper
    simp only [dateOf, oneDay, oneMinute]
    by_cases same : c.datetime / (1440 * 60000000) = fetchedAt / (1440 * 60000000)
    · exact .inl same
    · refine .inr ⟨member, ?_, ?_⟩ <;> omega

theorem Frame.session (past : prev < dateOf fetchedAt) :
    session frame prev =
      (session history prev).filter fun c => (requestWindow fetchedAt 5).fromDate ≤ c.datetime := by
  have increasing : frame.Pairwise fun a b => a.datetime < b.datetime := by
    rw [made.merged]
    exact mergeLiveCandles_increasing (made.ordered.filter _)
  refine eq_of_pairwise_lt (increasing.filter _) ((made.ordered.filter _).filter _) ?_
  intro c
  simp only [Pivots.session, mem_filter, decide_eq_true_eq]
  constructor
  · rintro ⟨mem, rfl⟩
    obtain ⟨member, lower⟩ := (made.mem past).mp mem
    exact ⟨⟨member, rfl⟩, lower⟩
  · rintro ⟨⟨member, rfl⟩, lower⟩
    exact ⟨(made.mem past).mpr ⟨member, lower⟩, rfl⟩

theorem Frame.session_split (past : prev < dateOf fetchedAt) :
    ∃ early, Pivots.session history prev = early ++ Pivots.session frame prev ∧
      (∀ c ∈ early, c.datetime < (requestWindow fetchedAt 5).fromDate) ∧
      ∀ c ∈ Pivots.session frame prev, ¬ c.datetime < (requestWindow fetchedAt 5).fromDate := by
  obtain ⟨early, late, cut, before, after⟩ := exists_split
    (fun c : Candle => c.datetime < (requestWindow fetchedAt 5).fromDate)
    ((made.ordered.filter fun c => dateOf c.datetime = prev).imp fun order => order.trans)
  have whole : Pivots.session history prev = early ++ late := cut
  have kept : Pivots.session frame prev = late := by
    rw [made.session past, whole, filter_append, filter_eq_nil_iff.mpr, nil_append,
      filter_eq_self.mpr]
    · exact fun c mem => decide_eq_true (not_lt.mp (after c mem))
    · intro c mem
      simpa using before c mem
  exact ⟨early, by rw [whole, kept], before, by rwa [kept]⟩

end

variable {now : Int} (calendar : PreviousDay history prev (dateOf now))
  (sameDay : dateOf fetchedAt = dateOf now)
include calendar sameDay

theorem Frame.adjacent (made : Frame history md fetchedAt frame) :
    ∀ c ∈ frame, dateOf c.datetime ≤ prev ∨ dateOf c.datetime = dateOf now := by
  intro c mem
  rcases made.date_le mem with now | ⟨member, before, -⟩
  · exact .inr (now.trans sameDay)
  · have := calendar.adjacent c member
    omega

theorem Frame.exists_prev (made : Frame history md fetchedAt frame) {bar : DailyBar}
    (found : (previousDayOhlc frame).dropLast.getLast? = some bar) :
    ∃ c ∈ frame, dateOf c.datetime = prev := by
  have recent := calendar.recent
  by_cases farthest : dateOf now = prev + 5
  · obtain ⟨c, mem, other⟩ := exists_date_of_last_but_one (dateOf now) found
    refine ⟨c, mem, ?_⟩
    have upper := (made.adjacent calendar sameDay c mem).resolve_right other
    rcases made.date_le mem with now | ⟨-, -, lower⟩ <;> omega
  · obtain ⟨c, member, date⟩ := calendar.traded
    have past : dateOf c.datetime < dateOf fetchedAt := by
      rw [date, sameDay]
      exact calendar.earlier
    refine ⟨c, (made.mem past).mpr ⟨member, ?_⟩, date⟩
    simp only [dateOf, oneDay, oneMinute] at date sameDay recent farthest
    simp only [requestWindow, minuteStart, oneDay, oneMinute]
    omega

end Request

/-- The levels are those of the whole previous session exactly if its bars from before the time of
day of the request reach neither above nor below the later ones. -/
theorem pivots_of_whole_session_iff {md md' : MarketData} {now fetchedAt asked answered : Int}
    {fetched : Option (List Candle)} {reading : Reading}
    (ordered : history.Pairwise fun a b => a.datetime < b.datetime)
    (calendar : PreviousDay history prev (dateOf now)) (sameDay : dateOf fetchedAt = dateOf now)
    (served : md.getCandles asked answered fetched = some (frame, md'))
    (answer : md'.restCache = some (history.filter (requestWindow fetchedAt 5).covers))
    (live : ∀ c ∈ md'.liveCandles, dateOf c.datetime = dateOf now)
    (used : readSignals frame now = .ok reading) :
    ∃ whole, dailyBarOf history prev = some whole ∧
      (reading.pivots.r1 = (dailyPivots whole).r1 ∧ reading.pivots.s1 = (dailyPivots whole).s1 ↔
        ∀ c ∈ session history prev, c.datetime < (requestWindow fetchedAt 5).fromDate →
          (∃ k ∈ session history prev,
            (requestWindow fetchedAt 5).fromDate ≤ k.datetime ∧ c.high ≤ k.high) ∧
          ∃ k ∈ session history prev,
            (requestWindow fetchedAt 5).fromDate ≤ k.datetime ∧ k.low ≤ c.low) := by
  obtain ⟨rest, cached, -, merged⟩ := getCandles_eq served
  rw [answer] at cached
  cases cached
  have made : Frame history md' fetchedAt frame := ⟨ordered, merged, by rwa [sameDay]⟩
  obtain ⟨last, isToday, bar, found, pivots⟩ := readSignals_ok used
  have tradedToday : ∃ c ∈ frame, dateOf c.datetime = dateOf now :=
    ⟨_, mem_of_getLast? last, isToday⟩
  rw [previousDayOhlc_last_but_one (made.exists_prev calendar sameDay found) tradedToday
    calendar.earlier (made.adjacent calendar sameDay)] at found
  obtain ⟨first, rest, rows, rfl⟩ := dailyBarOf_eq_some_iff.mp found
  obtain ⟨bar', wholeBar⟩ := exists_dailyBarOf calendar.traded
  obtain ⟨first', rest', rows', rfl⟩ := dailyBarOf_eq_some_iff.mp wholeBar
  change session frame prev = first :: rest at rows
  change session history prev = first' :: rest' at rows'
  obtain ⟨early, whole, before, after⟩ := made.session_split (sameDay ▸ calendar.earlier)
  obtain ⟨close, extremes⟩ := dailyBar_of_end_iff prev (rows' ▸ rows ▸ whole)
  have late : ∀ k, k ∈ first :: rest ↔
      k ∈ session history prev ∧ (requestWindow fetchedAt 5).fromDate ≤ k.datetime := by
    intro k
    rw [← rows, made.session (sameDay ▸ calendar.earlier), mem_filter, decide_eq_true_eq]
  refine ⟨_, wholeBar, ?_⟩
  rw [pivots, pivots_eq_iff close, extremes]
  simp only [late, and_assoc]
  constructor
  · intro covered c mem cutOff
    rw [whole] at mem
    rcases mem_append.mp mem with old | kept
    · exact covered c old
    · exact absurd cutOff (after c kept)
  · intro covered c mem
    exact covered c (whole ▸ mem_append_left _ mem) (before c mem)

def bar (day minute : Int) (high low close : ℚ) : Candle :=
  ⟨day * oneDay + minute * oneMinute, close, high, low, close, 0⟩

def twoSessions (gap : Int) : List Candle :=
  bar 20400 555 120 90 100 ::
    [600, 605, 610, 615, 620, 625, 630].map (fun minute => bar 20400 minute 105 95 100) ++
    [555, 560].map fun minute => bar (20400 + gap) minute 104 96 100

def tenOClock (gap : Int) : Int := (20400 + gap) * oneDay + 600 * oneMinute

def answered (gap : Int) : List Candle :=
  (twoSessions gap).filter (requestWindow (tenOClock gap) 5).covers

theorem pivots_after_one_day :
    ∃ reading whole, readSignals (answered 1) (tenOClock 1) = .ok reading ∧
      dailyBarOf (twoSessions 1) 20400 = some whole ∧
      reading.pivots.r1 = (dailyPivots whole).r1 ∧ reading.pivots.s1 = (dailyPivots whole).s1 := by
  have evaluated : (readSignals (answered 1) (tenOClock 1)).isOk = true := by decide +kernel
  cases used : readSignals (answered 1) (tenOClock 1) with
  | error reason => simp [used, Except.isOk, Except.toBool] at evaluated
  | ok reading =>
    have calendar : PreviousDay (twoSessions 1) 20400 (dateOf (tenOClock 1)) :=
      ⟨by decide +kernel, by decide, by decide, by decide +kernel⟩
    have served : ({} : MarketData).getCandles 0 0 (some (answered 1)) =
        some (answered 1, { restCache := some (answered 1) }) := rfl
    obtain ⟨whole, found, levels⟩ := pivots_of_whole_session_iff (by decide +kernel) calendar rfl
      served rfl (by simp [MarketData.liveCandles]) used
    obtain ⟨r1, s1⟩ := levels.mpr (by decide +kernel)
    exact ⟨reading, whole, rfl, found, r1, s1⟩

theorem pivots_after_five_days :
    PreviousDay (twoSessions 5) 20400 (dateOf (tenOClock 5)) ∧
      ({} : MarketData).getCandles 0 0 (some (answered 5)) =
        some (answered 5, { restCache := some (answered 5) }) ∧
      (readSignals (answered 5) (tenOClock 5)).toOption.map (fun reading => reading.pivots.r1) =
        some 105 ∧
      (dailyBarOf (twoSessions 5) 20400).map (fun whole => (dailyPivots whole).r1) =
        some (350 / 3) := by
  refine ⟨⟨?_, ?_, ?_, ?_⟩, rfl, ?_, ?_⟩ <;> decide +kernel

end AlgoSystem.Proof.SupertrendPivot.Pivots

import AlgoSystem.Proof.SupertrendPivot.Candles
import AlgoSystem.Proof.SupertrendPivot.Pivots

namespace AlgoSystem.Proof.SupertrendPivot.ClosedBars
open General AlgoSystem.SupertrendPivot Candles Frames Pivots List
open AlgoSystem.MarketData (oneMinute oneDay)

def fiveMinutes : Int := 5 * oneMinute

def NotAfter (now : Int) : StreamEvent → Prop
  | .addTick tick arrival => tick.timestamp.getD arrival ≤ now
  | .finalizeDue time => time ≤ now

structure Timely (now : Int) (s : Session) : Prop where
  interval : s.agg.interval = 5
  grid : ∀ c ∈ s.candles, c.datetime % fiveMinutes = 0 ∧ c.datetime ≤ now
  ended : ∀ c ∈ s.agg.completed, c.datetime + fiveMinutes ≤ now

theorem floorToBucket_five (ts : Int) :
    floorToBucket ts 5 % fiveMinutes = 0 ∧ floorToBucket ts 5 ≤ ts := by
  simp only [floorToBucket, fiveMinutes, oneMinute]
  omega

theorem taken_bucket {s : Session} {event : StreamEvent} {tick : AcceptedTick} {now : Int}
    (interval : s.agg.interval = 5) (notAfter : NotAfter now event)
    (taken : s.taken event = some tick) : tick.bucket % fiveMinutes = 0 ∧ tick.bucket ≤ now := by
  cases event with
  | finalizeDue time => cases taken
  | addTick raw arrival =>
    simp only [Session.taken, accept?] at taken
    cases price : raw.price with
    | none => simp [price] at taken
    | some p =>
      simp only [price] at taken
      split at taken
      · cases taken
      · cases taken
        rw [interval]
        have floor := floorToBucket_five (raw.timestamp.getD arrival)
        exact ⟨floor.1, floor.2.trans notAfter⟩

section Moves
variable {now : Int} {s : Session} {tick : AcceptedTick} {c : Candle}

section
variable (timely : Timely now s)
include timely

theorem Timely.close (forming : s.agg.current = some c) (due : c.datetime + fiveMinutes ≤ now) :
    Timely now s.close where
  interval := by
    simp [Session.close, CandleAggregator.finalizeLocked, forming, timely.interval]
  grid := by
    rw [candles_close forming]
    exact timely.grid
  ended := by
    have completed : s.close.agg.completed = s.agg.completed ++ [c] := by
      simp [Session.close, CandleAggregator.finalizeLocked, forming]
    rw [completed, forall_mem_append]
    exact ⟨timely.ended, by simpa using due⟩

theorem Timely.start (idle : s.agg.current = none)
    (grid : tick.bucket % fiveMinutes = 0 ∧ tick.bucket ≤ now) : Timely now (s.start tick) where
  interval := timely.interval
  grid := by
    rw [candles_start idle, forall_mem_append]
    exact ⟨timely.grid, by simpa [firstCandle, newCandle] using grid⟩
  ended := timely.ended

theorem Timely.absorb (forming : s.agg.current = some c) : Timely now (s.absorb tick) where
  interval := timely.interval
  grid := by
    have grid := timely.grid
    rw [candles_forming forming, forall_mem_append] at grid
    rw [candles_absorb forming, forall_mem_append]
    exact ⟨grid.1, by simpa [grown] using grid.2⟩
  ended := timely.ended

theorem Timely.change {t : Session} {event : StreamEvent} (notAfter : NotAfter now event)
    (change : Change s event t) : Timely now t := by
  cases change with
  | unchanged => exact timely
  | close forming due =>
    rw [timely.interval] at due
    exact timely.close forming (due.trans notAfter)
  | start taken idle => exact timely.start idle (taken_bucket timely.interval notAfter taken)
  | @roll _ _ c taken forming later =>
    have bucket := taken_bucket timely.interval notAfter taken
    have forms := timely.grid c (by simp [candles_forming forming])
    refine (timely.close forming ?_).start rfl bucket
    simp only [fiveMinutes, oneMinute] at bucket forms ⊢
    omega
  | absorb taken forming => exact timely.absorb forming

end

end Moves

theorem timely_run {now : Int} {events : List StreamEvent} {s : Session}
    (path : run stepped (.begin 5) events = some s) (notAfter : ∀ e ∈ events, NotAfter now e) :
    Timely now s := by
  have meets : Meets stepped (fun _ e => NotAfter now e) (.begin 5) events :=
    meets_imp (fun e mem _ _ => notAfter e mem) (meets_true _ _)
  refine run_invariant_of_meets
    (fun _ _ _ timely here taken => timely.change here (change_of_stepped taken)) path meets ?_
  exact ⟨rfl, by simp [Session.begin, Session.candles, CandleAggregator.create],
    by simp [Session.begin, CandleAggregator.create]⟩

structure Trade where
  time : Int
  price : ℚ

def pricesIn (trades : List Trade) (datetime : Int) : List ℚ :=
  (trades.filter fun t => datetime ≤ t.time ∧ t.time < datetime + fiveMinutes).map Trade.price

def Covers (c : Candle) (prices : List ℚ) : Prop := IsOhlc prices c.opening c.high c.low c.close

def Served (market : List Trade) (time : Int) (rest : List Candle) : Prop :=
  ∀ r ∈ rest, Covers r (pricesIn (market.filter fun t => t.time ≤ time) r.datetime)

structure Sound (market : List Trade) (now : Int) (frame : List Candle) : Prop where
  ended : ∀ reading, readSignals frame now = .ok reading →
    reading.candle.datetime + fiveMinutes ≤ now
  complete : ∀ c ∈ frame, Covers c (pricesIn market c.datetime)

section Merged
variable {market : List Trade} {now fetchedAt asked answered : Int} {md md' : MarketData}
  {fetched : Option (List Candle)} {rest frame : List Candle} {events : List StreamEvent}
  {s : Session}

theorem mem_liveCandles (tracks : Candles.Tracks s) (stream : md.stream = some s.agg ∨ md.stream = none)
    {c : Candle} (mem : c ∈ md.liveCandles) : c ∈ s.agg.completed := by
  unfold MarketData.liveCandles at mem
  rcases stream with stream | stream
  · have increasing := (pairwise_append.mp tracks.increasing).1
    have distinct : (s.agg.snapshot.filter fun c => marketOpen ≤ timeOf c.datetime).Pairwise
        fun a b => a.datetime ≠ b.datetime := by
      refine List.Pairwise.filter _ ?_
      simpa [CandleAggregator.snapshot] using increasing.imp ne_of_lt
    rw [stream] at mem
    dsimp only at mem
    rw [keepFirst_eq_self distinct] at mem
    simpa [CandleAggregator.snapshot] using mem_of_mem_filter mem
  · rw [stream] at mem
    cases mem

/-- `evaluate` gets as far as the last candle: there are rows enough, and of two days. -/
structure Enough (rest live : List Candle) (now : Int) : Prop where
  rows : supertrendPeriod + 2 ≤
    (rest.filter fun r => !live.any (·.datetime = r.datetime)).length + live.length
  days : ∃ c ∈ rest ++ live, dateOf c.datetime ≠ dateOf now

structure Adequate (market : List Trade) (now fetchedAt : Int) (rest live : List Candle)
    (s : Session) : Prop where
  -- if the last REST bar is of today and later than the live ones, it has ended
  ended : ∀ r ∈ rest.getLast?, (∀ l ∈ live, l.datetime < r.datetime) →
    dateOf r.datetime = dateOf now → Enough rest live now → r.datetime + fiveMinutes ≤ now
  -- what was traded after the fetch did not change a REST bar that is still in use
  rest : ∀ r ∈ rest, (∀ l ∈ live, l.datetime ≠ r.datetime) →
    SameOhlc (pricesIn (market.filter fun t => t.time ≤ fetchedAt) r.datetime)
      (pricesIn market r.datetime)
  -- the ticks of a live candle have the prices of its five minutes
  live : ∀ c ∈ live, ∀ ticks, (c, ticks) ∈ s.agg.completed.zip s.built →
    SameOhlc (ticks.map AcceptedTick.price) (pricesIn market c.datetime)

section Last
variable (increasing : rest.Pairwise fun a b => a.datetime < b.datetime)
include increasing

theorem enough_iff : Enough rest md.liveCandles now ↔
    supertrendPeriod + 2 ≤ (md.mergeLiveCandles rest).length ∧
      ∃ c ∈ md.mergeLiveCandles rest, dateOf c.datetime ≠ dateOf now := by
  have distinct := increasing.imp ne_of_lt
  rw [length_mergeLiveCandles distinct]
  constructor
  · rintro ⟨rows, c, mem, other⟩
    refine ⟨rows, ?_⟩
    by_cases replaced : ∃ l ∈ md.liveCandles, l.datetime = c.datetime
    · obtain ⟨l, live, same⟩ := replaced
      exact ⟨l, (mem_mergeLiveCandles distinct).mpr (.inl live), same ▸ other⟩
    · push Not at replaced
      refine ⟨c, (mem_mergeLiveCandles distinct).mpr ?_, other⟩
      exact (mem_append.mp mem).symm.imp_right fun old => ⟨old, replaced⟩
  · rintro ⟨rows, c, mem, other⟩
    refine ⟨rows, c, mem_append.mpr ?_, other⟩
    exact ((mem_mergeLiveCandles distinct).mp mem).symm.imp_left And.left

/-- The last row is a REST bar exactly if that is the last one and later than the live candles. -/
theorem getLast?_mergeLiveCandles {r : Candle} (notLive : r ∉ md.liveCandles) :
    (md.mergeLiveCandles rest).getLast? = some r ↔
      rest.getLast? = some r ∧ ∀ l ∈ md.liveCandles, l.datetime < r.datetime := by
  have member : ∀ {c}, c ∈ md.mergeLiveCandles rest ↔ c ∈ md.liveCandles ∨
      c ∈ rest ∧ ∀ l ∈ md.liveCandles, l.datetime ≠ c.datetime :=
    mem_mergeLiveCandles (increasing.imp ne_of_lt)
  rw [getLast?_eq_some_of_increasing (mergeLiveCandles_increasing increasing),
    getLast?_eq_some_of_increasing increasing, member]
  constructor
  · rintro ⟨live | ⟨mem, kept⟩, bound⟩
    · exact absurd live notLive
    · have later : ∀ l ∈ md.liveCandles, l.datetime < r.datetime := fun l live =>
        lt_of_le_of_ne (bound l (member.mpr (.inl live))) (kept l live)
      refine ⟨⟨mem, fun b old => ?_⟩, later⟩
      by_cases replaced : ∃ l ∈ md.liveCandles, l.datetime = b.datetime
      · obtain ⟨l, live, same⟩ := replaced
        exact same ▸ (later l live).le
      · push Not at replaced
        exact bound b (member.mpr (.inr ⟨old, replaced⟩))
  · rintro ⟨⟨mem, bound⟩, later⟩
    refine ⟨.inr ⟨mem, fun l live => (later l live).ne⟩, fun b among => ?_⟩
    rcases member.mp among with live | ⟨old, -⟩
    · exact (later b live).le
    · exact bound b old

end Last

theorem sound_iff_adequate (served : md.getCandles asked answered fetched = some (frame, md'))
    (answer : md'.restCache = some rest)
    (increasing : rest.Pairwise fun a b => a.datetime < b.datetime)
    (honest : Served market fetchedAt rest)
    (path : run stepped (.begin 5) events = some s) (notAfter : ∀ e ∈ events, NotAfter now e)
    (stream : md'.stream = some s.agg ∨ md'.stream = none) :
    Sound market now frame ↔ Adequate market now fetchedAt rest md'.liveCandles s := by
  obtain ⟨rest', cached, -, rfl⟩ := getCandles_eq served
  rw [answer] at cached
  cases cached
  have tracks := tracks_run path
  have timely := timely_run path notAfter
  have member : ∀ {c}, c ∈ md'.mergeLiveCandles rest ↔ c ∈ md'.liveCandles ∨
      c ∈ rest ∧ ∀ l ∈ md'.liveCandles, l.datetime ≠ c.datetime :=
    mem_mergeLiveCandles (increasing.imp ne_of_lt)
  constructor
  · intro sound
    refine ⟨?_, ?_, ?_⟩
    · intro r isLast later isToday enough
      obtain ⟨rows, days⟩ := (enough_iff increasing).mp enough
      have last := (getLast?_mergeLiveCandles increasing fun live => (later r live).false).mpr
        ⟨isLast, later⟩
      obtain ⟨reading, used, rfl⟩ := exists_reading_iff.mpr ⟨rows, last, isToday, days⟩
      exact sound.ended reading used
    · intro r mem kept
      exact (IsOhlc.same_iff (honest r mem)).mp (sound.complete r (member.mpr (.inr ⟨mem, kept⟩)))
    · intro c mem ticks pair
      have made : Summarizes c ticks := (List.forall₂_iff_zip.mp tracks.completed).2 pair
      exact (IsOhlc.same_iff made).mp (sound.complete c (member.mpr (.inl mem)))
  · intro adequate
    constructor
    · intro reading used
      obtain ⟨rows, last, isToday, days⟩ := exists_reading_iff.mp ⟨reading, used, rfl⟩
      by_cases live : reading.candle ∈ md'.liveCandles
      · exact timely.ended _ (mem_liveCandles tracks stream live)
      · obtain ⟨isLast, later⟩ := (getLast?_mergeLiveCandles increasing live).mp last
        exact adequate.ended _ isLast later isToday ((enough_iff increasing).mpr ⟨rows, days⟩)
    · intro c mem
      rcases member.mp mem with live | ⟨mem, kept⟩
      · obtain ⟨ticks, pair, made⟩ :=
          exists_zip_of_forall₂ tracks.completed (mem_liveCandles tracks stream live)
        exact (IsOhlc.same_iff made).mpr (adequate.live c live ticks pair)
      · exact (IsOhlc.same_iff (honest c mem)).mpr (adequate.rest c mem kept)

end Merged

def tradeAt (day minute : Int) (price : ℚ) : Trade :=
  ⟨day * oneDay + minute * oneMinute + oneMinute / 2, price⟩

def restBar (t : Trade) : Candle := ⟨floorToBucket t.time 5, t.price, t.price, t.price, t.price, 0⟩

def thursday : List Trade :=
  [555, 560, 565, 570, 575, 580, 585, 590].map fun minute => tradeAt 20400 minute 100

def friday : List Trade := [tradeAt 20401 590 101, tradeAt 20401 595 102]

def fridayAt (minute : Int) : Int := 20401 * oneDay + minute * oneMinute

theorem served_of_single {market : List Trade} {time : Int} {rest : List Candle}
    (single : ∀ r ∈ rest, pricesIn (market.filter fun t => t.time ≤ time) r.datetime = [r.close] ∧
      r.opening = r.close ∧ r.high = r.close ∧ r.low = r.close) : Served market time rest := by
  intro r mem
  obtain ⟨prices, opening, high, low⟩ := single r mem
  rw [Covers, prices, opening, high, low]
  exact IsOhlc.singleton r.close

def tenOClockStream : List StreamEvent :=
  [.addTick ⟨some 103, some (fridayAt 602), none⟩ (fridayAt 602), .finalizeDue (fridayAt 605)]

def fiveToTen : List Candle := (thursday ++ friday).map restBar

def quietMarket : List Trade := thursday ++ friday ++ [⟨fridayAt 602, 103⟩]

def streamed : MarketData := { stream := some (tenOClockStream.foldl CandleAggregator.step (.create 5)) }

theorem sound_with_whole_bars :
    ∃ frame md', streamed.getCandles 0 0 (some fiveToTen) = some (frame, md') ∧
      frame.getLast?.map Candle.datetime = some (fridayAt 600) ∧
      Sound quietMarket (fridayAt 605) frame := by
  have path : run stepped (.begin 5) tenOClockStream =
      some (tenOClockStream.foldl Session.step (.begin 5)) := rfl
  have honest : Served quietMarket (fridayAt 600) fiveToTen :=
    served_of_single (by decide +kernel)
  have served : streamed.getCandles 0 0 (some fiveToTen) =
      some (({ streamed with restCache := some fiveToTen } : MarketData).mergeLiveCandles fiveToTen,
        { streamed with restCache := some fiveToTen }) := rfl
  refine ⟨_, _, served, by decide +kernel, ?_⟩
  refine (sound_iff_adequate served rfl (by decide +kernel) honest path ?_ (.inl ?_)).mpr ⟨?_, ?_, ?_⟩
  · simp [tenOClockStream, NotAfter, fridayAt, oneMinute]
  · rfl
  · have ended : ∀ r ∈ fiveToTen, r.datetime + fiveMinutes ≤ fridayAt 605 := by decide +kernel
    exact fun r isLast _ _ _ => ended r (mem_of_getLast? isLast)
  · have same : ∀ r ∈ fiveToTen, pricesIn (quietMarket.filter fun t => t.time ≤ fridayAt 600)
        r.datetime = pricesIn quietMarket r.datetime := by decide +kernel
    intro r mem _
    rw [same r mem]
    exact fun _ _ _ _ => Iff.rfl
  · have same : ∀ pair ∈ (tenOClockStream.foldl Session.step (.begin 5)).agg.completed.zip
        (tenOClockStream.foldl Session.step (.begin 5)).built,
        pair.2.map AcceptedTick.price = pricesIn quietMarket pair.1.datetime := by decide +kernel
    intro c _ ticks pair
    rw [same (c, ticks) pair]
    exact fun _ _ _ _ => Iff.rfl

theorem forming_rest_bar_is_used :
    ∃ market rest, Served market (fridayAt 602) rest ∧
      ({ stream := some (.create 5) } : MarketData).getCandles 0 0 (some rest) =
        some (rest, { stream := some (.create 5), restCache := some rest }) ∧
      (readSignals rest (fridayAt 602)).toOption.map (fun reading => reading.candle.datetime) =
        some (fridayAt 600) ∧
      fridayAt 602 < fridayAt 600 + fiveMinutes :=
  ⟨thursday ++ friday ++ [tradeAt 20401 600 100, tradeAt 20401 603 130],
    (thursday ++ friday ++ [tradeAt 20401 600 100]).map restBar,
    served_of_single (by decide +kernel), rfl, by decide +kernel, by decide⟩

end AlgoSystem.Proof.SupertrendPivot.ClosedBars

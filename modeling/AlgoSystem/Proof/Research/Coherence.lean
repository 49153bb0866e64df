import AlgoSystem.General.Sorted
import AlgoSystem.Proof.MarketData.Durability
import AlgoSystem.Proof.Research.Budget

namespace AlgoSystem.Proof.Research.Coherence
open General AlgoSystem.MarketData AlgoSystem.Research Proof.MarketData Budget List

variable {start last : Int} {settings : HistorySettings} {work : Backfill} {row : MarketCandle ℚ}

/-- What a provider knows of a series: the candles of each day, as they are at each time. Within a
session they may change in any way. -/
structure Feed (calendar : Calendar) (key : IndexKey) (interval : String) where
  known : (now day : Int) → List (Candle ℚ)
  series : ∀ now day, ∀ c ∈ known now day, c.symbol = key.1 ∧ c.interval = interval
  formed : ∀ now day, ∀ c ∈ known now day, wellFormed c = true
  session : ∀ now day, ∀ c ∈ known now day,
    startOfDay day ≤ c.timestamp ∧ c.timestamp ≤ Calendar.marketClose day
  increasing : ∀ now day, (known now day).Pairwise fun a b => a.timestamp < b.timestamp
  tradingDays : ∀ now day, calendar.isTradingDay day = false → known now day = []
  begun : ∀ now day, now < Calendar.marketOpen day → known now day = []
  settled : ∀ now day, Calendar.marketClose day ≤ now →
    known now day = known (Calendar.marketClose day) day

section
variable {calendar : Calendar} {key : IndexKey} {interval : String}

namespace Feed
variable (feed : Feed calendar key interval)

def final (day : Int) : List (Candle ℚ) := feed.known (Calendar.marketClose day) day

def provider (now : Int) : Provider := fun _ _ start last =>
  .answered (((daysBetween (start / oneDay) (last / oneDay)).flatMap (feed.known now)).filter
    fun c => start ≤ c.timestamp ∧ c.timestamp ≤ last)

end Feed

structure HistoryCall where
  now : Int
  settings : HistorySettings := {}
  start : Int
  last : Int
  cutoff : Option Int := none
  allowBackfill : Bool := true

def HistoryCall.request (call : HistoryCall) (key : IndexKey) (interval : String) :
    HistoryRequest where
  instrument := some key
  interval
  start := call.start
  last := call.last
  cutoff := call.cutoff
  allowBackfill := call.allowBackfill

def HistoryCall.span (call : HistoryCall) (key : IndexKey) (interval : String) : Span :=
  (call.request key interval).span key

def HistoryCall.clamped (call : HistoryCall) : Int := (call.request ("", "") "").clamped

def Feed.answer (feed : Feed calendar key interval) (table : List (MarketCandle ℚ))
    (call : HistoryCall) : Except CalendarError (HistoricalDataResult × Backfill) :=
  getHistoricalCandles calendar call.settings (feed.provider call.now) table
    (call.request key interval)

def Feed.tableAfter (feed : Feed calendar key interval) (table : List (MarketCandle ℚ))
    (call : HistoryCall) : List (MarketCandle ℚ) :=
  match feed.answer table call with
  | .ok (_, work) => work.table
  | .error _ => table

/-- The call does not fetch, or no session of its days is in progress. -/
def Quiet (calendar : Calendar) (call : HistoryCall) : Prop :=
  call.allowBackfill = true → ∀ day, call.start ≤ day → day ≤ call.clamped →
    calendar.isTradingDay day = true →
    call.now < Calendar.marketOpen day ∨ Calendar.marketClose day ≤ call.now

/-- The days of the call are covered and completed, and its budgets are large enough. -/
structure Completed (calendar : Calendar) (call : HistoryCall) : Prop where
  backfills : call.allowBackfill = true
  ordered : call.start ≤ call.last
  covered : ∀ day, call.start ≤ day → day ≤ call.clamped → calendar.covered day = true
  cutoff : ∀ cutoff ∈ call.cutoff, calendar.covered cutoff = true
  completed : ∀ day, call.start ≤ day → day ≤ call.clamped →
    calendar.isTradingDay day = true → Calendar.marketClose day ≤ call.now
  days : ((daysBetween call.start call.clamped).filter calendar.isTradingDay).length ≤
    call.settings.maxBackfillDays
  calls : ((daysBetween call.start call.clamped).filter calendar.isTradingDay).length ≤
    call.settings.maxProviderCalls

variable {feed : Feed calendar key interval} {now day : Int} {c : Candle ℚ}

theorem session_day (mem : c ∈ feed.known now day) :
    istDate c.timestamp = day ∧ startOfDay day ≤ c.timestamp ∧ c.timestamp ≤ endOfDay day := by
  obtain ⟨begins, closed⟩ := feed.session now day c mem
  simp only [Calendar.marketClose, istDate, localDate, startOfDay, endOfDay, oneDay, ist, combine,
    oneMinute] at *
  omega

theorem within_days (mem : c ∈ feed.known now day) (range : start ≤ day ∧ day ≤ last) :
    startOfDay start ≤ c.timestamp ∧ c.timestamp ≤ endOfDay last := by
  obtain ⟨-, lower, upper⟩ := session_day mem
  have first := startOfDay_le range.1
  have next := startOfDay_le (Int.add_le_add_right range.2 1)
  simp only [endOfDay] at *
  omega

theorem startOfDay_div (day : Int) : startOfDay day / oneDay = day := by
  simp only [startOfDay, oneDay, oneMinute]
  omega

theorem endOfDay_div (day : Int) : endOfDay day / oneDay = day := by
  simp only [endOfDay, startOfDay, oneDay, oneMinute]
  omega

theorem marketClose_mono {a b : Int} (order : a ≤ b) :
    Calendar.marketClose a ≤ Calendar.marketClose b := by
  simp only [Calendar.marketClose, combine, oneDay, oneMinute]
  omega

variable {span : Span}

theorem allows_session (mem : c ∈ feed.known now day)
    (cutoffs : ∀ cutoff ∈ span.cutoff, day ≤ cutoff) : span.allows c.timestamp = true := by
  rw [Span.allows, Option.all_eq_true]
  intro cutoff isCutoff
  have closed := (feed.session now day c mem).2
  exact decide_eq_true (closed.trans (marketClose_mono (cutoffs cutoff isCutoff)))

theorem provider_days (feed : Feed calendar key interval) (now runStart runEnd : Int)
    (fetch attempt : Nat) :
    feed.provider now fetch attempt (startOfDay runStart) (endOfDay runEnd) =
      .answered ((daysBetween runStart runEnd).flatMap (feed.known now)) := by
  rw [Feed.provider, startOfDay_div, endOfDay_div]
  congr 1
  rw [filter_eq_self]
  intro c mem
  obtain ⟨day, range, known⟩ := mem_flatMap.mp mem
  exact decide_eq_true (within_days known (mem_daysBetween.mp range))

theorem daysBetween_increasing (start last : Int) :
    (daysBetween start last).Pairwise (· < ·) := by
  refine pairwise_map.mpr (pairwise_lt_range.imp ?_)
  intro a b order
  omega

theorem known_increasing (feed : Feed calendar key interval) (time : Int → Int)
    (start last : Int) :
    ((daysBetween start last).flatMap fun day => feed.known (time day) day).Pairwise
      fun a b => a.timestamp < b.timestamp := by
  rw [pairwise_flatMap]
  refine ⟨fun day _ => feed.increasing (time day) day, ?_⟩
  refine (daysBetween_increasing start last).imp ?_
  intro a b order c left d right
  obtain ⟨-, -, upper⟩ := session_day left
  obtain ⟨-, lower, -⟩ := session_day right
  have next : startOfDay (a + 1) ≤ startOfDay b := startOfDay_le order
  simp only [endOfDay] at upper
  omega

variable {raw : List (Candle ℚ)}

theorem acceptCandles_eq_self {seen : List Int} (formed : ∀ c ∈ raw, wellFormed c = true)
    (new : ∀ c ∈ raw, c.timestamp ∉ seen)
    (increasing : raw.Pairwise fun a b => a.timestamp < b.timestamp) :
    acceptCandles seen raw = raw := by
  induction raw generalizing seen with
  | nil => rfl
  | cons c raw ih =>
    obtain ⟨first, later⟩ := pairwise_cons.mp increasing
    have rest : acceptCandles (c.timestamp :: seen) raw = raw := by
      refine ih (fun d mem => formed d (mem_cons_of_mem _ mem)) ?_ later
      intro d mem
      rw [mem_cons, not_or]
      refine ⟨?_, new d (mem_cons_of_mem _ mem)⟩
      have := first d mem
      omega
    rw [acceptCandles, formed c mem_cons_self, rest]
    simp [new c mem_cons_self]

theorem validateCandles_eq_self (formed : ∀ c ∈ raw, wellFormed c = true)
    (increasing : raw.Pairwise fun a b => a.timestamp < b.timestamp) :
    validateCandles raw = raw := by
  rw [validateCandles, acceptCandles_eq_self formed (by simp) increasing]
  exact (increasing.imp fun order => Int.le_of_lt order).insertionSort_eq

def InSeries (key : IndexKey) (interval : String) (row : MarketCandle ℚ) : Prop :=
  row.symbol = key.1 ∧ row.exchange = key.2 ∧ row.interval = interval

/-- The rows of the series are final candles, and all of their days. -/
structure Coherent (feed : Feed calendar key interval) (now : Int)
    (table : List (MarketCandle ℚ)) : Prop where
  keys : (table.map MarketCandle.key).Nodup
  origin : ∀ row ∈ table, InSeries key interval row →
    ∃ day, Calendar.marketClose day ≤ now ∧ ∃ c ∈ feed.final day, row = indexRow (key, c)
  complete : ∀ row ∈ table, InSeries key interval row →
    ∀ c ∈ feed.final (istDate row.timestamp), indexRow (key, c) ∈ table

variable {feed : Feed calendar key interval} {now : Int} {table : List (MarketCandle ℚ)}

theorem Coherent.later (coherent : Coherent feed now table) {time : Int} (order : now ≤ time) :
    Coherent feed time table := by
  refine { coherent with origin := ?_ }
  intro row mem isSeries
  obtain ⟨day, closed, final⟩ := coherent.origin row mem isSeries
  exact ⟨day, closed.trans order, final⟩

theorem indexRow_inSeries (mem : c ∈ feed.known now day) :
    InSeries key interval (indexRow (key, c)) :=
  ⟨rfl, rfl, (feed.series now day c mem).2⟩

theorem final_of_known (quiet : calendar.isTradingDay day = true →
      now < Calendar.marketOpen day ∨ Calendar.marketClose day ≤ now)
    (mem : c ∈ feed.known now day) : Calendar.marketClose day ≤ now ∧ c ∈ feed.final day := by
  cases trading : calendar.isTradingDay day with
  | false =>
    rw [feed.tradingDays now day trading] at mem
    cases mem
  | true =>
    obtain early | closed := quiet trading
    · rw [feed.begun now day early] at mem
      cases mem
    · rw [feed.settled now day closed] at mem
      exact ⟨closed, mem⟩

theorem final_eq_of_timestamp {day' : Int} {c' : Candle ℚ} (left : c ∈ feed.final day)
    (right : c' ∈ feed.final day') (same : c.timestamp = c'.timestamp) : c = c' := by
  obtain ⟨first, -⟩ := session_day left
  obtain ⟨second, -⟩ := session_day right
  obtain rfl : day = day' := by rw [← first, ← second, same]
  have distinct : ((feed.final day).map fun c => c.timestamp).Nodup :=
    pairwise_map.mpr ((feed.increasing _ day).imp fun order => Int.ne_of_lt order)
  exact inj_on_of_nodup_map distinct left right same

theorem fetch_coherent (coherent : Coherent feed now table)
    (whole : ∀ c ∈ raw, ∃ day, Calendar.marketClose day ≤ now ∧ c ∈ feed.final day ∧
      ∀ other ∈ feed.final day, other ∈ raw) :
    let table' := persistIndexCandles table (raw.map fun c => (key, c))
    Coherent feed now table' ∧ table <+: table' ∧ ∀ c ∈ raw, indexRow (key, c) ∈ table' := by
  intro table'
  have added := Durability.persistIndexCandles_added table (raw.map fun c => (key, c))
  have source : ∀ row ∈ table', row ∈ table ∨ ∃ c ∈ raw, row = indexRow (key, c) := by
    intro row mem
    obtain old | ⟨new, -⟩ := added.origin row mem
    · exact .inl old
    · obtain ⟨item, member, rfl⟩ := mem_map.mp new
      obtain ⟨c, isRaw, rfl⟩ := mem_map.mp member
      exact .inr ⟨c, isRaw, rfl⟩
  have origin : ∀ row ∈ table', InSeries key interval row →
      ∃ day, Calendar.marketClose day ≤ now ∧ ∃ c ∈ feed.final day, row = indexRow (key, c) := by
    intro row mem isSeries
    obtain old | ⟨c, isRaw, rfl⟩ := source row mem
    · exact coherent.origin row old isSeries
    · obtain ⟨day, closed, final, -⟩ := whole c isRaw
      exact ⟨day, closed, c, final, rfl⟩
  -- a row with the key of a fetched candle is the row of that candle
  have present : ∀ c ∈ raw, indexRow (key, c) ∈ table' := by
    intro c isRaw
    obtain ⟨day, closed, final, -⟩ := whole c isRaw
    have isRow : indexRow (key, c) ∈ (raw.map fun c => (key, c)).map indexRow :=
      mem_map_of_mem (mem_map_of_mem isRaw)
    obtain ⟨row, mem, same⟩ := mem_map.mp (added.present _ isRow rfl)
    simp only [MarketCandle.key, Prod.mk.injEq] at same
    obtain ⟨symbol, exchange, interval', timestamp⟩ := same
    have isSeries := indexRow_inSeries final
    obtain ⟨day', -, c', final', rfl⟩ := origin row mem
      ⟨symbol.trans isSeries.1, exchange.trans isSeries.2.1, interval'.trans isSeries.2.2⟩
    rw [final_eq_of_timestamp final final' timestamp.symm]
    exact mem
  refine ⟨⟨added.nodup coherent.keys, origin, ?_⟩, added.keeps, present⟩
  intro row mem isSeries c final
  obtain old | ⟨fetched, isRaw, rfl⟩ := source row mem
  · exact added.keeps.subset (coherent.complete row old isSeries c final)
  · obtain ⟨day, -, fetchedFinal, all⟩ := whole fetched isRaw
    have sameDay : istDate (indexRow (key, fetched)).timestamp = day :=
      (session_day fetchedFinal).1
    rw [sameDay] at final
    exact present c (all c final)

def knownIn (feed : Feed calendar key interval) (now : Int) (run : Int × Int) : List (Candle ℚ) :=
  (daysBetween run.1 run.2).flatMap (feed.known now)

def QuietRun (calendar : Calendar) (now : Int) (run : Int × Int) : Prop :=
  ∀ day, run.1 ≤ day → day ≤ run.2 → calendar.isTradingDay day = true →
    now < Calendar.marketOpen day ∨ Calendar.marketClose day ≤ now

variable {run : Int × Int}

theorem knownIn_whole (quiet : QuietRun calendar now run) (mem : c ∈ knownIn feed now run) :
    ∃ day, Calendar.marketClose day ≤ now ∧ c ∈ feed.final day ∧
      ∀ other ∈ feed.final day, other ∈ knownIn feed now run := by
  obtain ⟨day, range, known⟩ := mem_flatMap.mp mem
  obtain ⟨first, last⟩ := mem_daysBetween.mp range
  obtain ⟨closed, final⟩ := final_of_known (quiet day first last) known
  refine ⟨day, closed, final, ?_⟩
  intro other isFinal
  refine mem_flatMap.mpr ⟨day, range, ?_⟩
  rw [feed.settled now day closed]
  exact isFinal

theorem store_table (isKey : span.key = key) (cutoffs : ∀ cutoff ∈ span.cutoff, run.2 ≤ cutoff)
    (work : Backfill) :
    (work.store span (knownIn feed now run)).table =
      persistIndexCandles work.table ((knownIn feed now run).map fun c => (key, c)) := by
  have valid : validateCandles (knownIn feed now run) = knownIn feed now run := by
    refine validateCandles_eq_self ?_ (known_increasing feed (fun _ => now) run.1 run.2)
    intro c mem
    obtain ⟨day, -, known⟩ := mem_flatMap.mp mem
    exact feed.formed now day c known
  have allowed : (knownIn feed now run).filter (fun c => span.allows c.timestamp) =
      knownIn feed now run := by
    refine filter_eq_self.mpr ?_
    intro c mem
    obtain ⟨day, range, known⟩ := mem_flatMap.mp mem
    refine allows_session known fun cutoff isCutoff => ?_
    exact (mem_daysBetween.mp range).2.trans (cutoffs cutoff isCutoff)
  simp only [Backfill.store, valid, allowed, isKey]

theorem over_cons (span : Span) {runs : List (Int × Int)}
    (budget : work.calls < settings.maxProviderCalls) :
    ∃ next : Backfill, next.table = (work.store span (knownIn feed now run)).table ∧
      next.calls = work.calls + 1 ∧
      Backfill.over settings (feed.provider now) span (run :: runs) work =
        Backfill.over settings (feed.provider now) span runs next := by
  have fetched : fetchAttempts (fun attempt => feed.provider now work.calls attempt
      (startOfDay run.1) (endOfDay run.2)) connectionRetryAttempts 0 =
      ([.answered (knownIn feed now run)], .ok (knownIn feed now run)) := by
    simp only [provider_days]
    rfl
  rw [Backfill.over, if_neg (Nat.not_le.mpr budget)]
  simp only [fetched]
  refine ⟨_, ?_, ?_, rfl⟩
  · rfl
  · rfl

theorem over_coherent (isKey : span.key = key) (runs : List (Int × Int)) (work : Backfill)
    (coherent : Coherent feed now work.table) (quiet : ∀ run ∈ runs, QuietRun calendar now run)
    (cutoffs : ∀ run ∈ runs, ∀ cutoff ∈ span.cutoff, run.2 ≤ cutoff) :
    let after := Backfill.over settings (feed.provider now) span runs work
    Coherent feed now after.table ∧ work.table <+: after.table ∧
      (work.calls + runs.length ≤ settings.maxProviderCalls →
        ∀ run ∈ runs, ∀ c ∈ knownIn feed now run, indexRow (key, c) ∈ after.table) := by
  induction runs generalizing work with
  | nil => exact ⟨coherent, prefix_rfl, by simp⟩
  | cons run runs ih =>
    by_cases budget : work.calls < settings.maxProviderCalls
    · obtain ⟨next, stored, calls, continued⟩ := over_cons span budget
      rw [store_table isKey (cutoffs run mem_cons_self)] at stored
      obtain ⟨nextCoherent, kept, present⟩ := fetch_coherent coherent fun c mem =>
        knownIn_whole (quiet run mem_cons_self) mem
      rw [← stored] at nextCoherent kept present
      obtain ⟨last, grown, fetched⟩ := ih next nextCoherent
        (fun other mem => quiet other (mem_cons_of_mem _ mem))
        (fun other mem => cutoffs other (mem_cons_of_mem _ mem))
      rw [continued]
      refine ⟨last, kept.trans grown, ?_⟩
      intro enough other mem c known
      obtain rfl | later := mem_cons.mp mem
      · exact grown.subset (present c known)
      · refine fetched ?_ other later c known
        rw [length_cons] at enough
        omega
    · rw [Backfill.over, if_pos (Nat.not_lt.mp budget)]
      refine ⟨coherent, prefix_rfl, ?_⟩
      intro enough
      rw [length_cons] at enough
      omega

theorem rowCandle_indexRow (isKey : span.key = key) (isInterval : span.interval = interval)
    (mem : c ∈ feed.known now day) : rowCandle span (indexRow (key, c)) = c := by
  obtain ⟨symbol, interval'⟩ := feed.series now day c mem
  rw [rowCandle, isKey, isInterval, ← symbol, ← interval']
  rfl

theorem mem_queryDb :
    row ∈ queryDb table span ↔ row ∈ table ∧ InSeries span.key span.interval row ∧
      (startOfDay span.start ≤ row.timestamp ∧ row.timestamp ≤ endOfDay span.last) ∧
      span.allows row.timestamp = true := by
  rw [queryDb, mem_filter, mem_insertionSort, mem_filter, decide_eq_true_eq, InSeries]
  tauto

theorem queryDb_increasing (keys : (table.map MarketCandle.key).Nodup) (span : Span) :
    (queryDb table span).Pairwise fun a b => a.timestamp < b.timestamp := by
  refine List.Pairwise.filter _ ?_
  refine insertionSort_lt_of_nodup (f := fun row : MarketCandle ℚ => row.timestamp) ?_
  refine pairwise_map.mpr ?_
  have distinct := pairwise_map.mp keys
  refine (distinct.sublist filter_sublist).imp_of_mem ?_
  intro a b left right different same
  have first := of_decide_eq_true (mem_filter.mp left).2
  have second := of_decide_eq_true (mem_filter.mp right).2
  refine different ?_
  simp only [MarketCandle.key, first.1, first.2.1, first.2.2.1, second.1, second.2.1,
    second.2.2.1, same]

theorem queryDb_eq_final (isKey : span.key = key) (isInterval : span.interval = interval)
    (coherent : Coherent feed now table) (present : ∀ day, span.start ≤ day → day ≤ span.last →
      ∀ c ∈ feed.final day, indexRow (key, c) ∈ table)
    (cutoffs : ∀ cutoff ∈ span.cutoff, span.last ≤ cutoff) :
    (queryDb table span).map (rowCandle span) =
      (daysBetween span.start span.last).flatMap feed.final := by
  refine eq_of_pairwise_lt (f := fun c => c.timestamp) ?_
    (known_increasing feed Calendar.marketClose span.start span.last) ?_
  · exact pairwise_map.mpr (queryDb_increasing coherent.keys span)
  · intro c
    constructor
    · intro mem
      obtain ⟨row, selected, rfl⟩ := mem_map.mp mem
      obtain ⟨member, isSeries, ⟨lower, upper⟩, -⟩ := mem_queryDb.mp selected
      rw [isKey, isInterval] at isSeries
      obtain ⟨day, -, c, final, rfl⟩ := coherent.origin row member isSeries
      rw [rowCandle_indexRow isKey isInterval final]
      refine mem_flatMap.mpr ⟨day, mem_daysBetween.mpr ?_, final⟩
      obtain ⟨-, first, last⟩ := session_day final
      have time : (indexRow (key, c)).timestamp = c.timestamp := rfl
      simp only [time, startOfDay, endOfDay, oneDay, oneMinute] at *
      omega
    · intro mem
      obtain ⟨day, range, final⟩ := mem_flatMap.mp mem
      obtain ⟨first, last⟩ := mem_daysBetween.mp range
      have within := within_days final ⟨first, last⟩
      have allowed : span.allows c.timestamp = true :=
        allows_session final fun cutoff isCutoff => last.trans (cutoffs cutoff isCutoff)
      refine mem_map.mpr ⟨indexRow (key, c), mem_queryDb.mpr ?_,
        rowCandle_indexRow isKey isInterval final⟩
      rw [isKey, isInterval]
      exact ⟨present day first last c final, indexRow_inSeries final, within, allowed⟩

section Calls
variable {call : HistoryCall}

theorem clamped_le_cutoff {cutoff : Int} (isCutoff : cutoff ∈ call.cutoff) :
    call.clamped ≤ cutoff := by
  have given : call.cutoff = some cutoff := isCutoff
  simp only [HistoryCall.clamped, HistoryCall.request, HistoryRequest.clamped, given]
  split <;> omega

theorem answer_eq_ok {result : HistoricalDataResult}
    (returned : feed.answer table call = .ok (result, work)) :
    work.table = table ∨ ∃ missing,
      missingTradingDays calendar (queryDb table (call.span key interval))
        (call.span key interval) = .ok missing ∧
      call.allowBackfill = true ∧
      work = Backfill.over call.settings (feed.provider call.now) (call.span key interval)
        (contiguousRuns missing) { table } := by
  obtain ⟨rfl, -⟩ | ⟨own, instrument, -, ran⟩ := getHistoricalCandles_cases returned
  · exact .inl rfl
  · obtain rfl : key = own := Option.some.inj instrument
    obtain ⟨missing, found, -, rfl⟩ := runRequest_eq_ok ran
    by_cases allowed : ((call.request key interval).allowBackfill &&
        decide (missing.length ≤ call.settings.maxBackfillDays)) = true
    · rw [if_pos allowed]
      rw [Bool.and_eq_true] at allowed
      exact .inr ⟨missing, found, allowed.1, rfl⟩
    · exact .inl (by rw [if_neg allowed])

theorem tableAfter_coherent (coherent : Coherent feed call.now table)
    (quiet : Quiet calendar call) : Coherent feed call.now (feed.tableAfter table call) := by
  unfold Feed.tableAfter
  split
  next result work returned =>
    obtain same | ⟨missing, found, allowed, rfl⟩ := answer_eq_ok returned
    · rw [same]
      exact coherent
    · have isKey : (call.span key interval).key = key := rfl
      refine (over_coherent isKey (contiguousRuns missing) { table } coherent ?_ ?_).1
      · intro run mem day first last
        obtain ⟨lower, -, upper, -⟩ := runs_of_missing found mem
        exact quiet allowed day (lower.trans first) (last.trans upper)
      · intro run mem
        exact (runs_of_missing found mem).2.2.2
  · exact coherent

theorem run_coherent {calls : List HistoryCall} (coherent : Coherent feed start table)
    (increasing : (calls.map HistoryCall.now).Pairwise (· ≤ ·))
    (bounds : ∀ call ∈ calls, start ≤ call.now) (quiet : ∀ call ∈ calls, Quiet calendar call)
    (order : start ≤ last) (lasts : ∀ call ∈ calls, call.now ≤ last) :
    Coherent feed last (calls.foldl feed.tableAfter table) := by
  induction calls generalizing table start with
  | nil => exact coherent.later order
  | cons call calls ih =>
    obtain ⟨first, later⟩ := pairwise_cons.mp increasing
    have here := coherent.later (bounds call mem_cons_self)
    refine ih (tableAfter_coherent here (quiet call mem_cons_self)) later ?_ ?_
      (lasts call mem_cons_self) ?_
    · intro other mem
      exact first other.now (mem_map_of_mem mem)
    · intro other mem
      exact quiet other (mem_cons_of_mem _ mem)
    · intro other mem
      exact lasts other (mem_cons_of_mem _ mem)

theorem missing_of_covered (key : IndexKey) (interval : String)
    (covered : ∀ day, call.start ≤ day → day ≤ call.clamped →
      calendar.covered day = true) (order : call.start ≤ call.clamped)
    (rows : List (MarketCandle ℚ)) :
    ∃ missing, missingTradingDays calendar rows (call.span key interval) = .ok missing ∧
      missing.length ≤
        ((daysBetween call.start call.clamped).filter calendar.isTradingDay).length ∧
      ∀ day, call.start ≤ day → day ≤ call.clamped → calendar.isTradingDay day = true →
        day ∈ missing ∨ ∃ row ∈ rows, istDate row.timestamp = day := by
  have expected : calendar.tradingDaysInRange call.start call.clamped =
      .ok ((daysBetween call.start call.clamped).filter calendar.isTradingDay) := by
    have all : (daysBetween call.start call.clamped).all calendar.covered = true := by
      rw [all_eq_true]
      intro day mem
      obtain ⟨first, last⟩ := mem_daysBetween.mp mem
      exact covered day first last
    rw [Calendar.tradingDaysInRange, if_neg (Int.not_lt.mpr order), if_pos all]
  have days : calendar.tradingDaysInRange (call.span key interval).start
      (call.span key interval).last = _ := expected
  simp only [missingTradingDays, days]
  refine ⟨_, rfl, ?_, ?_⟩
  · exact (length_filter_le _ _).trans (length_filter_le _ _)
  · intro day first last trading
    by_cases have_day : day ∈ rows.map fun row => istDate row.timestamp
    · obtain ⟨row, mem, same⟩ := mem_map.mp have_day
      exact .inr ⟨row, mem, same⟩
    · refine .inl (mem_filter.mpr ⟨mem_filter.mpr ⟨mem_filter.mpr
        ⟨mem_daysBetween.mpr ⟨first, last⟩, trading⟩, decide_eq_true have_day⟩, ?_⟩)
      rw [Option.all_eq_true]
      intro cutoff isCutoff
      exact decide_eq_true (last.trans (clamped_le_cutoff isCutoff))

theorem trading_of_final {day : Int} {c : Candle ℚ} (final : c ∈ feed.final day) :
    calendar.isTradingDay day = true := by
  by_contra idle
  rw [Feed.final, feed.tradingDays _ day (Bool.eq_false_iff.mpr idle)] at final
  cases final

theorem final_stored (coherent : Coherent feed now table)
    (mem : row ∈ queryDb table (call.span key interval)) :
    ∀ c ∈ feed.final (istDate row.timestamp), indexRow (key, c) ∈ table := by
  obtain ⟨member, isSeries, -⟩ := mem_queryDb.mp mem
  exact coherent.complete row member isSeries

section
variable (coherent : Coherent feed call.now table) (completed : Completed calendar call)
include coherent completed

theorem backfill_of_completed {missing : List Int}
    (found : missingTradingDays calendar (queryDb table (call.span key interval))
      (call.span key interval) = .ok missing)
    (budget : missing.length ≤ call.settings.maxProviderCalls) :
    let after := Backfill.over call.settings (feed.provider call.now) (call.span key interval)
      (contiguousRuns missing) { table }
    Coherent feed call.now after.table ∧ table <+: after.table ∧
      ∀ day ∈ missing, ∀ c ∈ feed.final day, indexRow (key, c) ∈ after.table := by
  have isKey : (call.span key interval).key = key := rfl
  have quiet : ∀ run ∈ contiguousRuns missing, QuietRun calendar call.now run := by
    intro run mem day first last trading
    obtain ⟨lower, -, upper, -⟩ := runs_of_missing found mem
    exact .inr (completed.completed day (lower.trans first) (last.trans upper) trading)
  obtain ⟨after, grown, fetched⟩ := over_coherent isKey (contiguousRuns missing) { table } coherent
    quiet (fun run mem => (runs_of_missing found mem).2.2.2)
  refine ⟨after, grown, ?_⟩
  intro day isMissing c final
  obtain ⟨run, planned, lower, upper⟩ := contiguousRuns_covers isMissing
  obtain ⟨⟨first, last⟩, -⟩ := mem_missingTradingDays found isMissing
  refine fetched ?_ run planned c ?_
  · simpa using (contiguousRuns_length missing).trans budget
  · refine mem_flatMap.mpr ⟨day, mem_daysBetween.mpr ⟨lower, upper⟩, ?_⟩
    rw [feed.settled call.now day (completed.completed day first last (trading_of_final final))]
    exact final

theorem runRequest_of_completed (order : call.start ≤ call.clamped) :
    ∃ result work, runRequest calendar call.settings (feed.provider call.now) table
        (call.span key interval) call.allowBackfill = .ok (result, work) ∧
      result.candles = (daysBetween call.start call.clamped).flatMap feed.final := by
  obtain ⟨missing, found, count, absent⟩ := missing_of_covered key interval completed.covered order
    (queryDb table (call.span key interval))
  have stored : ∀ day, call.start ≤ day → day ≤ call.clamped → day ∉ missing →
      ∀ c ∈ feed.final day, indexRow (key, c) ∈ table := by
    intro day first last present c final
    obtain isMissing | ⟨row, mem, rfl⟩ := absent day first last (trading_of_final final)
    · exact absurd isMissing present
    · exact final_stored coherent mem c final
  have answered : ∀ rows, Coherent feed call.now rows →
      (∀ day, call.start ≤ day → day ≤ call.clamped →
        ∀ c ∈ feed.final day, indexRow (key, c) ∈ rows) →
      (queryDb rows (call.span key interval)).map (rowCandle (call.span key interval)) =
        (daysBetween call.start call.clamped).flatMap feed.final := by
    intro rows whole present
    have isKey : (call.span key interval).key = key := rfl
    exact queryDb_eq_final isKey rfl whole present fun _ isCutoff => clamped_le_cutoff isCutoff
  by_cases empty : missing = []
  · rw [empty] at found stored
    simp only [runRequest, found]
    refine ⟨_, _, rfl, answered table coherent ?_⟩
    intro day first last
    exact stored day first last (by simp)
  · obtain ⟨after, grown, fetched⟩ := backfill_of_completed coherent completed found
      (count.trans completed.calls)
    generalize isWork : Backfill.over call.settings (feed.provider call.now)
      (call.span key interval) (contiguousRuns missing) { table } = work at after grown fetched
    obtain ⟨left, again, -⟩ := missing_of_covered key interval completed.covered order
      (queryDb work.table (call.span key interval))
    have fetches : (!missing.isEmpty && call.allowBackfill &&
        decide (missing.length ≤ call.settings.maxBackfillDays)) = true := by
      simp [empty, completed.backfills, count.trans completed.days]
    simp only [runRequest, found, fetches, if_true, isWork, again]
    refine ⟨_, _, rfl, answered work.table after ?_⟩
    intro day first last c final
    by_cases isMissing : day ∈ missing
    · exact fetched day isMissing c final
    · exact grown.subset (stored day first last isMissing c final)

theorem answer_of_completed :
    ∃ result work, feed.answer table call = .ok (result, work) ∧
      result.candles = (daysBetween call.start call.clamped).flatMap feed.final := by
  by_cases order : call.start ≤ call.clamped
  · obtain ⟨result, work, ran, candles⟩ := runRequest_of_completed coherent completed order
    refine ⟨result, work, ?_, candles⟩
    have notEarly : ¬ (call.request key interval).clamped < call.start := Int.not_lt.mpr order
    unfold Feed.answer getHistoricalCandles
    simp only [HistoryCall.request] at notEarly ran ⊢
    split
    next cutoff given =>
      rw [completed.cutoff cutoff given]
      simp only [Bool.not_true, Bool.false_eq_true, if_false]
      exact (if_neg notEarly).trans ran
    · exact ran
  · -- the cutoff is before the request
    have early : call.clamped < call.start := Int.not_le.mp order
    have noDays : daysBetween call.start call.clamped = [] := by
      rw [daysBetween, Int.toNat_of_nonpos (by omega)]
      rfl
    have isEarly : (call.request key interval).clamped < call.start := early
    cases given : call.cutoff with
    | none =>
      have whole : call.clamped = call.last := by
        simp only [HistoryCall.clamped, HistoryCall.request, HistoryRequest.clamped, given]
      rw [whole] at early
      exact absurd completed.ordered (Int.not_le.mpr early)
    | some cutoff =>
      unfold Feed.answer getHistoricalCandles
      simp only [HistoryCall.request, given, completed.cutoff cutoff given] at isEarly ⊢
      rw [noDays]
      simp only [Bool.not_true, Bool.false_eq_true, if_false]
      exact ⟨_, _, if_pos isEarly, rfl⟩

end

end Calls

theorem returns_final (feed : Feed calendar key interval) (table : List (MarketCandle ℚ))
    (keys : (table.map MarketCandle.key).Nodup)
    (unrecorded : ∀ row ∈ table, ¬ InSeries key interval row) (earlier : List HistoryCall)
    (call : HistoryCall)
    (increasing : ((earlier ++ [call]).map HistoryCall.now).Pairwise (· ≤ ·))
    (quiet : ∀ call ∈ earlier, Quiet calendar call) (completed : Completed calendar call) :
    ∃ result work, feed.answer (earlier.foldl feed.tableAfter table) call = .ok (result, work) ∧
      result.candles = (daysBetween call.start call.clamped).flatMap feed.final := by
  refine answer_of_completed ?_ completed
  rw [map_append, pairwise_append] at increasing
  obtain ⟨sorted, -, before⟩ := increasing
  have lasts : ∀ other ∈ earlier, other.now ≤ call.now :=
    fun other mem => before other.now (mem_map_of_mem mem) call.now (by simp)
  have fresh : ∀ time, Coherent feed time table := by
    intro time
    refine ⟨keys, ?_, ?_⟩ <;>
      exact fun row mem isSeries => absurd isSeries (unrecorded row mem)
  cases earlier with
  | nil => exact fresh call.now
  | cons first rest =>
    obtain ⟨later, -⟩ := pairwise_cons.mp sorted
    refine run_coherent (fresh first.now) sorted ?_ quiet (lasts first mem_cons_self) lasts
    intro other mem
    obtain rfl | behind := mem_cons.mp mem
    · exact le_rfl
    · exact later other.now (mem_map_of_mem behind)

end

section Cases

def niftyBar (minutes : Int) (opening high low close : ℚ) : Candle ℚ where
  symbol := "NIFTY"
  interval := "5minute"
  timestamp := Calendar.marketOpen 20718 + minutes * oneMinute
  opening
  high
  low
  close
  volume := none
  oi := none

def barsAt (now : Int) : List (Candle ℚ) :=
  if now < Calendar.marketOpen 20718 then []
  else if now < Calendar.marketClose 20718 then [niftyBar 0 100 101 99 101]
  else [niftyBar 0 100 105 99 104, niftyBar 5 104 106 103 103]

def knownBars (now day : Int) : List (Candle ℚ) := if day = 20718 then barsAt now else []

def sampleBars : List (Candle ℚ) :=
  [niftyBar 0 100 101 99 101, niftyBar 0 100 105 99 104, niftyBar 5 104 106 103 103]

theorem mem_sampleBars : ∀ c ∈ sampleBars, (c.symbol = "NIFTY" ∧ c.interval = "5minute") ∧
    wellFormed c = true ∧
      startOfDay 20718 ≤ c.timestamp ∧ c.timestamp ≤ Calendar.marketClose 20718 := by
  decide +kernel

section
variable {now day : Int}

theorem mem_knownBars {c : Candle ℚ} (mem : c ∈ knownBars now day) :
    day = 20718 ∧ c ∈ sampleBars := by
  unfold knownBars barsAt at mem
  split_ifs at mem with same <;> simp_all [sampleBars]

theorem knownBars_increasing :
    (knownBars now day).Pairwise fun a b => a.timestamp < b.timestamp := by
  unfold knownBars barsAt
  split_ifs <;> simp [niftyBar, oneMinute]

theorem knownBars_idle (idle : nse.isTradingDay day = false) : knownBars now day = [] := by
  refine if_neg ?_
  rintro rfl
  revert idle
  decide +kernel

theorem knownBars_early (early : now < Calendar.marketOpen day) : knownBars now day = [] := by
  unfold knownBars barsAt
  split_ifs <;> simp_all

theorem knownBars_settled (closed : Calendar.marketClose day ≤ now) :
    knownBars now day = knownBars (Calendar.marketClose day) day := by
  unfold knownBars
  split
  next same =>
    subst same
    have opened : ¬ now < Calendar.marketOpen 20718 := by
      simp only [Calendar.marketOpen, Calendar.marketClose, combine, oneMinute] at *
      omega
    rw [barsAt, if_neg opened, if_neg (Int.not_lt.mpr closed)]
    decide +kernel
  · rfl

end

def oneSession : Feed nse ("NIFTY", "NSE") "5minute" where
  known := knownBars
  series _ _ c mem := (mem_sampleBars c (mem_knownBars mem).2).1
  formed _ _ c mem := (mem_sampleBars c (mem_knownBars mem).2).2.1
  session _ _ c mem :=
    (mem_knownBars mem).1 ▸ (mem_sampleBars c (mem_knownBars mem).2).2.2
  increasing _ _ := knownBars_increasing
  tradingDays _ _ := knownBars_idle
  begun _ _ := knownBars_early
  settled _ _ := knownBars_settled

def callAt (minutes : Int) : HistoryCall where
  now := Calendar.marketOpen 20718 + minutes * oneMinute
  start := 20718
  last := 20718

theorem callAt_completed : Completed nse (callAt 400) where
  backfills := rfl
  ordered := le_rfl
  covered := by
    intro day first last
    obtain rfl : day = 20718 := le_antisymm last first
    decide
  cutoff := by simp [callAt]
  completed := by
    intro day first last _
    obtain rfl : day = 20718 := le_antisymm last first
    decide
  days := by decide
  calls := by decide

theorem early_call_returns_final : ∃ result work,
    oneSession.answer ([callAt (-10)].foldl oneSession.tableAfter []) (callAt 400) =
      .ok (result, work) ∧
    result.candles = [niftyBar 0 100 105 99 104, niftyBar 5 104 106 103 103] := by
  have early : Quiet nse (callAt (-10)) := by
    intro _ day first last _
    obtain rfl : day = 20718 := le_antisymm last first
    decide
  have final := returns_final oneSession [] nodup_nil (by simp) [callAt (-10)] (callAt 400)
    (pairwise_pair.mpr (by decide)) (by simpa using early) callAt_completed
  have bars : (daysBetween (callAt 400).start (callAt 400).clamped).flatMap oneSession.final =
      [niftyBar 0 100 105 99 104, niftyBar 5 104 106 103 103] := by decide +kernel
  rwa [bars] at final

theorem session_call_hides_final : ∃ result work,
    oneSession.answer ([callAt 2].foldl oneSession.tableAfter []) (callAt 400) =
      .ok (result, work) ∧
    result.candles = [niftyBar 0 100 101 99 101] ∧
    oneSession.final 20718 = [niftyBar 0 100 105 99 104, niftyBar 5 104 106 103 103] := by
  have candles : (oneSession.answer ([callAt 2].foldl oneSession.tableAfter [])
      (callAt 400)).toOption.map (fun out => out.1.candles) =
      some [niftyBar 0 100 101 99 101] := by decide +kernel
  cases returned : oneSession.answer ([callAt 2].foldl oneSession.tableAfter [])
      (callAt 400) with
  | error error =>
    rw [returned] at candles
    cases candles
  | ok out =>
    rw [returned] at candles
    exact ⟨out.1, out.2, rfl, Option.some.inj candles, by decide +kernel⟩

end Cases

end AlgoSystem.Proof.Research.Coherence

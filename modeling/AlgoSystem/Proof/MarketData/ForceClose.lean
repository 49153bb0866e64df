import AlgoSystem.MarketData.Stopping
import AlgoSystem.Proof.MarketData.Candles

namespace AlgoSystem.Proof.MarketData
open AlgoSystem.MarketData General List

section Reopening
variable {P : Type} [LinearOrder P]

def Reopens (s : Series P) (tick : Tick P) : Prop :=
  s.accepts tick = true ∧ (∀ b ∈ s.current, b.minute < tick.minute) ∧
    ∃ b ∈ s.finished, b.minute = tick.minute

def InOrder (feed : Feed P) (sec : Section P) : Prop :=
  feed.closing.isSome → ∀ p ∈ sec.target, ¬ Reopens (feed.agg.series p.1) p.2

instance (s : Series P) (tick : Tick P) : Decidable (Reopens s tick) :=
  inferInstanceAs (Decidable (_ ∧ _ ∧ _))

instance (feed : Feed P) (sec : Section P) : Decidable (InOrder feed sec) :=
  inferInstanceAs (Decidable (_ → _))

def tickFor (key : SeriesKey) (sec : Section P) : Option (Tick P) :=
  sec.target.bind fun p => if key = p.1 then some p.2 else none

def opened (feed : Feed P) (key : SeriesKey) : List Int :=
  (feed.emitted.candles key).map Candle.timestamp ++
    (feed.agg.series key).held.map Bucket.minute

def startFeed (interval : String) : Feed P := { agg := { interval } }

def drain (feed : Feed P) : List (Section P) :=
  (if feed.closing.isSome then [.endForceClose] else []) ++ [.beginForceClose 0, .endForceClose]

end Reopening

variable {P : Type} [LinearOrder P]

variable {feed next : Feed P} {sec : Section P} {key : SeriesKey} {tick : Tick P}

theorem series_tick (target : tickFor key sec = some tick) (step : feed.step sec = some next) :
    next.agg.series key = (feed.agg.series key).add tick ∧ next.emitted = feed.emitted ∧
      next.closing = feed.closing := by
  cases sec with
  | onIndexTick symbol exchange t =>
    cases step
    have after := series_onIndexTick feed.agg symbol exchange t key
    rw [show (Call.onIndexTick symbol exchange t).tickFor key = some tick from target] at after
    exact ⟨after, rfl, rfl⟩
  | onOptionTick contractId t =>
    cases step
    have after := series_onOptionTick feed.agg contractId t key
    rw [show (Call.onOptionTick contractId t).tickFor key = some tick from target] at after
    exact ⟨after, rfl, rfl⟩
  | flush now | beginForceClose now | endForceClose => simp [tickFor, Section.target] at target

omit [LinearOrder P] in
theorem flush_candles (feed : Feed P) (now : Int) (key : SeriesKey) :
    (feed.flush now).emitted.candles key = feed.emitted.candles key ++
      ((feed.agg.series key).closeThrough (minuteStart now)).1.map
        (toCandle (candleSymbol key) feed.agg.interval) := by
  rw [Feed.flush, candles_append, candles_flush]

omit [LinearOrder P] in
theorem flush_opened (feed : Feed P) (now : Int) (key : SeriesKey) :
    opened (feed.flush now) key = opened feed key := by
  have buckets := congrArg (List.map Bucket.minute)
    (closeThrough_buckets (feed.agg.series key) (minuteStart now))
  rw [map_append] at buckets
  rw [opened, flush_candles, opened, ← buckets]
  simp [Feed.flush, series_flush, Function.comp_def, toCandle]

theorem series_quiet (quiet : tickFor key sec = none) (step : feed.step sec = some next) :
    (next.agg.series key = feed.agg.series key ∧ next.emitted = feed.emitted ∧
      next.closing = feed.closing) ∨
    (∃ now, sec = .flush now ∧ next = feed.flush now) ∨
    (∃ now, sec = .beginForceClose now ∧ feed.closing = none ∧
      next = { feed with agg := feed.agg.finishCurrent, closing := some now }) ∨
    (∃ now, sec = .endForceClose ∧ feed.closing = some now ∧
      next = { feed.flush (now + oneMinute) with closing := none }) := by
  cases sec with
  | onIndexTick symbol exchange tick =>
    cases step
    have after := series_onIndexTick feed.agg symbol exchange tick key
    rw [show (Call.onIndexTick symbol exchange tick).tickFor key = none from quiet] at after
    exact .inl ⟨after, rfl, rfl⟩
  | onOptionTick contractId tick =>
    cases step
    have after := series_onOptionTick feed.agg contractId tick key
    rw [show (Call.onOptionTick contractId tick).tickFor key = none from quiet] at after
    exact .inl ⟨after, rfl, rfl⟩
  | flush now =>
    cases step
    exact .inr (.inl ⟨now, rfl, rfl⟩)
  | beginForceClose now =>
    cases closing : feed.closing with
    | none =>
      simp only [Feed.step, closing, Option.some.injEq] at step
      exact .inr (.inr (.inl ⟨now, rfl, rfl, step.symm⟩))
    | some pending => simp [Feed.step, closing] at step
  | endForceClose =>
    cases closing : feed.closing with
    | none => simp [Feed.step, closing] at step
    | some now =>
      simp only [Feed.step, closing, Option.some.injEq] at step
      exact .inr (.inr (.inr ⟨now, rfl, rfl, step.symm⟩))

def OpensFor (feed : Feed P) (sec : Section P) (key : SeriesKey) (tick : Tick P) : Prop :=
  tickFor key sec = some tick ∧ (feed.agg.series key).accepts tick = true ∧
    ∀ b ∈ (feed.agg.series key).current, b.minute < tick.minute

theorem OpensFor.opened (opens : OpensFor feed sec key tick) (step : feed.step sec = some next) :
    opened next key = opened feed key ++ [tick.minute] := by
  obtain ⟨target, accepts, newer⟩ := opens
  obtain ⟨series, emitted, -⟩ := series_tick target step
  rcases (add_cases accepts).2 with ⟨current, add⟩ | ⟨b, current, minute, -⟩ | ⟨b, current, -, add⟩
  · simp [MarketData.opened, series, emitted, add, Series.held, current]
  · exact absurd minute (newer b current).ne'
  · simp [MarketData.opened, series, emitted, add, Series.held, current]

theorem step_opened (key : SeriesKey) (step : feed.step sec = some next) :
    opened next key = opened feed key ∨
    ∃ tick, OpensFor feed sec key tick ∧ opened next key = opened feed key ++ [tick.minute] := by
  cases target : tickFor key sec with
  | none =>
    refine .inl ?_
    rcases series_quiet target step with ⟨series, emitted, -⟩ | ⟨now, -, rfl⟩ |
      ⟨now, -, -, rfl⟩ | ⟨now, -, -, rfl⟩
    · simp [opened, series, emitted]
    · exact flush_opened feed now key
    · simp [opened, series_finishCurrent]
    · exact flush_opened feed _ key
  | some tick =>
    by_cases opens : OpensFor feed sec key tick
    · exact .inr ⟨tick, opens, opens.opened step⟩
    refine .inl ?_
    obtain ⟨series, emitted, -⟩ := series_tick target step
    cases accepts : (feed.agg.series key).accepts tick with
    | false => simp [opened, series, emitted, add_of_not_accepts accepts]
    | true =>
      rcases (add_cases accepts).2 with ⟨current, -⟩ | ⟨b, current, minute, add⟩ |
        ⟨b, current, newer, -⟩
      · exact absurd ⟨target, accepts, by simp [current]⟩ opens
      · simp [opened, series, emitted, add, Series.held, current]
      · exact absurd ⟨target, accepts, by simpa [current] using newer⟩ opens

theorem step_opened_grows (key : SeriesKey) (step : feed.step sec = some next) :
    opened feed key <+: opened next key := by
  rcases step_opened key step with same | ⟨tick, -, grown⟩
  · exact ⟨[], by rw [same, append_nil]⟩
  · exact ⟨[tick.minute], grown.symm⟩

structure SeriesMarked (series : Series P) (emitted : List (Candle P)) (closing : Option Int) :
    Prop where
  emitted : ∀ minute, IsClosed series.lastClosed minute ↔ ∃ c ∈ emitted, minute ≤ c.timestamp
  settled : closing = none → series.current = none → series.finished = []
  ordered : closing = none → ∀ b c, b ∈ series.finished → series.current = some c →
    b.minute < c.minute

def Watermarked (feed : Feed P) : Prop :=
  ∀ key, SeriesMarked (feed.agg.series key) (feed.emitted.candles key) feed.closing

omit [LinearOrder P] in
theorem startFeed_watermarked (interval : String) : Watermarked (startFeed interval : Feed P) := by
  intro key
  constructor <;> cases key <;>
    simp [startFeed, CandleAggregator.series, IsClosed, Emitted.candles]

omit [LinearOrder P] in
theorem flush_marked (marked : Watermarked feed) (now : Int) (key : SeriesKey)
    (closing : Option Int) :
    SeriesMarked ((feed.flush now).agg.series key) ((feed.flush now).emitted.candles key)
      closing := by
  have finished : ((feed.flush now).agg.series key).finished = [] := by
    simp [Feed.flush, series_flush, closeThrough_finished]
  refine ⟨?_, fun _ _ => finished, ?_⟩
  · intro minute
    rw [flush_candles]
    simp [Feed.flush, series_flush, closeThrough_lastClosed, isClosed_foldl, (marked key).emitted,
      or_and_right, exists_or, toCandle]
  · intro _ b c member
    simp [finished] at member

theorem add_marked {series : Series P} {emitted : List (Candle P)} {closing : Option Int}
    (marked : SeriesMarked series emitted closing) (tick : Tick P) :
    SeriesMarked (series.add tick) emitted closing := by
  cases accepts : series.accepts tick with
  | false =>
    rw [add_of_not_accepts accepts]
    exact marked
  | true =>
    obtain ⟨emits, settled, ordered⟩ := marked
    rcases (add_cases accepts).2 with ⟨current, add⟩ | ⟨b, current, minute, add⟩ |
      ⟨b, current, newer, add⟩ <;>
    · rw [add]
      refine ⟨emits, by simp, ?_⟩
      grind [Bucket.start, Bucket.update]

theorem step_watermarked (marked : Watermarked feed) (step : feed.step sec = some next) :
    Watermarked next := by
  intro key
  cases target : tickFor key sec with
  | some tick =>
    obtain ⟨series, emitted, closing⟩ := series_tick target step
    rw [series, emitted, closing]
    exact add_marked (marked key) tick
  | none =>
    rcases series_quiet target step with ⟨series, emitted, closing⟩ | ⟨now, -, rfl⟩ |
      ⟨now, -, -, rfl⟩ | ⟨now, -, -, rfl⟩
    · rw [series, emitted, closing]
      exact marked key
    · exact flush_marked marked now key _
    · refine ⟨?_, by simp, by simp⟩
      intro minute
      simpa [series_finishCurrent] using (marked key).emitted minute
    · exact flush_marked marked (now + oneMinute) key _

theorem opens_new_iff (marked : Watermarked feed) (opens : OpensFor feed sec key tick) :
    tick.minute ∈ opened feed key ↔
      feed.closing.isSome ∧ Reopens (feed.agg.series key) tick := by
  obtain ⟨target, accepts, newer⟩ := opens
  obtain ⟨emits, settled, ordered⟩ := marked key
  have notEmitted : ∀ c ∈ feed.emitted.candles key, c.timestamp ≠ tick.minute := by
    intro c member same
    exact (add_cases accepts).1 ((emits _).mpr ⟨c, member, same.ge⟩)
  constructor
  · intro member
    rcases mem_append.mp member with emitted | held
    · obtain ⟨c, present, same⟩ := mem_map.mp emitted
      exact absurd same (notEmitted c present)
    · obtain ⟨b, present, same⟩ := mem_map.mp held
      rcases mem_append.mp present with finished | current
      · refine ⟨?_, accepts, newer, b, finished, same⟩
        cases closing : feed.closing <;>
          cases current : (feed.agg.series key).current <;> grind
      · have bound := newer b (Option.mem_toList.mp current)
        omega
  · rintro ⟨-, -, -, b, finished, same⟩
    refine mem_append_right _ (mem_map.mpr ⟨b, ?_, same⟩)
    exact mem_append_left _ finished

omit [LinearOrder P] in
theorem tickFor_eq_some :
    tickFor key sec = some tick ↔ (key, tick) ∈ sec.target := by
  unfold tickFor
  cases sec.target with
  | none => simp
  | some p =>
    obtain ⟨k, t⟩ := p
    by_cases same : key = k <;> simp [same, eq_comm]

/-- A step keeps the opened minutes distinct exactly if it reopens none of them. -/
theorem step_nodup_iff (marked : Watermarked feed) (step : feed.step sec = some next) :
    (∀ key, (opened next key).Nodup) ↔ (∀ key, (opened feed key).Nodup) ∧ InOrder feed sec := by
  have grows (key : SeriesKey) := (step_opened_grows key step).sublist
  constructor
  · intro nodup
    refine ⟨fun key => (nodup key).sublist (grows key), ?_⟩
    rintro gap ⟨key, tick⟩ member reopens
    have target := tickFor_eq_some.mpr member
    have opens : OpensFor feed sec key tick := ⟨target, reopens.1, reopens.2.1⟩
    have old := (opens_new_iff marked opens).mpr ⟨gap, reopens⟩
    have distinct := nodup key
    rw [opens.opened step] at distinct
    exact (nodup_append.mp distinct).2.2 _ old _ (mem_singleton_self _) rfl
  · rintro ⟨nodup, inOrder⟩ key
    rcases step_opened key step with same | ⟨tick, opens, grown⟩
    · exact same ▸ nodup key
    · rw [grown]
      apply nodup_append.mpr ⟨nodup key, nodup_singleton _, ?_⟩
      rintro a member b last rfl
      rw [mem_singleton.mp last] at member
      obtain ⟨gap, reopens⟩ := (opens_new_iff marked opens).mp member
      exact inOrder gap (key, tick) (tickFor_eq_some.mp opens.1) reopens

theorem run_nodup_iff {sections : List (Section P)} {interval : String}
    (path : run Feed.step (startFeed interval) sections = some feed) :
    (∀ key, (opened feed key).Nodup) ↔ Meets Feed.step InOrder (startFeed interval) sections := by
  have empty : ∀ key, (opened (startFeed interval : Feed P) key).Nodup := by
    intro key
    cases key <;> exact nodup_nil
  rw [run_property_iff (fun _ _ _ => step_watermarked) (fun _ _ _ => step_nodup_iff) path
    (startFeed_watermarked interval)]
  exact and_iff_right empty

theorem drain_emits (feed : Feed P) (key : SeriesKey) :
    ∃ last, run Feed.step feed (drain feed) = some last ∧
      (last.emitted.candles key).map Candle.timestamp = opened feed key := by
  have complete : ∀ f : Feed P, f.closing = none →
      ∃ last, run Feed.step f [.beginForceClose 0, .endForceClose] = some last ∧
        (last.emitted.candles key).map Candle.timestamp = opened f key := by
    intro f idle
    let middle : Feed P := { f with agg := f.agg.finishCurrent, closing := some 0 }
    refine ⟨{ middle.flush (0 + oneMinute) with closing := none }, ?_, ?_⟩
    · simp [run, Feed.step, idle, middle]
    · have all := flush_opened middle (0 + oneMinute) key
      have held : ((middle.flush (0 + oneMinute)).agg.series key).held = [] := by
        have none : (middle.agg.series key).current = none := by
          simp [middle, series_finishCurrent]
        simp [Feed.flush, series_flush, Series.closeThrough, none, Series.held]
      have same : opened middle key = opened f key := by
        simp [opened, middle, series_finishCurrent]
      rw [← same, ← all, opened, held]
      simp
  cases closing : feed.closing with
  | none => simpa [drain, closing] using complete feed closing
  | some now =>
    let next : Feed P := { feed.flush (now + oneMinute) with closing := none }
    obtain ⟨last, path, emitted⟩ := complete next rfl
    refine ⟨last, ?_, ?_⟩
    · have first : feed.step .endForceClose = some next := by simp [Feed.step, closing, next]
      simpa [drain, closing, run_cons_eq_some, first] using path
    · rw [emitted]
      exact flush_opened feed (now + oneMinute) key

theorem forceClose_emits_once_iff (interval : String) (sections : List (Section P))
    (feed : Feed P) (path : run Feed.step (startFeed interval) sections = some feed) :
    (Meets Feed.step InOrder (startFeed interval) sections →
      ∀ key, ((feed.emitted.candles key).map Candle.timestamp).Nodup) ∧
    (Meets Feed.step InOrder (startFeed interval) sections ↔
      ∀ last, run Feed.step feed (drain feed) = some last →
        ∀ key, ((last.emitted.candles key).map Candle.timestamp).Nodup) := by
  rw [← run_nodup_iff path]
  refine ⟨?_, ?_, ?_⟩
  · intro nodup key
    exact (nodup_append.mp (nodup key)).1
  · intro nodup last rest key
    obtain ⟨same, rest', emitted⟩ := drain_emits feed key
    rw [rest] at rest'
    cases rest'
    exact emitted ▸ nodup key
  · intro emitted key
    obtain ⟨last, closes, all⟩ := drain_emits feed key
    exact all ▸ emitted last closes key

def gapTick (second price : Int) : Section Int := .onOptionTick 42 ⟨second * 1000000, price, none, none⟩

theorem forceClose_emits_twice :
    ∃ feed : Feed Int, run Feed.step (startFeed "1minute")
      [gapTick 0 100, .beginForceClose 10000000, gapTick 20 101, .endForceClose] = some feed ∧
      (feed.emitted.candles (.option 42)).map Candle.timestamp = [0, 0] ∧
      ¬ ((feed.emitted.candles (.option 42)).map Candle.timestamp).Nodup :=
  ⟨_, rfl, by decide, by decide⟩

theorem forceClose_emits_once_later_minute :
    ∃ feed : Feed Int, run Feed.step (startFeed "1minute")
      [gapTick 0 100, .beginForceClose 10000000, gapTick 70 101, .endForceClose] = some feed ∧
      ∀ key, ((feed.emitted.candles key).map Candle.timestamp).Nodup :=
  ⟨_, rfl, (forceClose_emits_once_iff "1minute"
    [gapTick 0 100, .beginForceClose 10000000, gapTick 70 101, .endForceClose] _ rfl).1 (by decide)⟩

end AlgoSystem.Proof.MarketData

import AlgoSystem.General.Runs
import AlgoSystem.MarketData.Persistence
import AlgoSystem.Proof.MarketData.Candles

namespace AlgoSystem.Proof.MarketData.Durability
open General AlgoSystem.MarketData Proof.MarketData List

variable {P : Type}

theorem persistIndexCandles_added (table : List (MarketCandle P))
    (items : List (IndexKey × Candle P)) :
    Added MarketCandle.key (fun _ => true) table (items.map indexRow)
      (persistIndexCandles table items) :=
  Added.addRows_newRows table _

variable (interval : String) (calls : List (Call P)) (contracts : List Int)

theorem hasContract_optionRow {contracts : List Int} {items : List (Int × Candle P)}
    (known : ∀ item ∈ items, item.1 ∈ contracts) :
    ∀ row ∈ items.map optionRow, row.hasContract contracts = true := by
  intro row mem
  obtain ⟨item, member, rfl⟩ := mem_map.mp mem
  exact contains_iff_mem.mpr (known item member)

theorem persistOptionCandles_admitted (table : List (OptionCandle P))
    (items : List (Int × Candle P)) :
    Added OptionCandle.key (·.hasContract contracts) table (items.map optionRow)
      (persistOptionCandles contracts table items) :=
  Added.addRows_newRows table _

/-- If the call emits candles, its `_persist` meets no database error and the contracts of the option
candles are in the table. -/
def Written [LinearOrder P] (pipeline : Pipeline P) : PipelineEvent P → Prop
  | .call call fault =>
    let out := (pipeline.agg.perform call).1
    out.isEmpty = true ∨
      fault = none ∧ ∀ item ∈ out.option, item.1 ∈ pipeline.db.contracts
  | .contract _ => True

instance [LinearOrder P] (pipeline : Pipeline P) :
    (event : PipelineEvent P) → Decidable (Written pipeline event)
  | .call _ _ => inferInstanceAs (Decidable (_ ∨ _ ∧ _))
  | .contract _ => .isTrue trivial

structure Holds (start : CandleDb P) (pipeline : Pipeline P) : Prop where
  index : Added MarketCandle.key (fun _ => true) start.marketCandles
    (pipeline.emitted.index.map indexRow) pipeline.db.marketCandles
  option : Added OptionCandle.key (fun _ => true) start.optionCandles
    (pipeline.emitted.option.map optionRow) pipeline.db.optionCandles

theorem isEmpty_iff {out : Emitted P} : out.isEmpty = true ↔ out = {} := by
  cases out
  simp [Emitted.isEmpty]

theorem append_empty (out : Emitted P) : out.append {} = out := by
  cases out
  simp [Emitted.append]

theorem empty_append (out : Emitted P) : Emitted.append {} out = out := by
  cases out
  simp [Emitted.append]

theorem append_assoc (a b c : Emitted P) : (a.append b).append c = a.append (b.append c) := by
  simp [Emitted.append]

variable [LinearOrder P]

theorem step_holds (start : CandleDb P) (pipeline : Pipeline P) (event : PipelineEvent P)
    (after : Pipeline P) (holds : Holds start pipeline) (written : Written pipeline event)
    (stepped : pipeline.step event = some after) : Holds start after := by
  cases event with
  | contract id =>
    cases stepped
    exact ⟨holds.index, holds.option⟩
  | call call fault =>
    cases stepped
    simp only [Pipeline.perform]
    by_cases empty : (pipeline.agg.perform call).1.isEmpty = true
    · have unchanged : pipeline.db.persist (pipeline.agg.perform call).1 fault = pipeline.db :=
        if_pos empty
      rw [unchanged, isEmpty_iff.mp empty, append_empty]
      exact ⟨holds.index, holds.option⟩
    · obtain ⟨rfl, known⟩ := written.resolve_left empty
      have index := holds.index.trans (persistIndexCandles_added pipeline.db.marketCandles
        (pipeline.agg.perform call).1.index)
      have admitted := persistOptionCandles_admitted pipeline.db.contracts
        pipeline.db.optionCandles (pipeline.agg.perform call).1.option
      have option := holds.option.trans (admitted.of_admits (hasContract_optionRow known))
      rw [← map_append] at index option
      rw [CandleDb.persist, if_neg empty]
      exact ⟨index, option⟩

def callsOf (events : List (PipelineEvent P)) : List (Call P) :=
  events.filterMap fun
    | .call call _ => some call
    | .contract _ => none

theorem run_emitted {pipeline after : Pipeline P} {events : List (PipelineEvent P)}
    (path : run Pipeline.step pipeline events = some after) :
    after.emitted = pipeline.emitted.append (pipeline.agg.performAll (callsOf events)).1 := by
  induction events generalizing pipeline with
  | nil =>
    cases path
    exact (append_empty _).symm
  | cons event events ih =>
    obtain ⟨next, stepped, rest⟩ := run_cons_eq_some.mp path
    cases event with
    | contract id =>
      cases stepped
      have same := ih rest
      exact same
    | call call fault =>
      cases stepped
      rw [ih rest]
      exact append_assoc _ _ _

theorem candles_nodup (key : SeriesKey) :
    (((({ interval } : CandleAggregator P).performAll calls).1.candles key).map
      Candle.timestamp).Nodup := by
  obtain ⟨increasing, -⟩ := performAll_candles interval calls key
  exact pairwise_map.mpr (increasing.imp fun before => before.ne)

theorem indexRow_nodup :
    (((({ interval } : CandleAggregator P).performAll calls).1.index.map indexRow).map
      MarketCandle.key).Nodup := by
  have entries := nodup_map_of_filterMap (f := Candle.timestamp) fun k : IndexKey =>
    candles_nodup interval calls (.index k.1 k.2)
  refine List.Nodup.of_map (fun k => ((k.1, k.2.1), k.2.2.2)) ?_
  simpa [map_map, Function.comp_def, indexRow, MarketCandle.key] using entries

theorem optionRow_nodup :
    (((({ interval } : CandleAggregator P).performAll calls).1.option.map optionRow).map
      OptionCandle.key).Nodup := by
  have entries := nodup_map_of_filterMap (f := Candle.timestamp) fun k : Int =>
    candles_nodup interval calls (.option k)
  simpa [map_map, Function.comp_def, optionRow, OptionCandle.key] using entries

/-- Every candle that was emitted has one row, which holds it unless a row with its key was there
before, and the rows of the start are unchanged. -/
structure Stored (start : CandleDb P) (pipeline : Pipeline P) : Prop where
  index : ∀ item ∈ pipeline.emitted.index, ∃ row,
    (pipeline.db.marketCandles.filter fun other => other.key = (indexRow item).key) = [row] ∧
      (row = indexRow item ∨ row ∈ start.marketCandles)
  option : ∀ item ∈ pipeline.emitted.option, ∃ row,
    (pipeline.db.optionCandles.filter fun other => other.key = (optionRow item).key) = [row] ∧
      (row = optionRow item ∨ row ∈ start.optionCandles)
  keepsIndex : start.marketCandles <+: pipeline.db.marketCandles
  keepsOption : start.optionCandles <+: pipeline.db.optionCandles

theorem stored_of_written (interval : String) (start : CandleDb P)
    (indexKeys : (start.marketCandles.map MarketCandle.key).Nodup)
    (optionKeys : (start.optionCandles.map OptionCandle.key).Nodup)
    {events : List (PipelineEvent P)} {after : Pipeline P}
    (path : run Pipeline.step { agg := { interval }, db := start } events = some after)
    (written : Meets Pipeline.step Written { agg := { interval }, db := start } events) :
    Stored start after := by
  have holds := run_invariant_of_meets (step_holds start) path written
    ⟨Added.refl _, Added.refl _⟩
  have emitted : after.emitted =
      (({ interval } : CandleAggregator P).performAll (callsOf events)).1 := by
    rw [run_emitted path]
    exact empty_append _
  refine ⟨?_, ?_, holds.index.keeps, holds.option.keeps⟩
  · intro item mem
    refine holds.index.filter_key indexKeys (mem_map_of_mem mem) ?_
    intro row member same
    rw [emitted] at mem member
    exact inj_on_of_nodup_map (indexRow_nodup interval _) member
      (mem_map_of_mem mem) same
  · intro item mem
    refine holds.option.filter_key optionKeys (mem_map_of_mem mem) ?_
    intro row member same
    rw [emitted] at mem member
    exact inj_on_of_nodup_map (optionRow_nodup interval _) member
      (mem_map_of_mem mem) same

theorem tables_of_calls (interval : String) {contracts : List Int} (calls : List (Call P))
    (known : ∀ call ∈ calls, ∀ id tick, call.tickFor (.option id) = some tick → id ∈ contracts) :
    let after := (calls.map fun call => .call call none).foldl Pipeline.perform
      { agg := { interval }, db := { contracts } }
    let out := ({ interval } : CandleAggregator P).performAll calls
    after.agg = out.2 ∧ after.db.contracts = contracts ∧
      after.db.marketCandles = out.1.index.map indexRow ∧
      after.db.optionCandles = out.1.option.map optionRow := by
  induction calls using List.reverseRecOn with
  | nil => exact ⟨rfl, rfl, rfl, rfl⟩
  | append_singleton calls call ih =>
    obtain ⟨agg, ids, index, option⟩ :=
      ih fun call mem => known call (mem_append_left _ mem)
    have indexKeys := indexRow_nodup interval (calls ++ [call])
    have optionKeys := optionRow_nodup interval (calls ++ [call])
    have ids' : ∀ item ∈ (({ interval } : CandleAggregator P).performAll (calls ++ [call])).1.option,
        item.1 ∈ contracts := by
      intro item mem
      have candle : item.2 ∈ (({ interval } : CandleAggregator P).performAll
          (calls ++ [call])).1.candles (.option item.1) :=
        mem_filterMap.mpr ⟨item, mem, by simp⟩
      obtain ⟨call', member, tick, found⟩ := exists_call_of_mem_candles candle
      exact known call' member item.1 tick found
    rw [performAll_snoc] at indexKeys optionKeys ids' ⊢
    simp only [Emitted.append, map_append] at indexKeys optionKeys ids' ⊢
    rw [map_singleton, foldl_append, foldl_cons, foldl_nil]
    simp only [Pipeline.perform, agg]
    refine ⟨trivial, ?_⟩
    by_cases empty : ((({ interval } : CandleAggregator P).performAll calls).2.perform
        call).1.isEmpty = true
    · rw [CandleDb.persist, if_pos empty, isEmpty_iff.mp empty]
      simpa using ⟨ids, index, option⟩
    · rw [CandleDb.persist, if_neg empty, ids, index, option]
      refine ⟨rfl, ?_, ?_⟩
      · exact addRows_of_nodup (by rwa [map_append]) fun _ _ => rfl
      · refine addRows_of_nodup (by rwa [map_append]) (hasContract_optionRow ?_)
        intro item mem
        exact ids' item (mem_append_right _ mem)

section Cases

def niftyTick (second price : Int) : PipelineEvent Int :=
  .call (.onIndexTick "NIFTY" "NSE" { ts := second * 1000000, price }) none

def optionTick (second price : Int) : PipelineEvent Int :=
  .call (.onOptionTick 7 { ts := second * 1000000, price }) none

def flushAt (second : Int) (fault : Option DbFault) : PipelineEvent Int :=
  .call (.flush (second * 1000000)) fault

def fresh : Pipeline Int := { agg := { interval := "1minute" }, db := {} }

def firstMinute : List (PipelineEvent Int) :=
  [.contract 7, niftyTick 5 100, optionTick 6 20, flushAt 61 none]

theorem stored_first_minute : ∃ after, run Pipeline.step fresh firstMinute = some after ∧
    after.emitted.index.length = 1 ∧ after.emitted.option.length = 1 ∧ Stored {} after := by
  have seen : (run Pipeline.step fresh firstMinute).map
      (fun after => (after.emitted.index.length, after.emitted.option.length)) = some (1, 1) := by
    decide +kernel
  obtain ⟨after, path, counts⟩ := Option.map_eq_some_iff.mp seen
  obtain ⟨index, option⟩ := Prod.mk.inj counts
  have written : Meets Pipeline.step Written fresh firstMinute := by decide +kernel
  exact ⟨after, path, index, option,
    stored_of_written "1minute" {} nodup_nil nodup_nil path written⟩

def failedFirst : List (PipelineEvent Int) :=
  [niftyTick 5 100, flushAt 61 (some (.index 0)), niftyTick 65 101, flushAt 121 none]

def firstCandle : IndexKey × Candle Int :=
  (("NIFTY", "NSE"), ⟨"NIFTY", "1minute", 0, 100, 100, 100, 100, none, none⟩)

theorem failed_write_not_stored : ∃ after, run Pipeline.step fresh failedFirst = some after ∧
    firstCandle ∈ after.emitted.index ∧
    after.db.marketCandles.map (fun row => row.timestamp) = [60000000] ∧
    ¬ Stored {} after := by
  have seen : (run Pipeline.step fresh failedFirst).map (fun after =>
      (decide (firstCandle ∈ after.emitted.index),
        after.db.marketCandles.map fun row => row.timestamp)) = some (true, [60000000]) := by
    decide +kernel
  obtain ⟨after, path, observed⟩ := Option.map_eq_some_iff.mp seen
  obtain ⟨emitted, minutes⟩ := Prod.mk.inj observed
  have emitted := of_decide_eq_true emitted
  refine ⟨after, path, emitted, minutes, ?_⟩
  intro stored
  obtain ⟨row, only, -⟩ := stored.index firstCandle emitted
  have mem := mem_filter.mp (only ▸ mem_singleton_self row)
  have minute : row.timestamp = 0 := by
    have key := of_decide_eq_true mem.2
    simp only [MarketCandle.key, Prod.mk.injEq] at key
    exact key.2.2.2
  have member : row.timestamp ∈ after.db.marketCandles.map fun row => row.timestamp :=
    mem_map_of_mem mem.1
  rw [minutes, minute] at member
  simp at member

end Cases

end AlgoSystem.Proof.MarketData.Durability

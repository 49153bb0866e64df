import AlgoSystem.General.Sorted
import AlgoSystem.SupertrendPivot.MarketData

namespace AlgoSystem.Proof.SupertrendPivot.Frames
open General AlgoSystem.SupertrendPivot List

variable {md md' : MarketData} {rest live frame : List Candle} {c : Candle}

theorem mem_of_mem_keepLast (mem : c ∈ dropDuplicatesKeepLast rest) : c ∈ rest := by
  induction rest with
  | nil => exact mem
  | cons x rest ih =>
    rw [dropDuplicatesKeepLast] at mem
    split at mem
    · exact mem_cons_of_mem x (ih mem)
    · rcases mem_cons.mp mem with rfl | later
      · exact mem_cons_self
      · exact mem_cons_of_mem x (ih later)

theorem distinct_keepLast (rest : List Candle) :
    (dropDuplicatesKeepLast rest).Pairwise fun a b => a.datetime ≠ b.datetime := by
  induction rest with
  | nil => exact .nil
  | cons x rest ih =>
    rw [dropDuplicatesKeepLast]
    split
    · exact ih
    next unique =>
      refine pairwise_cons.mpr ⟨fun b mem same => unique ?_, ih⟩
      exact any_eq_true.mpr ⟨b, mem_of_mem_keepLast mem, by simp [same]⟩

theorem keepLast_append (restDistinct : rest.Pairwise fun a b => a.datetime ≠ b.datetime)
    (liveDistinct : live.Pairwise fun a b => a.datetime ≠ b.datetime) :
    dropDuplicatesKeepLast (rest ++ live) =
      rest.filter (fun c => !live.any (·.datetime = c.datetime)) ++ live := by
  induction rest with
  | nil =>
    induction live with
    | nil => rfl
    | cons x live ih =>
      rw [pairwise_cons] at liveDistinct
      have unique : ¬ live.any (·.datetime = x.datetime) := by
        simpa using fun b mem => (liveDistinct.1 b mem).symm
      simpa [dropDuplicatesKeepLast, unique] using ih liveDistinct.2
  | cons x rest ih =>
    rw [pairwise_cons] at restDistinct
    have same : (rest ++ live).any (·.datetime = x.datetime) = live.any (·.datetime = x.datetime) := by
      rw [any_append, any_eq_false.mpr, Bool.false_or]
      simpa using fun b mem => (restDistinct.1 b mem).symm
    rw [cons_append, dropDuplicatesKeepLast, same, filter_cons, ih restDistinct.2]
    cases live.any (·.datetime = x.datetime) <;> rfl

theorem keepFirst_eq_self (distinct : rest.Pairwise fun a b => a.datetime ≠ b.datetime) :
    dropDuplicatesKeepFirst rest = rest := by
  have reversed : rest.reverse.Pairwise fun a b => a.datetime ≠ b.datetime :=
    pairwise_reverse.mpr (distinct.imp Ne.symm)
  have same : dropDuplicatesKeepLast (rest.reverse ++ []) = _ := keepLast_append reversed .nil
  rw [append_nil] at same
  simp [dropDuplicatesKeepFirst, same]

theorem distinct_liveCandles (md : MarketData) :
    md.liveCandles.Pairwise fun a b => a.datetime ≠ b.datetime := by
  unfold MarketData.liveCandles
  split
  · exact .nil
  · exact pairwise_reverse.mpr ((distinct_keepLast _).imp Ne.symm)

theorem mem_mergeLiveCandles (distinct : rest.Pairwise fun a b => a.datetime ≠ b.datetime) :
    c ∈ md.mergeLiveCandles rest ↔
      c ∈ md.liveCandles ∨ c ∈ rest ∧ ∀ l ∈ md.liveCandles, l.datetime ≠ c.datetime := by
  unfold MarketData.mergeLiveCandles
  split
  next none => simp [List.isEmpty_iff.mp none]
  · rw [mem_insertionSort, keepLast_append distinct (distinct_liveCandles md)]
    simp [mem_append, or_comm]

theorem mergeLiveCandles_increasing (increasing : rest.Pairwise fun a b => a.datetime < b.datetime) :
    (md.mergeLiveCandles rest).Pairwise fun a b => a.datetime < b.datetime := by
  unfold MarketData.mergeLiveCandles
  split
  · exact increasing
  · exact insertionSort_lt_of_nodup (pairwise_map.mpr (distinct_keepLast _))

theorem length_mergeLiveCandles (distinct : rest.Pairwise fun a b => a.datetime ≠ b.datetime) :
    (md.mergeLiveCandles rest).length =
      (rest.filter fun r => !md.liveCandles.any (·.datetime = r.datetime)).length +
        md.liveCandles.length := by
  unfold MarketData.mergeLiveCandles
  split
  next none => simp [List.isEmpty_iff.mp none]
  · rw [length_insertionSort, keepLast_append distinct (distinct_liveCandles md), length_append]

theorem getCandles_eq {asked answered : Int} {fetched : Option (List Candle)}
    (served : md.getCandles asked answered fetched = some (frame, md')) :
    ∃ rest, md'.restCache = some rest ∧ md'.stream = md.stream ∧
      frame = md'.mergeLiveCandles rest := by
  obtain ⟨⟨restDf, used⟩, answer, same⟩ := Option.map_eq_some_iff.mp served
  cases same
  refine ⟨restDf, ?_⟩
  simp only [MarketData.getRestCandles] at answer
  generalize (if md.stream.isSome then restCandleCacheTtl else 0) = ttl at answer
  split at answer
  next cached hit =>
    split at answer
    · cases answer
      exact ⟨hit, rfl, rfl⟩
    · split at answer
      · cases answer
        exact ⟨hit, rfl, rfl⟩
      · cases answer
        exact ⟨rfl, rfl, rfl⟩
  · split at answer
    · cases answer
    · cases answer
      exact ⟨rfl, rfl, rfl⟩

end AlgoSystem.Proof.SupertrendPivot.Frames

import AlgoSystem.General.Lists
import AlgoSystem.MarketData.StraddleChart

namespace AlgoSystem.Proof.MarketData.StraddleCarry
open AlgoSystem.MarketData List

abbrev Ascending (candles : List (Candle ℚ)) : Prop :=
  candles.Pairwise fun a b => a.timestamp ≤ b.timestamp

def latest (candles : List (Candle ℚ)) (t : Int) : Option (Candle ℚ) :=
  candles.reverse.find? fun c => c.timestamp ≤ t

/-- Time, straddle, spot, call and put. -/
def shown (point : StraddlePoint) : Int × ℚ × ℚ × ℚ × ℚ :=
  (point.t, point.v, point.spot, point.ce, point.pe)

def pointAt (s : Candle ℚ) : Option ℚ → Option ℚ → Option (Int × ℚ × ℚ × ℚ × ℚ)
  | some c, some p => some (s.timestamp, c + p, s.close, c, p)
  | _, _ => none

/-- A point for every spot candle by which both option series have begun, with the closes of their
latest candles. -/
def carriedForward (spot ce pe : List (Candle ℚ)) : List (Int × ℚ × ℚ × ℚ × ℚ) :=
  spot.filterMap fun s => pointAt s ((latest ce s.timestamp).map Candle.close)
    ((latest pe s.timestamp).map Candle.close)

/-- The candles at minutes that have a spot candle. -/
def onSpot (spot candles : List (Candle ℚ)) : List (Candle ℚ) :=
  candles.filter fun c => c.timestamp ∈ spot.map Candle.timestamp

variable {spot done candles ce pe : List (Candle ℚ)} {s : Candle ℚ}

theorem find?_or {l : List (Candle ℚ)} (descending : l.Pairwise fun a b => b.timestamp ≤ a.timestamp)
    {t : Int} (earlier : Candle ℚ → Bool) (before : ∀ c, earlier c → c.timestamp ≤ t) :
    l.find? (fun c => decide (c.timestamp = t) || earlier c) =
      (l.find? fun c => c.timestamp = t).or (l.find? earlier) := by
  induction descending with
  | nil => rfl
  | @cons c l below _ ih =>
    by_cases now : c.timestamp = t
    · simp [now]
    · cases early : earlier c with
      | false => simp [now, early, ih]
      | true =>
        have none : l.find? (fun d => d.timestamp = t) = none := by
          rw [find?_eq_none]
          intro d mem
          have := before c early
          have := below d mem
          simp only [decide_eq_true_eq]
          omega
        simp [now, early, none]

theorem carried_step (ascending : Ascending candles) (past : ∀ d ∈ done, d.timestamp ≤ s.timestamp) :
    (onSpot (done ++ [s]) candles).getLast? =
      (candleAt candles s.timestamp).or (onSpot done candles).getLast? := by
  have step := find?_or (l := candles.reverse) (pairwise_reverse.mpr ascending)
    (t := s.timestamp) (fun c => c.timestamp ∈ done.map Candle.timestamp) (by
      intro c earlier
      obtain ⟨d, mem, same⟩ := mem_map.mp (of_decide_eq_true earlier)
      exact same ▸ past d mem)
  simp only [onSpot, getLast?_eq_head?_reverse, ← filter_reverse, head?_filter, candleAt]
  rw [← step]
  congr 1
  ext c
  simp [or_comm]

theorem latest_onSpot {rest : List (Candle ℚ)} (ascending : Ascending (done ++ s :: rest)) :
    latest (onSpot (done ++ s :: rest) candles) s.timestamp =
      (onSpot (done ++ [s]) candles).getLast? := by
  have past : ∀ d ∈ done, d.timestamp ≤ s.timestamp :=
    fun d mem => (pairwise_append.mp ascending).2.2 d mem s mem_cons_self
  have future : ∀ r ∈ rest, s.timestamp ≤ r.timestamp :=
    (pairwise_cons.mp (pairwise_append.mp ascending).2.1).1
  rw [latest, ← head?_filter, filter_reverse, ← getLast?_eq_head?_reverse, onSpot, onSpot,
    filter_filter]
  congr 1
  apply filter_congr
  intro c _
  simp only [map_append, map_cons, map_nil, mem_append, mem_cons, mem_map, not_mem_nil, or_false]
  grind

theorem straddleFrom_shown (done rest : List (Candle ℚ)) (spotAscending : Ascending (done ++ rest))
    (ceAscending : Ascending ce) (peAscending : Ascending pe) :
    (straddleFrom ce pe ((onSpot done ce).getLast?.map Candle.close)
        ((onSpot done pe).getLast?.map Candle.close) rest).map shown =
      rest.filterMap fun s =>
        pointAt s ((latest (onSpot (done ++ rest) ce) s.timestamp).map Candle.close)
          ((latest (onSpot (done ++ rest) pe) s.timestamp).map Candle.close) := by
  induction rest generalizing done with
  | nil => rfl
  | cons s rest ih =>
    have past : ∀ d ∈ done, d.timestamp ≤ s.timestamp :=
      fun d mem => (pairwise_append.mp spotAscending).2.2 d mem s mem_cons_self
    have later := ih (done ++ [s]) (by simpa using spotAscending)
    rw [append_assoc, singleton_append] at later
    rw [straddleFrom, filterMap_cons, latest_onSpot spotAscending, latest_onSpot spotAscending,
      ← later, carried_step ceAscending past, carried_step peAscending past, Option.map_or,
      Option.map_or]
    cases (Option.map Candle.close (candleAt ce s.timestamp)).or _ <;>
      cases (Option.map Candle.close (candleAt pe s.timestamp)).or _ <;> rfl

theorem buildStraddleSeries_shown (spotAscending : Ascending spot) (ceAscending : Ascending ce)
    (peAscending : Ascending pe) :
    (buildStraddleSeries spot ce pe).map shown =
      carriedForward spot (onSpot spot ce) (onSpot spot pe) := by
  have none (candles : List (Candle ℚ)) : onSpot [] candles = [] := by simp [onSpot]
  have shown := straddleFrom_shown [] spot spotAscending ceAscending peAscending
  rw [none, none] at shown
  exact shown

theorem latest_isSome {t : Int}
    (found : ((latest (onSpot spot candles) t).map Candle.close).isSome) :
    ((latest candles t).map Candle.close).isSome := by
  rw [Option.isSome_map, latest, find?_isSome] at found ⊢
  obtain ⟨c, mem, early⟩ := found
  exact ⟨c, mem_reverse.mpr (mem_of_mem_filter (mem_reverse.mp mem)), early⟩

theorem pointAt_isSome {c p c' p' : Option ℚ} (call : c.isSome → c'.isSome)
    (put : p.isSome → p'.isSome) : (pointAt s c p).isSome → (pointAt s c' p').isSome := by
  cases c <;> cases p <;> cases c' <;> cases p' <;> simp_all [pointAt]

theorem pointAt_eq_iff {c p c' p' : Option ℚ} (call : c.isSome → c'.isSome)
    (put : p.isSome → p'.isSome) :
    pointAt s c p = pointAt s c' p' ↔ ∀ x ∈ c', ∀ y ∈ p', c = some x ∧ p = some y := by
  cases c <;> cases p <;> cases c' <;> cases p' <;> simp_all [pointAt]

/-- The chart shows the latest closes exactly if at each spot candle the latest option candles have
the closes of the latest ones at minutes with a spot candle. -/
theorem carried_forward_iff (spotAscending : Ascending spot) (ceAscending : Ascending ce)
    (peAscending : Ascending pe) :
    (buildStraddleSeries spot ce pe).map shown = carriedForward spot ce pe ↔
      ∀ s ∈ spot, ∀ c ∈ latest ce s.timestamp, ∀ p ∈ latest pe s.timestamp,
        (latest (onSpot spot ce) s.timestamp).map Candle.close = some c.close ∧
          (latest (onSpot spot pe) s.timestamp).map Candle.close = some p.close := by
  rw [buildStraddleSeries_shown spotAscending ceAscending peAscending, carriedForward, carriedForward,
    General.filterMap_eq_iff]
  · apply forall₂_congr
    intro s _
    rw [pointAt_eq_iff latest_isSome latest_isSome]
    simp
  · intro s _
    exact pointAt_isSome latest_isSome latest_isSome

def closeAt (minute : Int) (close : ℚ) : Candle ℚ :=
  { symbol := "", interval := "1minute", timestamp := minute * oneMinute, opening := close,
    high := close, low := close, close, volume := none, oi := none }

theorem put_minute_missing :
    (buildStraddleSeries [closeAt 0 24000, closeAt 1 24010] [closeAt 0 100, closeAt 1 110]
      [closeAt 0 50]).map shown =
      carriedForward [closeAt 0 24000, closeAt 1 24010] [closeAt 0 100, closeAt 1 110]
        [closeAt 0 50] :=
  (carried_forward_iff (by decide) (by decide) (by decide)).mpr (by decide +kernel)

theorem spot_minute_missing :
    (buildStraddleSeries [closeAt 0 24000, closeAt 2 24010] [closeAt 0 100, closeAt 1 110]
      [closeAt 0 50]).map shown = [(0, 150, 24000, 100, 50), (120000000, 150, 24010, 100, 50)] ∧
    carriedForward [closeAt 0 24000, closeAt 2 24010] [closeAt 0 100, closeAt 1 110]
      [closeAt 0 50] = [(0, 150, 24000, 100, 50), (120000000, 160, 24010, 110, 50)] := by
  decide +kernel

end AlgoSystem.Proof.MarketData.StraddleCarry

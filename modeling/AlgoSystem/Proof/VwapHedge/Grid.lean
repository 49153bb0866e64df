import AlgoSystem.General.Runs
import AlgoSystem.General.Sorted
import AlgoSystem.VwapHedge.Manager
import AlgoSystem.VwapHedge.Orders

namespace AlgoSystem.Proof.VwapHedge.Grid
open General AlgoSystem.VwapHedge List

def minuteLabel (minute : Nat) : Label := ⟨minute / 60, minute % 60, 0⟩

section Seeds
variable {row : Nat → RawCandle} {m : Nat}

def rowsTo (row : Nat → RawCandle) (m : Nat) : List RawCandle := (List.range' 555 (m - 554)).map row

def seedGroups (rows : List RawCandle) : List (Nat × List RawCandle) :=
  ((rows.map RawCandle.bin).dedup.insertionSort (· ≤ ·)).map fun bin =>
    (bin, rows.filter fun row => row.bin = bin)

def seedCandle : Nat × List RawCandle → Option Candle
  | (_, []) => none
  | (bin, first :: rest) => some (aggregate bin first rest)

theorem resample_eq (rows : List RawCandle) : resample rows = (seedGroups rows).filterMap seedCandle := by
  rw [resample, seedGroups, filterMap_map]
  congr 1
  funext bin
  simp only [Function.comp_apply]
  cases rows.filter (fun row => row.bin = bin) <;> rfl

theorem range'_dropLast (start count : Nat) :
    (List.range' start count).dropLast = List.range' start (count - 1) := by
  cases count with
  | zero => rfl
  | succ n => rw [range'_concat, dropLast_concat, Nat.add_sub_cancel]

theorem rowsTo_dropLast : (rowsTo row m).dropLast = rowsTo row (m - 1) := by
  rw [rowsTo, rowsTo, ← map_dropLast, range'_dropLast, Nat.sub_right_comm]

theorem getOptionOhlc_rowsTo (opened : 555 ≤ m) :
    getOptionOhlc (fun _ => some (rowsTo row m)) = some (rowsTo row (m - 1)) := by
  have rows : ∃ first rest, rowsTo row m = first :: rest := by
    refine ⟨row 555, (List.range' 556 (m - 555)).map row, ?_⟩
    rw [rowsTo, show m - 554 = m - 555 + 1 by omega, range'_succ]
    rfl
  obtain ⟨first, rest, rows⟩ := rows
  rw [← rowsTo_dropLast, rows]
  rfl

theorem convert2min_getD (rows : List RawCandle) :
    (convert2min (some rows)).getD [] = resample rows := by
  cases rows <;> rfl

theorem seeded_eq (opened : 555 ≤ m) :
    (addPreviousData fun _ => some (rowsTo row m)).getD [] =
      (seedGroups (rowsTo row (m - 1))).filterMap seedCandle := by
  rw [addPreviousData, getOptionOhlc_rowsTo opened, convert2min_getD, resample_eq]

variable (minutely : ∀ k, (row k).time = 60 * k)
include minutely

theorem row_bin (k : Nat) : (row k).bin = (k + 1) / 2 := by
  rw [RawCandle.bin, minutely k]
  omega

theorem rowsTo_bins (m : Nat) :
    ((rowsTo row m).map RawCandle.bin).dedup.insertionSort (· ≤ ·) =
      List.range' 278 ((m + 1) / 2 - 277) := by
  apply eq_of_pairwise_lt (f := id)
  · exact insertionSort_lt_of_nodup (f := id) (by simpa using nodup_dedup _)
  · exact pairwise_lt_range'
  · intro bin
    simp only [mem_insertionSort, mem_dedup, rowsTo, map_map, mem_map,
      Function.comp_apply, row_bin minutely, mem_range'_1]
    constructor
    · rintro ⟨k, bounds, rfl⟩
      omega
    · intro bounds
      exact ⟨2 * bin - 1, by omega, by omega⟩

variable {bin : Nat}

theorem rowsTo_filter (m : Nat) (minutes : List Nat) (increasing : minutes.Pairwise (· < ·))
    (members : ∀ k, k ∈ minutes ↔ 555 ≤ k ∧ k ≤ m ∧ (k + 1) / 2 = bin) :
    ((rowsTo row m).filter fun row => row.bin = bin) = minutes.map row := by
  rw [rowsTo, filter_map]
  refine congrArg (List.map row) (eq_of_pairwise_lt (f := id) ?_ increasing ?_)
  · exact List.Pairwise.filter _ pairwise_lt_range'
  · intro k
    rw [members k]
    simp only [mem_filter, mem_range'_1, Function.comp_apply, row_bin minutely,
      decide_eq_true_eq]
    omega

theorem group_eq_iff (mem : bin ∈ List.range' 278 (m / 2 - 277)) :
    ((rowsTo row (m - 1)).filter fun row => row.bin = bin) = [row (2 * bin - 1), row (2 * bin)] ↔
      2 * bin < m := by
  have bounds := mem_range'_1.mp mem
  by_cases ended : 2 * bin < m
  · refine iff_of_true ?_ ended
    apply rowsTo_filter minutely (m - 1) [2 * bin - 1, 2 * bin]
    · simp
      omega
    · intro k
      simp only [mem_cons, not_mem_nil, or_false]
      omega
  · have half : ((rowsTo row (m - 1)).filter fun row => row.bin = bin) = [row (2 * bin - 1)] := by
      apply rowsTo_filter minutely (m - 1) [2 * bin - 1]
      · simp
      · intro k
        simp only [mem_cons, not_mem_nil, or_false]
        omega
    rw [half]
    exact iff_of_false (by simp) ended

theorem seedGroups_rowsTo (opened : 555 ≤ m) :
    seedGroups (rowsTo row (m - 1)) = (List.range' 278 (m / 2 - 277)).map fun bin =>
      (bin, (rowsTo row (m - 1)).filter fun row => row.bin = bin) := by
  rw [seedGroups, rowsTo_bins minutely, show m - 1 + 1 = m by omega]

def Whole (row : Nat → RawCandle) (group : Nat × List RawCandle) : Prop :=
  group.2 = [row (2 * group.1 - 1), row (2 * group.1)]

theorem seeds_whole_iff (opened : 555 ≤ m) :
    (∀ group ∈ seedGroups (rowsTo row (m - 1)), Whole row group) ↔ m % 2 = 1 := by
  rw [seedGroups_rowsTo minutely opened]
  simp only [forall_mem_map, Whole]
  constructor
  · intro whole
    rcases Nat.mod_two_eq_zero_or_one m with even | odd
    · -- The last bin has only the minute `m - 1`.
      have last : m / 2 ∈ List.range' 278 (m / 2 - 277) := mem_range'_1.mpr (by omega)
      have ended := (group_eq_iff minutely last).mp (whole _ last)
      omega
    · exact odd
  · intro odd bin mem
    have bounds := mem_range'_1.mp mem
    exact (group_eq_iff minutely mem).mpr (by omega)

theorem seedCandle_label (mem : bin ∈ List.range' 278 (m / 2 - 277)) (day : m < 1440) :
    (seedCandle (bin, (rowsTo row (m - 1)).filter fun row => row.bin = bin)).map Candle.datetime =
      some (minuteLabel (2 * bin)) := by
  have bounds := mem_range'_1.mp mem
  have some_row : row (2 * bin - 1) ∈ (rowsTo row (m - 1)).filter fun row => row.bin = bin := by
    simp only [mem_filter, row_bin minutely, decide_eq_true_eq, rowsTo]
    exact ⟨mem_map_of_mem (mem_range'_1.mpr (by omega)), by omega⟩
  cases h : (rowsTo row (m - 1)).filter fun row => row.bin = bin with
  | nil => simp [h] at some_row
  | cons first rest =>
    simp only [seedCandle, aggregate, labelOf, Option.map_some, minuteLabel, Option.some.injEq,
      Label.mk.injEq]
    omega

theorem seed_labels (opened : 555 ≤ m) (day : m < 1440) :
    ((seedGroups (rowsTo row (m - 1))).filterMap seedCandle).map Candle.datetime =
      (List.range' 278 (m / 2 - 277)).map fun bin => minuteLabel (2 * bin) := by
  rw [seedGroups_rowsTo minutely opened, filterMap_map, map_filterMap,
    ← filterMap_eq_map]
  apply filterMap_congr
  intro bin mem
  simp only [Function.comp_apply]
  exact seedCandle_label minutely mem day

end Seeds

/-- A tick with the minute of the day in which it arrives; the source keeps the minute of the hour. -/
structure Stamp where
  minute : Nat
  ltp : ℚ
  volume : ℚ

def Stamp.tick (s : Stamp) : Tick := ⟨s.minute % 60, s.ltp, s.volume⟩

inductive Happening where
  | tick (s : Stamp)
  | flush (minute microsecond : Nat)

def Happening.event : Happening → Event
  | .tick s => .tick s.tick
  | .flush minute microsecond => .flush ⟨minute / 60, minute % 60, 59, microsecond⟩

/-- In the order of time, with one flush in each second minute; `next` is the minute of the next
flush, and nothing is older than `clock`. -/
def OnSchedule : (clock next : Nat) → List Happening → Prop
  | _, _, [] => True
  | clock, next, .tick s :: rest => clock ≤ s.minute ∧ s.minute ≤ next ∧ OnSchedule s.minute next rest
  | _, next, .flush minute _ :: rest => minute = next ∧ OnSchedule next (next + 2) rest

def stampsOf : List Happening → List Stamp
  | [] => []
  | .tick s :: rest => s :: stampsOf rest
  | .flush _ _ :: rest => stampsOf rest

def selects (minute : Nat) (s : Stamp) : Bool :=
  decide (s.minute % 60 = minute % 60 ∨ s.minute % 60 = previousMinute (minute % 60))

def liveGroups : List Stamp → List Happening → List (Nat × List Stamp)
  | _, [] => []
  | buffer, .tick s :: rest => liveGroups (buffer ++ [s]) rest
  | buffer, .flush minute _ :: rest => (minute, buffer.filter (selects minute)) :: liveGroups [] rest

def appendLive (ohlc : List Candle) (group : Nat × List Stamp) : List Candle :=
  ohlc ++ [liveCandle ohlc (group.2.map Stamp.tick) ⟨group.1 / 60, group.1 % 60, 59, 0⟩]

def ofLabel (minute : Nat) (s : Stamp) : Bool := decide (s.minute = minute ∨ s.minute + 1 = minute)

/-- No tick of the minute of a flush arrives after the flush. -/
def Punctual : List Happening → Prop
  | [] => True
  | .tick _ :: rest => Punctual rest
  | .flush minute _ :: rest => (∀ s ∈ stampsOf rest, s.minute ≠ minute) ∧ Punctual rest

theorem liveCandle_selects (ohlc : List Candle) (buffer : List Stamp) (minute microsecond : Nat) :
    liveCandle ohlc (buffer.map Stamp.tick) ⟨minute / 60, minute % 60, 59, microsecond⟩ =
      liveCandle ohlc ((buffer.filter (selects minute)).map Stamp.tick)
        ⟨minute / 60, minute % 60, 59, 0⟩ := by
  have same : ((buffer.map Stamp.tick).filter fun tick =>
        tick.minute = minute % 60 ∨ tick.minute = previousMinute (minute % 60)) =
      ((buffer.filter (selects minute)).map Stamp.tick).filter fun tick =>
        tick.minute = minute % 60 ∨ tick.minute = previousMinute (minute % 60) := by
    rw [filter_map, filter_map, filter_filter]
    refine congrArg (List.map Stamp.tick) (filter_congr ?_)
    intro s _
    exact (Bool.and_self _).symm
  unfold liveCandle
  dsimp only
  rw [same]

variable {happenings : List Happening}

theorem run_ohlc {ta : TaVwap} (buffer : List Stamp) {u t : Trader}
    (path : run (step ta) u (happenings.map Happening.event) = some t)
    (buffered : u.tlv = buffer.map Stamp.tick) :
    t.ohlc = (liveGroups buffer happenings).foldl appendLive u.ohlc := by
  induction happenings generalizing buffer u with
  | nil =>
    cases path
    rfl
  | cons happening rest ih =>
    obtain ⟨v, first, rest⟩ := run_cons_eq_some.mp path
    cases happening with
    | tick s =>
      cases first
      refine ih (buffer ++ [s]) (u := { u with tlv := u.tlv ++ [s.tick] }) rest ?_
      rw [buffered, map_append, map_singleton]
    | flush minute microsecond =>
      simp only [Happening.event, step] at first
      split at first
      · cases first
        rw [ih [] rest rfl, liveGroups, foldl_cons, appendLive, buffered,
          liveCandle_selects]
      · cases first

variable {clock next : Nat}

theorem OnSchedule.le_minute (schedule : OnSchedule clock next happenings) (ahead : clock ≤ next) :
    ∀ s ∈ stampsOf happenings, clock ≤ s.minute := by
  induction happenings generalizing clock next with
  | nil => simp [stampsOf]
  | cons happening rest ih =>
    cases happening with
    | tick s =>
      obtain ⟨lower, upper, later⟩ := schedule
      intro r mem
      rcases mem_cons.mp mem with rfl | mem
      · exact lower
      · exact lower.trans (ih later upper r mem)
    | flush minute microsecond =>
      obtain ⟨-, later⟩ := schedule
      intro r mem
      exact ahead.trans (ih later (by omega) r mem)

theorem OnSchedule.labels {buffer : List Stamp} (schedule : OnSchedule clock next happenings) :
    (liveGroups buffer happenings).map Prod.fst =
      (List.range (liveGroups buffer happenings).length).map fun i => next + 2 * i := by
  induction happenings generalizing clock next buffer with
  | nil => rfl
  | cons happening rest ih =>
    cases happening with
    | tick s => exact ih schedule.2.2
    | flush minute microsecond =>
      obtain ⟨rfl, later⟩ := schedule
      rw [liveGroups, map_cons, ih later, length_cons, range_succ_eq_map,
        map_cons, map_map]
      refine congrArg (List.cons _) (map_congr_left ?_)
      intro i _
      simp only [Function.comp_apply]
      omega

theorem selects_eq_ofLabel {s : Stamp} {minute : Nat} (before : s.minute ≤ minute)
    (recent : minute < s.minute + 60) : selects minute s = ofLabel minute s := by
  unfold selects ofLabel previousMinute
  rw [decide_eq_decide]
  omega

theorem group_complete_iff {old buffer later : List Stamp} {minute : Nat}
    (past : ∀ s ∈ old, s.minute + 1 < minute)
    (recent : ∀ s ∈ buffer, s.minute ≤ minute ∧ minute < s.minute + 60)
    (after : ∀ s ∈ later, minute ≤ s.minute) :
    buffer.filter (selects minute) = (old ++ buffer ++ later).filter (ofLabel minute) ↔
      ∀ s ∈ later, s.minute ≠ minute := by
  have none_old : old.filter (ofLabel minute) = [] := by
    apply filter_eq_nil_iff.mpr
    intro s mem
    have bound := past s mem
    simp only [ofLabel, decide_eq_true_eq]
    omega
  -- The buffer is younger than an hour, so that the minute of the hour identifies the minute.
  have same : buffer.filter (selects minute) = buffer.filter (ofLabel minute) :=
    filter_congr fun s mem => selects_eq_ofLabel (recent s mem).1 (recent s mem).2
  rw [filter_append, filter_append, none_old, nil_append, same,
    self_eq_append_right, filter_eq_nil_iff]
  refine forall₂_congr fun s mem => ?_
  have bound := after s mem
  simp only [ofLabel, decide_eq_true_eq]
  omega

theorem live_complete_iff (old buffer : List Stamp) (schedule : OnSchedule clock next happenings)
    (ahead : clock ≤ next) (near : next < clock + 60) (past : ∀ s ∈ old, s.minute + 1 < next)
    (recent : ∀ s ∈ buffer, s.minute ≤ next ∧ next < s.minute + 60) :
    (∀ group ∈ liveGroups buffer happenings,
        group.2 = (old ++ buffer ++ stampsOf happenings).filter (ofLabel group.1)) ↔
      Punctual happenings := by
  -- `old` are the ticks that earlier flushes have cleared, used or not.
  induction happenings generalizing clock next old buffer with
  | nil => simp [liveGroups, Punctual]
  | cons happening rest ih =>
    cases happening with
    | tick s =>
      obtain ⟨lower, upper, later⟩ := schedule
      have extended : ∀ r ∈ buffer ++ [s], r.minute ≤ next ∧ next < r.minute + 60 := by
        intro r mem
        rcases mem_append.mp mem with mem | mem
        · exact recent r mem
        · cases mem_singleton.mp mem
          exact ⟨upper, by omega⟩
      have sofar := ih old (buffer ++ [s]) later upper (by omega) past extended
      rw [← List.append_assoc, List.append_assoc, singleton_append] at sofar
      exact sofar
    | flush minute microsecond =>
      obtain ⟨rfl, later⟩ := schedule
      have here := group_complete_iff past recent (later.le_minute (by omega))
      have consumed : ∀ s ∈ old ++ buffer, s.minute + 1 < minute + 2 := by
        intro s mem
        rcases mem_append.mp mem with mem | mem
        · have bound := past s mem
          omega
        · have bound := (recent s mem).1
          omega
      have others := ih (old ++ buffer) [] later (by omega) (by omega) consumed (by simp)
      rw [append_nil] at others
      rw [liveGroups, forall_mem_cons, Punctual, stampsOf]
      exact and_congr here others

/-- Labels two minutes apart, and every candle from the rows or the ticks of its two minutes. -/
structure OnGrid (row : Nat → RawCandle) (stream : List Stamp)
    (seeds : List (Nat × List RawCandle)) (lives : List (Nat × List Stamp)) (ohlc : List Candle) :
    Prop where
  spaced : ∃ first, ohlc.map Candle.datetime =
    (List.range ohlc.length).map fun i => minuteLabel (first + 2 * i)
  seeded : ∀ group ∈ seeds, Whole row group
  live : ∀ group ∈ lives, group.2 = stream.filter (ofLabel group.1)

theorem foldl_appendLive_labels (groups : List (Nat × List Stamp)) (ohlc : List Candle) :
    (groups.foldl appendLive ohlc).map Candle.datetime =
      ohlc.map Candle.datetime ++ (groups.map Prod.fst).map minuteLabel := by
  induction groups generalizing ohlc with
  | nil => simp
  | cons group groups ih =>
    have label : (liveCandle ohlc (group.2.map Stamp.tick)
        ⟨group.1 / 60, group.1 % 60, 59, 0⟩).datetime = minuteLabel group.1 := by
      unfold liveCandle
      dsimp only
      split <;> rfl
    rw [foldl_cons, ih, appendLive, map_append, map_singleton, label,
      List.append_assoc, singleton_append, map_cons, map_cons]

theorem evens_append (bins count next : Nat) (joins : next = 556 + 2 * bins) :
    ((List.range' 278 bins).map fun bin => minuteLabel (2 * bin)) ++
        (List.range count).map (fun i => minuteLabel (next + 2 * i)) =
      (List.range (bins + count)).map fun i => minuteLabel (556 + 2 * i) := by
  rw [range'_eq_map_range, map_map, range_add, map_append, map_map]
  refine congrArg₂ _ (map_congr_left fun i _ => ?_) (map_congr_left fun i _ => ?_)
  · simp only [Function.comp_apply]
    exact congrArg minuteLabel (by omega)
  · simp only [Function.comp_apply]
    exact congrArg minuteLabel (by omega)

theorem labels_spaced {row : Nat → RawCandle} {m : Nat} (buffer : List Stamp)
    (minutely : ∀ k, (row k).time = 60 * k) (opened : 555 ≤ m) (day : m < 1440)
    (schedule : OnSchedule m next happenings) (joins : next = m + 1) (odd : m % 2 = 1) :
    ((liveGroups buffer happenings).foldl appendLive
        ((seedGroups (rowsTo row (m - 1))).filterMap seedCandle)).map Candle.datetime =
      (List.range (m / 2 - 277 + (liveGroups buffer happenings).length)).map fun i =>
        minuteLabel (556 + 2 * i) := by
  rw [foldl_appendLive_labels, seed_labels minutely opened day, schedule.labels, map_map]
  exact evens_append (m / 2 - 277) _ next (by omega)

/-- The broker is asked in the minute `m`, and the next flush is in the minute `next`. -/
theorem on_grid_iff {ta : TaVwap} {row : Nat → RawCandle} {m next : Nat} {earlier : List Stamp}
    {happenings : List Happening} {t : Trader} (minutely : ∀ k, (row k).time = 60 * k)
    (opened : 555 ≤ m) (day : m < 1440) (even : next % 2 = 0) (soon : m ≤ next ∧ next ≤ m + 2)
    (buffered : ∀ s ∈ earlier, s.minute ≤ m ∧ next < s.minute + 60)
    (schedule : OnSchedule m next happenings)
    (path : run (step ta)
      { ohlc := (addPreviousData fun _ => some (rowsTo row m)).getD []
        tlv := earlier.map Stamp.tick } (happenings.map Happening.event) = some t) :
    t.ohlc = (liveGroups earlier happenings).foldl appendLive
        ((seedGroups (rowsTo row (m - 1))).filterMap seedCandle) ∧
      (OnGrid row (earlier ++ stampsOf happenings) (seedGroups (rowsTo row (m - 1)))
          (liveGroups earlier happenings) t.ohlc ↔
        m % 2 = 1 ∧ Punctual happenings) := by
  have candles := run_ohlc earlier path rfl
  simp only [seeded_eq opened] at candles
  have whole := seeds_whole_iff minutely opened
  have complete := live_complete_iff [] earlier schedule soon.1 (by omega) (by simp)
    (fun s mem => ⟨(buffered s mem).1.trans soon.1, (buffered s mem).2⟩)
  rw [nil_append] at complete
  refine ⟨candles, ?_⟩
  constructor
  · intro grid
    exact ⟨whole.mp grid.seeded, complete.mp grid.live⟩
  · rintro ⟨odd, punctual⟩
    have labels := labels_spaced earlier minutely opened day schedule (by omega) odd
    rw [← candles] at labels
    refine ⟨⟨556, ?_⟩, whole.mpr odd, complete.mpr punctual⟩
    have count := congrArg List.length labels
    rw [length_map, length_map, length_range] at count
    rw [labels, count]

def flatRow (k : Nat) : RawCandle := ⟨60 * k, 100, 100, 100, 100, 5⟩

def oddMorning : List Happening :=
  [.tick ⟨559, 101, 20⟩, .tick ⟨560, 102, 30⟩, .flush 560 800000, .tick ⟨561, 103, 40⟩]

theorem on_grid_from_odd_minute :
    ∃ t, run (step fun _ => none)
        { ohlc := (addPreviousData fun _ => some (rowsTo flatRow 559)).getD [] }
        (oddMorning.map Happening.event) = some t ∧
      OnGrid flatRow (stampsOf oddMorning) (seedGroups (rowsTo flatRow 558))
        (liveGroups [] oddMorning) t.ohlc := by
  obtain ⟨t, path⟩ := Option.isSome_iff_exists.mp (by decide +kernel : (run (step fun _ => none)
    { ohlc := (addPreviousData fun _ => some (rowsTo flatRow 559)).getD [] }
    (oddMorning.map Happening.event)).isSome)
  have grid := @on_grid_iff _ flatRow 559 560 [] oddMorning t (fun _ => rfl) (by omega) (by omega)
    (by omega) (by omega) (by simp) (by simp [oddMorning, OnSchedule]) path
  exact ⟨t, path, grid.2.mpr ⟨rfl, by simp [oddMorning, Punctual, stampsOf]⟩⟩

theorem label_doubled_from_even_minute :
    seedGroups (rowsTo flatRow 559) =
        [(278, [flatRow 555, flatRow 556]), (279, [flatRow 557, flatRow 558]), (280, [flatRow 559])] ∧
      (run (step fun _ => none)
          { ohlc := (addPreviousData fun _ => some (rowsTo flatRow 560)).getD [] }
          ([Happening.tick ⟨560, 102, 30⟩, .flush 560 800000].map Happening.event)).map
          (fun t => t.ohlc.map Candle.datetime) =
        some [⟨9, 16, 0⟩, ⟨9, 18, 0⟩, ⟨9, 20, 0⟩, ⟨9, 20, 0⟩] := by
  decide +kernel

end AlgoSystem.Proof.VwapHedge.Grid

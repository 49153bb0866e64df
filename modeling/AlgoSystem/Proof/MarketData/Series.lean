import AlgoSystem.General.Summary
import AlgoSystem.MarketData.Aggregator
import Mathlib.Data.List.Pairwise

namespace AlgoSystem.Proof.MarketData
open AlgoSystem.MarketData General List

variable {P : Type}
variable {ticks : List (Tick P)} {b : Bucket P}

def IsClosed (closed : Option Int) (minute : Int) : Prop :=
  ∃ newest, closed = some newest ∧ minute ≤ newest

variable (s : Series P) (tick : Tick P) (nowMinute : Int)

theorem late_iff : s.late tick = true ↔ IsClosed s.lastClosed tick.minute := by
  unfold Series.late IsClosed
  cases s.lastClosed <;> simp

theorem isClosed_advance (closed : Option Int) (b : Bucket P) (minute : Int) :
    IsClosed (advanceClosed closed b) minute ↔ IsClosed closed minute ∨ minute ≤ b.minute := by
  cases closed with
  | none => simp [IsClosed, advanceClosed]
  | some newest =>
    by_cases h : newest < b.minute
    · simp only [IsClosed, advanceClosed, h, if_true, Option.some.injEq, exists_eq_left']
      omega
    · simp only [IsClosed, advanceClosed, h, if_false, Option.some.injEq, exists_eq_left']
      omega

theorem isClosed_foldl (out : List (Bucket P)) (closed : Option Int) (minute : Int) :
    IsClosed (out.foldl advanceClosed closed) minute ↔
      IsClosed closed minute ∨ ∃ b ∈ out, minute ≤ b.minute := by
  induction out generalizing closed with
  | nil => simp
  | cons b out ih => simp [ih, isClosed_advance, or_assoc]

theorem closeThrough_buckets :
    (s.closeThrough nowMinute).1 ++ (s.closeThrough nowMinute).2.held = s.held := by
  unfold Series.closeThrough Series.held
  cases s.current with
  | none => simp
  | some b => by_cases h : b.minute < nowMinute <;> simp [h]

theorem closeThrough_lastClosed :
    (s.closeThrough nowMinute).2.lastClosed =
      (s.closeThrough nowMinute).1.foldl advanceClosed s.lastClosed := by
  unfold Series.closeThrough
  cases s.current with
  | none => rfl
  | some b => by_cases h : b.minute < nowMinute <;> simp [h]

theorem closeThrough_finished : (s.closeThrough nowMinute).2.finished = [] := by
  unfold Series.closeThrough
  cases s.current with
  | none => rfl
  | some b => by_cases h : b.minute < nowMinute <;> simp [h]

@[simp] theorem rollover_held : s.rollover.held = s.held := by
  unfold Series.rollover Series.held
  cases h : s.current <;> simp [h]

@[simp] theorem rollover_lastClosed : s.rollover.lastClosed = s.lastClosed := by
  unfold Series.rollover
  cases s.current <;> rfl

@[simp] theorem rollover_current : s.rollover.current = none := by
  unfold Series.rollover
  cases h : s.current <;> simp [h]

def ofMinute (ticks : List (Tick P)) (minute : Int) : List (Tick P) :=
  ticks.filter fun tick => tick.minute = minute

theorem ofMinute_snoc_other {tick : Tick P} {minute : Int} (other : tick.minute ≠ minute) :
    ofMinute (ticks ++ [tick]) minute = ofMinute ticks minute := by
  simp [ofMinute, filter_append, other]

theorem ofMinute_snoc_same (ticks : List (Tick P)) (tick : Tick P) :
    ofMinute (ticks ++ [tick]) tick.minute = ofMinute ticks tick.minute ++ [tick] := by
  simp [ofMinute, filter_append]

@[simp] theorem start_minute : (Bucket.start tick).minute = tick.minute := rfl

variable [LinearOrder P]

structure Summarizes (ticks : List (Tick P)) (opening high low close : P)
    (volume oi : Option Int) : Prop where
  ohlc : IsOhlc (ticks.map Tick.price) opening high low close
  volume : volume = lastReported (ticks.map Tick.volume)
  oi : oi = lastReported (ticks.map Tick.oi)

abbrev BucketOf (ticks : List (Tick P)) (b : Bucket P) : Prop :=
  Summarizes ticks b.opening b.high b.low b.close b.volume b.oi

theorem bucketOf_start : BucketOf [tick] (Bucket.start tick) :=
  ⟨IsOhlc.singleton _, by simp [Bucket.start], by simp [Bucket.start]⟩

theorem bucketOf_update (summary : BucketOf ticks b) (tick : Tick P) :
    BucketOf (ticks ++ [tick]) (b.update tick) := by
  obtain ⟨ohlc, volume, oi⟩ := summary
  refine ⟨?_, ?_, ?_⟩
  · simpa [Bucket.update] using ohlc.snoc tick.price
  · rw [map_append, map_singleton, lastReported_snoc, ← volume]
    cases h : tick.volume <;> simp [Bucket.update, h]
  · rw [map_append, map_singleton, lastReported_snoc, ← oi]
    cases h : tick.oi <;> simp [Bucket.update, h]

@[simp] theorem update_minute (b : Bucket P) (tick : Tick P) :
    (b.update tick).minute = b.minute := rfl

theorem add_of_not_accepts {s : Series P} {tick : Tick P} (rejected : s.accepts tick = false) :
    s.add tick = s := by
  unfold Series.add
  cases late : s.late tick with
  | true => simp
  | false =>
    cases current : s.current with
    | none => simp [Series.accepts, late, current] at rejected
    | some b =>
      have before : tick.minute < b.minute := by
        simpa [Series.accepts, late, current] using rejected
      simp [before.ne, before.not_gt]

theorem add_cases {s : Series P} {tick : Tick P} (accepts : s.accepts tick = true) :
    ¬ IsClosed s.lastClosed tick.minute ∧
    ((s.current = none ∧ s.add tick = { s with current := some (Bucket.start tick) }) ∨
     (∃ b, s.current = some b ∧ tick.minute = b.minute ∧
        s.add tick = { s with current := some (b.update tick) }) ∨
     (∃ b, s.current = some b ∧ b.minute < tick.minute ∧ s.add tick = { s with
          finished := s.finished ++ [b], current := some (Bucket.start tick) })) := by
  have late : s.late tick = false := by
    cases h : s.late tick with
    | true => simp [Series.accepts, h] at accepts
    | false => rfl
  refine ⟨by rw [← late_iff, late]; simp, ?_⟩
  unfold Series.add
  rw [late]
  cases current : s.current with
  | none => exact .inl ⟨rfl, rfl⟩
  | some b =>
    have bound : b.minute ≤ tick.minute := by
      simpa [Series.accepts, late, current] using accepts
    by_cases same : tick.minute = b.minute
    · exact .inr (.inl ⟨b, rfl, same, by simp [same]⟩)
    · have newer : b.minute < tick.minute := lt_of_le_of_ne bound (Ne.symm same)
      exact .inr (.inr ⟨b, rfl, newer, by simp [same, newer]⟩)

structure History (P : Type) where
  accepted : List (Tick P) := []
  emitted : List (Bucket P) := []
  series : Series P := {}

namespace History

def buckets (h : History P) : List (Bucket P) := h.emitted ++ h.series.held

def add (h : History P) (tick : Tick P) : History P :=
  { h with
    accepted := h.accepted ++ ((some tick).filter h.series.accepts).toList
    series := h.series.add tick }

def closeThrough (h : History P) (nowMinute : Int) : History P :=
  { h with
    emitted := h.emitted ++ (h.series.closeThrough nowMinute).1
    series := (h.series.closeThrough nowMinute).2 }

def rollover (h : History P) : History P := { h with series := h.series.rollover }

structure Faithful (h : History P) : Prop where
  increasing : h.buckets.Pairwise fun b c => b.minute < c.minute
  summarized : ∀ b ∈ h.buckets, BucketOf (ofMinute h.accepted b.minute) b
  covered : ∀ tick ∈ h.accepted, ∃ b ∈ h.buckets, b.minute = tick.minute
  watermark : ∀ minute, IsClosed h.series.lastClosed minute ↔
    ∃ b ∈ h.emitted, minute ≤ b.minute

def Settled (h : History P) : Prop := h.series.current = none → h.series.finished = []

theorem faithful_empty : ({} : History P).Faithful where
  increasing := List.Pairwise.nil
  summarized := by simp [buckets, Series.held]
  covered := by simp
  watermark := by simp [IsClosed]

omit [LinearOrder P] in
theorem closeThrough_buckets (h : History P) (nowMinute : Int) :
    (h.closeThrough nowMinute).buckets = h.buckets := by
  simp [buckets, closeThrough, MarketData.closeThrough_buckets]

theorem closeThrough_faithful {h : History P} (faithful : h.Faithful) (nowMinute : Int) :
    (h.closeThrough nowMinute).Faithful where
  increasing := by
    rw [closeThrough_buckets]
    exact faithful.increasing
  summarized := by
    rw [closeThrough_buckets]
    exact faithful.summarized
  covered := by
    rw [closeThrough_buckets]
    exact faithful.covered
  watermark := by
    intro minute
    simp [closeThrough, closeThrough_lastClosed, isClosed_foldl, faithful.watermark, or_and_right,
      exists_or]

omit [LinearOrder P] in
theorem closeThrough_settled (h : History P) (nowMinute : Int) :
    (h.closeThrough nowMinute).Settled :=
  fun _ => closeThrough_finished h.series nowMinute

theorem rollover_faithful {h : History P} (faithful : h.Faithful) : h.rollover.Faithful where
  increasing := by simpa [buckets, rollover] using faithful.increasing
  summarized := by simpa [buckets, rollover] using faithful.summarized
  covered := by simpa [buckets, rollover] using faithful.covered
  watermark := by simpa [rollover] using faithful.watermark

theorem open_faithful {h : History P} {tick : Tick P} {s : Series P} (faithful : h.Faithful)
    (newer : ∀ b ∈ h.buckets, b.minute < tick.minute)
    (held : s.held = h.series.held ++ [Bucket.start tick])
    (closed : s.lastClosed = h.series.lastClosed) :
    History.Faithful ⟨h.accepted ++ [tick], h.emitted, s⟩ := by
  have grown : History.buckets ⟨h.accepted ++ [tick], h.emitted, s⟩ =
      h.buckets ++ [Bucket.start tick] := by
    simp [buckets, held]
  refine ⟨?_, ?_, ?_, ?_⟩
  · rw [grown, pairwise_append]
    refine ⟨faithful.increasing, pairwise_singleton _ _, ?_⟩
    intro b old c new
    rw [mem_singleton.mp new]
    exact newer b old
  · rw [grown]
    intro b member
    rcases mem_append.mp member with old | new
    · simpa only [ofMinute_snoc_other (newer b old).ne'] using faithful.summarized b old
    · have fresh : ofMinute h.accepted tick.minute = [] := by
        apply filter_eq_nil_iff.mpr
        intro earlier accepted same
        obtain ⟨c, present, minute⟩ := faithful.covered earlier accepted
        have bound := newer c present
        simp only [decide_eq_true_eq] at same
        omega
      rw [mem_singleton.mp new, start_minute, ofMinute_snoc_same, fresh]
      exact bucketOf_start tick
  · rw [grown]
    intro earlier accepted
    rcases mem_append.mp accepted with old | new
    · obtain ⟨b, present, minute⟩ := faithful.covered earlier old
      exact ⟨b, mem_append_left _ present, minute⟩
    · rw [mem_singleton.mp new]
      exact ⟨Bucket.start tick, by simp, rfl⟩
  · simpa [closed] using faithful.watermark

omit [LinearOrder P] in
theorem buckets_of_current {h : History P} (current : h.series.current = some b) :
    h.buckets = h.emitted ++ h.series.finished ++ [b] := by
  simp [buckets, Series.held, current]

theorem older_of_current {h : History P} {c : Bucket P} (faithful : h.Faithful)
    (current : h.series.current = some b) (member : c ∈ h.emitted ++ h.series.finished) :
    c.minute < b.minute := by
  have increasing := faithful.increasing
  rw [buckets_of_current current, pairwise_append] at increasing
  exact increasing.2.2 c member b (mem_singleton_self b)

theorem update_faithful {h : History P} {tick : Tick P} (faithful : h.Faithful)
    (current : h.series.current = some b) (minute : tick.minute = b.minute) :
    History.Faithful ⟨h.accepted ++ [tick], h.emitted,
      { h.series with current := some (b.update tick) }⟩ := by
  have split := buckets_of_current current
  have grown : History.buckets ⟨h.accepted ++ [tick], h.emitted,
      { h.series with current := some (b.update tick) }⟩ =
      h.emitted ++ h.series.finished ++ [b.update tick] := by
    simp [buckets, Series.held]
  refine ⟨?_, ?_, ?_, faithful.watermark⟩
  · have increasing := faithful.increasing
    rw [split, pairwise_append] at increasing
    rw [grown, pairwise_append]
    refine ⟨increasing.1, pairwise_singleton _ _, ?_⟩
    intro c old d new
    rw [mem_singleton.mp new, update_minute]
    exact older_of_current faithful current old
  · rw [grown]
    intro c member
    rcases mem_append.mp member with old | new
    · have older : c.minute < tick.minute := minute ▸ older_of_current faithful current old
      have summary := faithful.summarized c (by rw [split]; exact mem_append_left _ old)
      simpa only [ofMinute_snoc_other older.ne'] using summary
    · have summary := faithful.summarized b (by simp [split])
      rw [mem_singleton.mp new, update_minute, ← minute, ofMinute_snoc_same, minute]
      exact bucketOf_update summary tick
  · rw [grown]
    intro earlier accepted
    rcases mem_append.mp accepted with old | new
    · obtain ⟨c, present, same⟩ := faithful.covered earlier old
      rw [split] at present
      rcases mem_append.mp present with before | last
      · exact ⟨c, mem_append_left _ before, same⟩
      · rw [mem_singleton.mp last] at same
        exact ⟨b.update tick, by simp, same⟩
    · rw [mem_singleton.mp new]
      exact ⟨b.update tick, by simp, minute.symm⟩

theorem add_faithful {h : History P} (faithful : h.Faithful) (settled : h.Settled)
    (tick : Tick P) : (h.add tick).Faithful ∧ (h.add tick).Settled := by
  cases accepts : h.series.accepts tick with
  | false =>
    have same : h.add tick = h := by
      simp [add, accepts, add_of_not_accepts accepts, Option.filter]
    rw [same]
    exact ⟨faithful, settled⟩
  | true =>
    obtain ⟨notClosed, step⟩ := add_cases accepts
    have shape : h.add tick = ⟨h.accepted ++ [tick], h.emitted, h.series.add tick⟩ := by
      simp [add, accepts, Option.filter]
    rw [shape]
    rcases step with ⟨current, step⟩ | ⟨b, current, minute, step⟩ | ⟨b, current, newer, step⟩
    · have emittedBefore : ∀ b ∈ h.emitted, b.minute < tick.minute := by
        intro b member
        by_contra bound
        exact notClosed ((faithful.watermark _).mpr ⟨b, member, not_lt.mp bound⟩)
      have finished := settled current
      rw [step]
      refine ⟨open_faithful faithful ?_ (by simp [Series.held, current]) rfl, ?_⟩
      · simpa [buckets, Series.held, current, finished] using emittedBefore
      · simp [Settled]
    · rw [step]
      exact ⟨update_faithful faithful current minute, by simp [Settled]⟩
    · rw [step]
      refine ⟨open_faithful faithful ?_ (by simp [Series.held, current]) rfl, by simp [Settled]⟩
      intro c member
      rw [buckets_of_current current] at member
      rcases mem_append.mp member with old | last
      · exact (older_of_current faithful current old).trans newer
      · rw [mem_singleton.mp last]
        exact newer

end History

end AlgoSystem.Proof.MarketData

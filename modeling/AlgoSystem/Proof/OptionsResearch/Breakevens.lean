import AlgoSystem.Proof.OptionsResearch.Payoff

namespace AlgoSystem.Proof.OptionsResearch.Breakevens
open General AlgoSystem.OptionsResearch Payoff List

variable {legs : List ResolvedLeg} {f : ℚ → ℚ} {points : List ℚ} {s x : ℚ}

def Isolated (f : ℚ → ℚ) (s : ℚ) : Prop :=
  0 ≤ s ∧ f s = 0 ∧ ∃ gap, 0 < gap ∧ ∀ t, 0 ≤ t → |t - s| < gap → f t = 0 → t = s

def Segments (f : ℚ → ℚ) (points : List ℚ) : Prop :=
  points.IsChain fun a b => a < b ∧ AffineOn f a b

theorem Isolated.not_flat {a b : ℚ} (isolated : Isolated f s) (nonneg : 0 ≤ a) (after : a < s)
    (before : s ≤ b) (line : AffineOn f a b) : f a ≠ 0 := by
  intro left
  obtain ⟨-, zero, gap, wide, alone⟩ := isolated
  have right : f b = 0 := by
    have value := line s after.le before
    rw [zero, left, mul_zero, mul_zero, zero_add, eq_comm] at value
    exact (mul_eq_zero.mp value).resolve_left (sub_ne_zero.mpr after.ne')
  -- a point of the flat segment next to `s`
  obtain ⟨t, more, less⟩ := exists_between (max_lt after (sub_lt_self s wide))
  obtain ⟨mem, near⟩ := max_lt_iff.mp more
  have flat := line t mem.le (less.le.trans before)
  rw [left, right, mul_zero, mul_zero, add_zero] at flat
  have isZero := (mul_eq_zero.mp flat).resolve_left (sub_ne_zero.mpr (after.trans_le before).ne')
  refine less.ne (alone t (nonneg.trans mem.le) ?_ isZero)
  rw [abs_lt]
  constructor <;> linarith

theorem crossing_eq {a b : ℚ} (line : AffineOn f a b) (after : a < s) (before : s < b)
    (zero : f s = 0) (left : f a ≠ 0) :
    (decide (f a < 0) ≠ decide (f b < 0) ∧ f b ≠ f a) ∧
      a + (0 - f a) * (b - a) / (f b - f a) = s := by
  have value := line s after.le before.le
  have here := sub_pos.mpr after
  have there := sub_pos.mpr before
  rw [zero, mul_zero] at value
  have opposite : f a * f b < 0 := by
    have square : 0 < (b - s) * (f a * f a) := mul_pos there (mul_self_pos.mpr left)
    have product : (s - a) * (f a * f b) = -((b - s) * (f a * f a)) := by
      linear_combination -(f a) * value
    exact neg_of_mul_neg_right (product ▸ neg_neg_of_pos square) here.le
  have differ : f b ≠ f a := by
    intro same
    rw [same] at opposite
    exact absurd opposite (mul_self_nonneg _).not_gt
  refine ⟨⟨?_, differ⟩, ?_⟩
  · rcases mul_neg_iff.mp opposite with ⟨positive, negative⟩ | ⟨negative, positive⟩
    · simp [negative, positive.le]
    · simp [negative, positive.le]
  · have apart : f b - f a ≠ 0 := sub_ne_zero.mpr differ
    field_simp
    linear_combination value

theorem crossing_zero {a b : ℚ} (line : AffineOn f a b) (proper : a < b) (left : f a ≠ 0)
    (crosses : decide (f a < 0) ≠ decide (f b < 0)) (differ : f b ≠ f a) :
    ∃ z, a ≤ z ∧ z ≤ b ∧ f z = 0 ∧ a + (0 - f a) * (b - a) / (f b - f a) = z := by
  have apart : f b - f a ≠ 0 := sub_ne_zero.mpr differ
  have width := sub_pos.mpr proper
  have share : 0 ≤ (0 - f a) / (f b - f a) ∧ (0 - f a) / (f b - f a) ≤ 1 := by
    rcases lt_or_gt_of_ne left with negative | positive
    · have rises : 0 ≤ f b := by simpa [negative] using crosses
      exact ⟨div_nonneg (by linarith) (by linarith), (div_le_one (by linarith)).mpr (by linarith)⟩
    · have falls : f b < 0 := by simpa [positive.not_gt] using crosses
      exact ⟨div_nonneg_of_nonpos (by linarith) (by linarith),
        (div_le_one_of_neg (by linarith)).mpr (by linarith)⟩
  rw [mul_div_right_comm]
  generalize ratio : (0 - f a) / (f b - f a) = r at share
  rw [div_eq_iff apart] at ratio
  have after : a ≤ a + r * (b - a) := le_add_of_nonneg_right (mul_nonneg share.1 width.le)
  have before : a + r * (b - a) ≤ b := by
    have less := mul_le_of_le_one_left width.le share.2
    linarith
  refine ⟨_, after, before, ?_, rfl⟩
  have value := line _ after before
  have zero : (b - a) * f (a + r * (b - a)) = 0 := by
    rw [value]
    linear_combination -(b - a) * ratio
  exact (mul_eq_zero.mp zero).resolve_left width.ne'

theorem crossings_sound {last : ℚ} (segments : Segments f points)
    (within : ∀ p ∈ points, 0 ≤ p ∧ p ≤ last)
    (reported : x ∈ crossings (points.map fun p => (p, f p))) :
    ∃ z, 0 ≤ z ∧ z ≤ last ∧ f z = 0 ∧ x = roundTo 4 z := by
  induction points with
  | nil => simp [crossings] at reported
  | cons a points ih =>
    cases points with
    | nil => simp [crossings] at reported
    | cons b points =>
      obtain ⟨⟨proper, line⟩, later⟩ := isChain_cons_cons.mp segments
      obtain ⟨first, below⟩ := within a mem_cons_self
      simp only [map_cons, crossings, mem_append] at reported
      rcases reported with here | there
      · split_ifs at here with left crosses
        · exact ⟨a, first, below, left, mem_singleton.mp here⟩
        · obtain ⟨z, after, before, zero, same⟩ := crossing_zero line proper left crosses.1 crosses.2
          rw [same] at here
          have upper := (within b (by simp)).2
          exact ⟨z, first.trans after, before.trans upper, zero, mem_singleton.mp here⟩
        · cases here
      · exact ih later (fun p mem => within p (mem_cons_of_mem a mem)) there

theorem crossings_complete {last : ℚ} (segments : Segments f points) (nonneg : ∀ p ∈ points, 0 ≤ p)
    (first : ∀ a ∈ points.head?, a ≤ s) (ends : points.getLast? = some last) (before : s ≤ last)
    (isolated : Isolated f s) :
    s = last ∨ roundTo 4 s ∈ crossings (points.map fun p => (p, f p)) := by
  induction points with
  | nil => cases ends
  | cons a points ih =>
    cases points with
    | nil =>
      cases ends
      exact .inl (before.antisymm (first a rfl))
    | cons b points =>
      obtain ⟨⟨proper, line⟩, later⟩ := isChain_cons_cons.mp segments
      simp only [map_cons, crossings, mem_append] at ih ⊢
      by_cases beyond : b ≤ s
      · have rest := ih later (fun p mem => nonneg p (mem_cons_of_mem a mem))
          (by simpa using beyond) (by simpa using ends)
        exact rest.imp_right .inr
      · rw [not_le] at beyond
        rcases (first a rfl).eq_or_lt with rfl | after
        · simp [isolated.2.1]
        · have left := isolated.not_flat (nonneg a mem_cons_self) after beyond.le line
          obtain ⟨crosses, same⟩ := crossing_eq line after beyond isolated.2.1 left
          rw [if_neg left, if_pos crosses, same]
          exact .inr (.inl (mem_singleton_self _))

theorem segments_of_sorted (sorted : points.Pairwise (· < ·))
    (affine : ∀ a b, (∀ q ∈ points.head?, q ≤ a) → (∀ p ∈ points, p ≤ a ∨ b ≤ p) →
      AffineOn f a b) : Segments f points := by
  induction points with
  | nil => exact List.IsChain.nil
  | cons a points ih =>
    obtain ⟨first, later⟩ := pairwise_cons.mp sorted
    cases points with
    | nil => exact List.IsChain.singleton a
    | cons b points =>
      have next := first b mem_cons_self
      refine isChain_cons_cons.mpr ⟨⟨next, affine a b ?_ ?_⟩, ih later ?_⟩
      · simp
      · rintro p (_ | ⟨_, mem⟩)
        · exact .inl le_rfl
        · rcases mem_cons.mp mem with rfl | mem
          · exact .inr le_rfl
          · exact .inr ((pairwise_cons.mp later).1 p mem).le
      · intro c d start apart
        have early := next.le.trans (start b rfl)
        refine affine c d (by simpa using early) ?_
        rintro p (_ | ⟨_, mem⟩)
        · exact .inl early
        · exact apart p mem

theorem mem_findBreakevens {strikes : List ℚ} {far : ℚ} :
    x ∈ findBreakevens legs strikes far ↔
      x ∈ crossings ((0 :: strikes ++ [far]).map fun p => (p, totalPnl legs p)) ∨
        totalPnl legs far = 0 ∧ x = roundTo 4 far := by
  unfold findBreakevens
  simp only [mem_insertionSort, mem_dedup, mem_append]
  constructor
  · rintro (found | last)
    · exact .inl found
    · split_ifs at last with missing
      · exact .inr ⟨missing.1, mem_singleton.mp last⟩
      · cases last
  · rintro (found | ⟨zero, rfl⟩)
    · exact .inl found
    · split_ifs with missing
      · exact .inr (mem_singleton_self _)
      · rw [not_and, not_not] at missing
        exact .inl (mem_of_getLast? (missing zero))

def far (legs : List ResolvedLeg) : ℚ :=
  farPoint ((payoffStrikes legs).headD 0) ((payoffStrikes legs).getLastD 0)

theorem breakevens_eq {n : Nat} (nonempty : legs ≠ []) (priced : ∀ leg ∈ legs, leg.price ≠ none) :
    (computePayoff legs n).breakevens = findBreakevens legs (payoffStrikes legs) (far legs) := by
  unfold computePayoff
  rw [if_neg nonempty, if_neg (by simpa using priced)]
  rfl

theorem points_sorted (positive : ∀ leg ∈ legs, 0 < leg.strike) (nonempty : legs ≠ []) :
    (0 :: payoffStrikes legs ++ [far legs]).Pairwise (· < ·) := by
  have strikes : ∀ p ∈ payoffStrikes legs, 0 < p ∧ p < far legs := by
    intro p listed
    obtain ⟨leg, mem, rfl⟩ := mem_payoffStrikes.mp listed
    exact ⟨positive leg mem, (le_highest mem).trans_lt (lt_farPoint _ _)⟩
  have start : 0 < far legs := by
    obtain ⟨leg, mem⟩ := exists_mem_of_ne_nil legs nonempty
    have listed := strikes _ (mem_payoffStrikes.mpr ⟨leg, mem, rfl⟩)
    exact listed.1.trans listed.2
  refine pairwise_append.mpr ⟨pairwise_cons.mpr
    ⟨fun p listed => (strikes p listed).1, dedup_insertionSort_lt _⟩, pairwise_singleton _ _, ?_⟩
  rintro p listed q last
  rw [mem_singleton.mp last]
  rcases mem_cons.mp listed with rfl | listed
  · exact start
  · exact (strikes p listed).2

/-- To the right of the highest strike the payoff is one line, so that an isolated zero beyond the
point up to which the code looks is the only one there, and too far from the others to round to one
of them. -/
theorem Isolated.not_reported {z : ℚ} (isolated : Isolated (totalPnl legs) s)
    (beyond : far legs < s) (below : z ≤ far legs) (nonneg : 0 ≤ z) (zero : totalPnl legs z = 0) :
    roundTo 4 s ≠ roundTo 4 z := by
  intro same
  have near := lt_add_two_of_roundTo_eq same.symm
  have width : (payoffStrikes legs).getLastD 0 + 1000 ≤ far legs := add_le_farPoint _ _
  refine isolated.not_flat nonneg (below.trans_lt beyond) le_rfl ?_ zero
  refine affineOn_totalPnl fun leg mem => .inl ?_
  have highest := le_highest mem
  linarith

/-- What is reported is right, and it is all there is exactly if no zero lies beyond the point up to
which the code looks. -/
theorem breakevens_complete_iff {n : Nat} (nonempty : legs ≠ [])
    (priced : ∀ leg ∈ legs, leg.price ≠ none) (positive : ∀ leg ∈ legs, 0 < leg.strike) :
    (computePayoff legs n).breakevens.Pairwise (· < ·) ∧
    (∀ x ∈ (computePayoff legs n).breakevens, ∃ s, 0 ≤ s ∧ totalPnl legs s = 0 ∧ x = roundTo 4 s) ∧
    ((∀ s, Isolated (totalPnl legs) s → roundTo 4 s ∈ (computePayoff legs n).breakevens) ↔
      ∀ s, Isolated (totalPnl legs) s → s ≤ far legs) := by
  rw [breakevens_eq nonempty priced]
  have sorted := points_sorted positive nonempty
  have segments : Segments (totalPnl legs) (0 :: payoffStrikes legs ++ [far legs]) := by
    refine segments_of_sorted sorted fun a b _ apart => affineOn_totalPnl fun leg mem => ?_
    exact apart _ (mem_cons_of_mem 0 (mem_append_left _ (mem_payoffStrikes.mpr ⟨leg, mem, rfl⟩)))
  have within : ∀ p ∈ 0 :: payoffStrikes legs ++ [far legs], 0 ≤ p ∧ p ≤ far legs := by
    obtain ⟨strikes, -, last⟩ := pairwise_append.mp sorted
    have start := last 0 mem_cons_self _ (mem_singleton_self _)
    intro p mem
    rcases mem_append.mp mem with point | isLast
    · refine ⟨?_, (last p point _ (mem_singleton_self _)).le⟩
      rcases mem_cons.mp point with rfl | strike
      · exact le_rfl
      · exact ((pairwise_cons.mp strikes).1 p strike).le
    · rw [mem_singleton.mp isLast]
      exact ⟨start.le, le_rfl⟩
  have sound : ∀ x ∈ findBreakevens legs (payoffStrikes legs) (far legs),
      ∃ s, 0 ≤ s ∧ s ≤ far legs ∧ totalPnl legs s = 0 ∧ x = roundTo 4 s := by
    intro x reported
    rcases mem_findBreakevens.mp reported with found | ⟨zero, rfl⟩
    · exact crossings_sound segments within found
    · exact ⟨far legs, (within _ (by simp)).1, le_rfl, zero, rfl⟩
  refine ⟨dedup_insertionSort_lt _, ?_, ?_, ?_⟩
  · intro x reported
    obtain ⟨s, nonneg, -, zero, same⟩ := sound x reported
    exact ⟨s, nonneg, zero, same⟩
  · intro complete s isolated
    by_contra beyond
    obtain ⟨z, nonneg, below, zero, same⟩ := sound _ (complete s isolated)
    exact isolated.not_reported (not_le.mp beyond) below nonneg zero same
  · intro near s isolated
    rw [mem_findBreakevens]
    rcases crossings_complete segments (fun p mem => (within p mem).1) (by simp [isolated.1])
      getLast?_concat (near s isolated) isolated with rfl | found
    · exact .inr ⟨isolated.2.1, rfl⟩
    · exact .inl found

def boughtCall (price : ℚ) : List ResolvedLeg := [⟨.buy, .call, 100, some price, .ask⟩]

theorem totalPnl_boughtCall (price s : ℚ) : totalPnl (boughtCall price) s = max (s - 100) 0 - price := by
  simp [totalPnl, boughtCall, legPayoff, Side.sign, intrinsic]

theorem isolated_boughtCall {price s : ℚ} (positive : 0 < price) :
    Isolated (totalPnl (boughtCall price)) s ↔ s = 100 + price := by
  have zero : ∀ t, totalPnl (boughtCall price) t = 0 ↔ t = 100 + price := by
    intro t
    rw [totalPnl_boughtCall]
    rcases max_cases (t - 100) 0 with ⟨same, side⟩ | ⟨same, side⟩ <;> rw [same] <;>
      constructor <;> intro h <;> linarith
  constructor
  · rintro ⟨-, isZero, -⟩
    exact (zero s).mp isZero
  · rintro rfl
    exact ⟨by linarith, (zero _).mpr rfl, 1, one_pos, fun t _ _ isZero => (zero t).mp isZero⟩

theorem cheap_call_breakeven :
    Isolated (totalPnl (boughtCall 5)) 105 ∧
      roundTo 4 105 ∈ (computePayoff (boughtCall 5) 1).breakevens := by
  have isolated : Isolated (totalPnl (boughtCall 5)) 105 :=
    (isolated_boughtCall (by norm_num)).mpr (by norm_num)
  have within : ∀ s, Isolated (totalPnl (boughtCall 5)) s → s ≤ far (boughtCall 5) := by
    intro s other
    rw [(isolated_boughtCall (by norm_num)).mp other]
    decide +kernel
  obtain ⟨-, -, complete⟩ := @breakevens_complete_iff (boughtCall 5) 1 (by decide) (by decide)
    (by decide +kernel)
  exact ⟨isolated, complete.mpr within 105 isolated⟩

/-- A call at 100 bought for 1500 breaks even at 1600, and the code looks up to 1100. -/
theorem dear_call_breakeven_missed :
    Isolated (totalPnl (boughtCall 1500)) 1600 ∧ (computePayoff (boughtCall 1500)).breakevens = [] :=
  ⟨(isolated_boughtCall (by norm_num)).mpr (by norm_num), by decide +kernel⟩

end AlgoSystem.Proof.OptionsResearch.Breakevens

import AlgoSystem.Research.HistoricalCandles

namespace AlgoSystem.Proof.Research.Budget
open General AlgoSystem.MarketData AlgoSystem.Research List

variable {outcome : Outcome} {allowBackfill : Bool} {request : HistoryRequest}
  {runStart runEnd : Int} {days : List Int} {rows : List (MarketCandle ℚ)}

def rateLimited (outcome : Outcome) : Bool := outcome.error? = some .rateLimit

def answersMet (answer : Nat → Outcome) : List Outcome :=
  if !(answer 0).retryable then [answer 0]
  else if !(answer 1).retryable then [answer 0, answer 1]
  else [answer 0, answer 1, answer 2]

def fetchesMet (provider : Provider) :
    (budget number : Nat) → List (Int × Int) → List (List Attempt)
  | 0, _, _ => []
  | _ + 1, _, [] => []
  | budget + 1, number, run :: runs =>
    let start := startOfDay run.1
    let last := endOfDay run.2
    let answers := answersMet fun attempt => provider number attempt start last
    answers.map (Attempt.mk start last) ::
      if answers.any rateLimited then [] else fetchesMet provider budget (number + 1) runs

def plannedRuns (calendar : Calendar) (settings : HistorySettings) (table : List (MarketCandle ℚ))
    (request : HistoryRequest) : List (Int × Int) :=
  match request.instrument with
  | none => []
  | some key =>
    match missingTradingDays calendar (queryDb table (request.span key)) (request.span key) with
    | .error _ => []
    | .ok missing =>
      if request.cutoff.all calendar.covered && request.allowBackfill &&
          decide (missing.length ≤ settings.maxBackfillDays) then contiguousRuns missing
      else []

def historyCalls (attempts : List Attempt) : List Attempt :=
  attempts.filter fun attempt => attempt.outcome.calls

/-- The history calls made after the first of their fetch are as many as the fetches in which every
attempt to connect fails. -/
def Balanced (fetches : List (List Attempt)) : Prop :=
  (fetches.flatMap fun fetch => (historyCalls fetch).tail).length =
    fetches.countP fun fetch => (historyCalls fetch).isEmpty

structure Bounded (settings : HistorySettings) (request : HistoryRequest) (result : HistoricalDataResult)
    (log : List Attempt) : Prop where
  budget : (historyCalls log).length ≤ settings.maxProviderCalls
  reported : result.providerCallCount = (historyCalls log).length
  stops : log.Pairwise fun attempt _ => rateLimited attempt.outcome = false
  ranges : ∀ attempt ∈ log, startOfDay request.start ≤ attempt.start ∧
    attempt.start ≤ attempt.last ∧ attempt.last ≤ endOfDay request.last ∧
    ∀ cutoff ∈ request.cutoff, attempt.last ≤ endOfDay cutoff

variable (answer : Nat → Outcome)

theorem fetchAttempts_fst :
    (fetchAttempts answer connectionRetryAttempts 0).1 = answersMet answer := by
  cases first : (answer 0).retryable <;> cases second : (answer 1).retryable <;>
    simp [connectionRetryAttempts, fetchAttempts, answersMet, first, second]

theorem rateLimited_of_returned :
    outcome.returned = .error .rateLimited ↔ rateLimited outcome = true := by
  cases outcome with
  | answered candles => simp [Outcome.returned, rateLimited, Outcome.error?]
  | refused error | failed error =>
    cases error <;> simp [Outcome.returned, rateLimited, Outcome.error?]

theorem not_rateLimited_of_retryable (retryable : outcome.retryable = true) :
    rateLimited outcome = false := by
  have connection := of_decide_eq_true retryable
  simp [rateLimited, connection]

theorem fetchAttempts_snd :
    (fetchAttempts answer connectionRetryAttempts 0).2 = .error .rateLimited ↔
      (answersMet answer).any rateLimited = true := by
  cases first : (answer 0).retryable with
  | false =>
    simp [connectionRetryAttempts, fetchAttempts, answersMet, first, rateLimited_of_returned]
  | true =>
    have one := not_rateLimited_of_retryable first
    cases second : (answer 1).retryable with
    | false =>
      simp [connectionRetryAttempts, fetchAttempts, answersMet, first, second, one,
        rateLimited_of_returned]
    | true =>
      have two := not_rateLimited_of_retryable second
      simp [connectionRetryAttempts, fetchAttempts, answersMet, first, second, one, two,
        rateLimited_of_returned]

theorem answersMet_stops :
    (answersMet answer).Pairwise fun outcome _ => rateLimited outcome = false := by
  cases first : (answer 0).retryable with
  | false => simp [answersMet, first]
  | true =>
    have one := not_rateLimited_of_retryable first
    cases second : (answer 1).retryable with
    | false => simp [answersMet, first, second, one]
    | true => simp [answersMet, first, second, one, not_rateLimited_of_retryable second]

theorem over_spec (settings : HistorySettings) (provider : Provider) (span : Span)
    (runs : List (Int × Int)) (work : Backfill) :
    let fetches := fetchesMet provider (settings.maxProviderCalls - work.calls) work.calls runs
    let after := Backfill.over settings provider span runs work
    after.log = work.log ++ fetches.flatten ∧ after.calls = work.calls + fetches.length := by
  induction runs generalizing work with
  | nil =>
    cases budget : settings.maxProviderCalls - work.calls <;>
      simp [Backfill.over, fetchesMet]
  | cons run runs ih =>
    by_cases exhausted : settings.maxProviderCalls ≤ work.calls
    · have budget : settings.maxProviderCalls - work.calls = 0 := by omega
      simp [Backfill.over, exhausted, budget, fetchesMet]
    · obtain ⟨left, budget⟩ : ∃ left, settings.maxProviderCalls - work.calls = left + 1 :=
        ⟨settings.maxProviderCalls - work.calls - 1, by omega⟩
      have rest : settings.maxProviderCalls - (work.calls + 1) = left := by omega
      simp only [Backfill.over, if_neg exhausted, budget, fetchesMet]
      generalize (fun attempt =>
        provider work.calls attempt (startOfDay run.1) (endOfDay run.2)) = answer
      have limit := fetchAttempts_snd answer
      rw [fetchAttempts_fst]
      generalize (answersMet answer).map (Attempt.mk (startOfDay run.1) (endOfDay run.2)) =
        attempts
      -- what the rest of the loop adds to a state that has recorded this fetch
      have continued : ∀ next : Backfill, next.log = work.log ++ attempts →
          next.calls = work.calls + 1 →
          (Backfill.over settings provider span runs next).log = work.log ++
              (attempts :: fetchesMet provider left (work.calls + 1) runs).flatten ∧
            (Backfill.over settings provider span runs next).calls = work.calls +
              (attempts :: fetchesMet provider left (work.calls + 1) runs).length := by
        intro next log calls
        have spec := ih next
        rw [calls, rest, log] at spec
        refine ⟨spec.1.trans ?_, spec.2.trans ?_⟩
        · rw [flatten_cons, List.append_assoc]
        · rw [length_cons]
          omega
      split
      next limited =>
        rw [if_pos (limit.mp limited)]
        simp
      next status other failed =>
        rw [if_neg (by rw [← limit, failed]; simpa using other)]
        exact continued _ rfl rfl
      next raw succeeded =>
        rw [if_neg (by rw [← limit, succeeded]; simp)]
        exact continued _ rfl rfl

section Request
variable {calendar : Calendar} {settings : HistorySettings} {provider : Provider}
  {table : List (MarketCandle ℚ)} {result : HistoricalDataResult} {work : Backfill}

variable {span : Span}

theorem runRequest_eq_ok
    (returned : runRequest calendar settings provider table span allowBackfill = .ok (result, work)) :
    ∃ missing, missingTradingDays calendar (queryDb table span) span = .ok missing ∧
      result.providerCallCount = work.calls ∧
      work = if allowBackfill && decide (missing.length ≤ settings.maxBackfillDays) then
          Backfill.over settings provider span (contiguousRuns missing) { table }
        else { table } := by
  unfold runRequest at returned
  cases found : missingTradingDays calendar (queryDb table span) span with
  | error error =>
    simp only [found] at returned
    cases returned
  | ok missing =>
    simp only [found] at returned
    refine ⟨missing, rfl, ?_⟩
    split at returned
    next fetches =>
      cases again : missingTradingDays calendar (queryDb (Backfill.over settings provider span
          (contiguousRuns missing) { table }).table span) span with
      | error error =>
        simp only [again] at returned
        cases returned
      | ok left =>
        simp only [again] at returned
        cases returned
        simp only [Bool.and_eq_true] at fetches
        exact ⟨rfl, by rw [if_pos (by simp [fetches.1.2, fetches.2])]⟩
    next stays =>
      cases returned
      refine ⟨rfl, ?_⟩
      split
      next allowed =>
        -- without a missing day there is nothing to fetch
        have none_missing : missing = [] := by
          by_contra some_missing
          exact stays (by simp_all)
        rw [none_missing]
        rfl
      · rfl

section
variable
  (returned : getHistoricalCandles calendar settings provider table request = .ok (result, work))
include returned

theorem getHistoricalCandles_cases :
    (work = { table } ∧ result.providerCallCount = 0 ∧
      plannedRuns calendar settings table request = []) ∨
    ∃ key, request.instrument = some key ∧ request.cutoff.all calendar.covered = true ∧
      runRequest calendar settings provider table (request.span key) request.allowBackfill =
        .ok (result, work) := by
  cases instrument : request.instrument with
  | none =>
    simp only [getHistoricalCandles, instrument] at returned
    cases returned
    exact .inl ⟨rfl, rfl, by simp [plannedRuns, instrument]⟩
  | some key =>
    simp only [getHistoricalCandles, instrument] at returned
    cases cutoff : request.cutoff with
    | none =>
      simp only [cutoff] at returned
      exact .inr ⟨key, rfl, rfl, returned⟩
    | some day =>
      simp only [cutoff] at returned
      split at returned
      next uncovered =>
        cases returned
        have stopped : request.cutoff.all calendar.covered = false := by
          simpa [cutoff] using uncovered
        refine .inl ⟨rfl, rfl, ?_⟩
        simp only [plannedRuns, instrument, stopped, Bool.false_and]
        cases missingTradingDays calendar (queryDb table (request.span key))
          (request.span key) <;> simp
      next covered =>
        split at returned
        next early =>
          cases returned
          have reversed : calendar.tradingDaysInRange (request.span key).start
              (request.span key).last = .error .endBeforeStart := by
            rw [Calendar.tradingDaysInRange]
            exact if_pos early
          exact .inl ⟨rfl, rfl, by
            simp [plannedRuns, instrument, missingTradingDays, reversed]⟩
        · exact .inr ⟨key, rfl, by simpa using covered, returned⟩

theorem getHistoricalCandles_calls :
    let fetches := fetchesMet provider settings.maxProviderCalls 0
      (plannedRuns calendar settings table request)
    work.log = fetches.flatten ∧ result.providerCallCount = fetches.length := by
  have idle : (fetchesMet provider settings.maxProviderCalls 0 []) = [] := by
    cases settings.maxProviderCalls <;> rfl
  obtain ⟨rfl, count, planned⟩ | ⟨key, instrument, covered, ran⟩ :=
    getHistoricalCandles_cases returned
  · simp [planned, idle, count]
  · obtain ⟨missing, found, count, rfl⟩ := runRequest_eq_ok ran
    simp only [plannedRuns, instrument, found, covered, Bool.true_and]
    rw [count]
    split
    · have spec := over_spec settings provider (request.span key) (contiguousRuns missing) { table }
      simpa using spec
    · simp [idle]

end

end Request

theorem fetchesMet_length (provider : Provider) (budget number : Nat) (runs : List (Int × Int)) :
    (fetchesMet provider budget number runs).length ≤ budget := by
  induction budget generalizing number runs with
  | zero => simp [fetchesMet]
  | succ budget ih =>
    cases runs with
    | nil => simp [fetchesMet]
    | cons run runs =>
      simp only [fetchesMet, length_cons]
      split
      · simp
      · have bound := ih (number + 1) runs
        omega

theorem fetchesMet_stops (provider : Provider) (budget number : Nat) (runs : List (Int × Int)) :
    (fetchesMet provider budget number runs).flatten.Pairwise fun attempt _ =>
      rateLimited attempt.outcome = false := by
  induction budget generalizing number runs with
  | zero => simp [fetchesMet]
  | succ budget ih =>
    cases runs with
    | nil => simp [fetchesMet]
    | cons run runs =>
      simp only [fetchesMet, flatten_cons, pairwise_append]
      refine ⟨pairwise_map.mpr (answersMet_stops _), ?_, ?_⟩
      · split
        · exact List.Pairwise.nil
        · exact ih (number + 1) runs
      · intro attempt mem other later
        split at later
        · cases later
        next clear =>
          obtain ⟨outcome, met, rfl⟩ := mem_map.mp mem
          rw [Bool.not_eq_true, any_eq_false] at clear
          simpa using clear outcome met

theorem mem_fetchesMet {provider : Provider} {budget number : Nat} {runs : List (Int × Int)}
    {attempt : Attempt} (mem : attempt ∈ (fetchesMet provider budget number runs).flatten) :
    ∃ run ∈ runs, attempt.start = startOfDay run.1 ∧ attempt.last = endOfDay run.2 := by
  induction budget generalizing number runs with
  | zero => simp [fetchesMet] at mem
  | succ budget ih =>
    cases runs with
    | nil => simp [fetchesMet] at mem
    | cons run runs =>
      simp only [fetchesMet, flatten_cons, mem_append] at mem
      obtain here | later := mem
      · obtain ⟨outcome, -, rfl⟩ := mem_map.mp here
        exact ⟨run, mem_cons_self, rfl, rfl⟩
      · split at later
        · cases later
        · obtain ⟨other, member, bounds⟩ := ih later
          exact ⟨other, mem_cons_of_mem _ member, bounds⟩

variable {run : Int × Int}

theorem mem_groupRuns (ordered : runStart ≤ runEnd) (sorted : (runEnd :: days).Pairwise (· ≤ ·))
    (mem : run ∈ groupRuns runStart runEnd days) :
    (run.1 = runStart ∨ run.1 ∈ days) ∧ (run.2 = runEnd ∨ run.2 ∈ days) ∧ run.1 ≤ run.2 := by
  induction days generalizing runStart runEnd with
  | nil =>
    rw [mem_singleton.mp mem]
    exact ⟨.inl rfl, .inl rfl, ordered⟩
  | cons day days ih =>
    obtain ⟨first, later⟩ := pairwise_cons.mp sorted
    have step : runEnd ≤ day := first day mem_cons_self
    simp only [groupRuns] at mem
    split at mem
    · obtain ⟨start, last, order⟩ := ih (ordered.trans step) later mem
      exact ⟨start.imp_right (mem_cons_of_mem _), .inr (mem_cons.mpr last), order⟩
    · obtain rfl | rest := mem_cons.mp mem
      · exact ⟨.inl rfl, .inl rfl, ordered⟩
      · obtain ⟨start, last, order⟩ := ih le_rfl later rest
        exact ⟨.inr (mem_cons.mpr start), .inr (mem_cons.mpr last), order⟩

variable {missing : List Int}

theorem mem_contiguousRuns (mem : run ∈ contiguousRuns missing) :
    run.1 ∈ missing ∧ run.2 ∈ missing ∧ run.1 ≤ run.2 := by
  rw [contiguousRuns] at mem
  have sorted := pairwise_insertionSort (· ≤ ·) missing
  have same : ∀ day, day ∈ missing.insertionSort (· ≤ ·) ↔ day ∈ missing :=
    fun day => mem_insertionSort _
  split at mem
  · cases mem
  next day days order =>
    rw [order] at sorted same
    obtain ⟨start, last, bound⟩ := mem_groupRuns le_rfl sorted mem
    exact ⟨(same _).mp (mem_cons.mpr start), (same _).mp (mem_cons.mpr last), bound⟩

variable {day : Int}

theorem groupRuns_covers (ordered : runStart ≤ runEnd) (sorted : (runEnd :: days).Pairwise (· ≤ ·))
    (mem : (runStart ≤ day ∧ day ≤ runEnd) ∨ day ∈ days) :
    ∃ run ∈ groupRuns runStart runEnd days, run.1 ≤ day ∧ day ≤ run.2 := by
  induction days generalizing runStart runEnd with
  | nil => exact ⟨(runStart, runEnd), mem_cons_self, mem.resolve_right (by simp)⟩
  | cons next days ih =>
    obtain ⟨first, later⟩ := pairwise_cons.mp sorted
    have step : runEnd ≤ next := first next mem_cons_self
    rw [mem_cons] at mem
    simp only [groupRuns]
    split
    · refine ih (ordered.trans step) later ?_
      obtain here | rfl | rest := mem
      · exact .inl ⟨here.1, here.2.trans step⟩
      · exact .inl ⟨ordered.trans step, le_rfl⟩
      · exact .inr rest
    · obtain here | ahead := mem
      · exact ⟨(runStart, runEnd), mem_cons_self, here⟩
      · have bounds : (next ≤ day ∧ day ≤ next) ∨ day ∈ days :=
          ahead.imp_left fun same => ⟨same.ge, same.le⟩
        obtain ⟨run, member, covers⟩ := ih le_rfl later bounds
        exact ⟨run, mem_cons_of_mem _ member, covers⟩

theorem contiguousRuns_covers (mem : day ∈ missing) :
    ∃ run ∈ contiguousRuns missing, run.1 ≤ day ∧ day ≤ run.2 := by
  have sorted := pairwise_insertionSort (· ≤ ·) missing
  rw [← mem_insertionSort (· ≤ ·)] at mem
  rw [contiguousRuns]
  split
  next empty =>
    rw [empty] at mem
    cases mem
  next first days order =>
    rw [order] at sorted mem
    refine groupRuns_covers le_rfl sorted ?_
    exact (mem_cons.mp mem).imp_left fun same => ⟨same.ge, same.le⟩

theorem groupRuns_length (runStart runEnd : Int) (days : List Int) :
    (groupRuns runStart runEnd days).length ≤ days.length + 1 := by
  induction days generalizing runStart runEnd with
  | nil => simp [groupRuns]
  | cons day days ih =>
    simp only [groupRuns]
    split
    · exact (ih runStart day).trans (Nat.le_succ _)
    · exact Nat.succ_le_succ (ih day day)

theorem contiguousRuns_length (missing : List Int) :
    (contiguousRuns missing).length ≤ missing.length := by
  rw [contiguousRuns, ← length_insertionSort (· ≤ ·) missing]
  split
  · simp
  next day days order =>
    rw [order]
    exact groupRuns_length day day days

theorem mem_daysBetween {start last : Int} :
    day ∈ daysBetween start last ↔ start ≤ day ∧ day ≤ last := by
  simp only [daysBetween, mem_map, mem_range]
  constructor
  · rintro ⟨n, bound, rfl⟩
    omega
  · intro ⟨first, bound⟩
    exact ⟨(day - start).toNat, by omega, by omega⟩

variable {calendar : Calendar}

theorem mem_missingTradingDays {span : Span}
    (found : missingTradingDays calendar rows span = .ok missing) (mem : day ∈ missing) :
    (span.start ≤ day ∧ day ≤ span.last) ∧ ∀ cutoff ∈ span.cutoff, day ≤ cutoff := by
  simp only [missingTradingDays, Calendar.tradingDaysInRange] at found
  by_cases reversed : span.last < span.start
  · simp [reversed] at found
  · by_cases covered : (daysBetween span.start span.last).all calendar.covered
    · simp only [if_neg reversed, if_pos covered, Except.ok.injEq] at found
      rw [← found] at mem
      obtain ⟨mem, allowed⟩ := mem_filter.mp mem
      have range := mem_of_mem_filter (mem_of_mem_filter mem)
      refine ⟨mem_daysBetween.mp range, ?_⟩
      intro cutoff isCutoff
      simpa using Option.all_eq_true _ _ |>.mp allowed cutoff isCutoff
    · simp only [if_neg reversed, if_neg covered, Except.ok.injEq] at found
      rw [← found] at mem
      cases mem

theorem runs_of_missing {span : Span} (found : missingTradingDays calendar rows span = .ok missing)
    (mem : run ∈ contiguousRuns missing) :
    span.start ≤ run.1 ∧ run.1 ≤ run.2 ∧ run.2 ≤ span.last ∧
      ∀ cutoff ∈ span.cutoff, run.2 ≤ cutoff := by
  obtain ⟨first, last, order⟩ := mem_contiguousRuns mem
  obtain ⟨⟨lower, -⟩, -⟩ := mem_missingTradingDays found first
  obtain ⟨⟨-, upper⟩, cutoffs⟩ := mem_missingTradingDays found last
  exact ⟨lower, order, upper, cutoffs⟩

theorem clamped_le (request : HistoryRequest) : request.clamped ≤ request.last := by
  unfold HistoryRequest.clamped
  split
  · split <;> omega
  · exact le_rfl

theorem mem_plannedRuns {settings : HistorySettings} {table : List (MarketCandle ℚ)}
    (mem : run ∈ plannedRuns calendar settings table request) :
    request.start ≤ run.1 ∧ run.1 ≤ run.2 ∧ run.2 ≤ request.last ∧
      ∀ cutoff ∈ request.cutoff, run.2 ≤ cutoff := by
  unfold plannedRuns at mem
  split at mem
  · cases mem
  next key _ =>
    split at mem
    · cases mem
    next missing found =>
      split at mem
      · obtain ⟨lower, order, upper, cutoffs⟩ := runs_of_missing found mem
        exact ⟨lower, order, le_trans upper (clamped_le request), cutoffs⟩
      · cases mem

theorem historyCalls_flatten (fetches : List (List Attempt)) :
    (historyCalls fetches.flatten).length +
        (fetches.countP fun fetch => (historyCalls fetch).isEmpty) =
      fetches.length + (fetches.flatMap fun fetch => (historyCalls fetch).tail).length := by
  induction fetches with
  | nil => rfl
  | cons fetch fetches ih =>
    have split : historyCalls (fetch :: fetches).flatten =
        historyCalls fetch ++ historyCalls fetches.flatten := by
      rw [historyCalls, flatten_cons, filter_append]
      rfl
    rw [split, length_append, countP_cons, length_cons, flatMap_cons, length_append, length_tail]
    cases made : historyCalls fetch with
    | nil =>
      simp only [isEmpty_nil, if_true, length_nil]
      omega
    | cons first rest =>
      simp only [isEmpty_cons, Bool.false_eq_true, if_false, length_cons]
      omega

theorem historyCalls_flatten_eq_iff (fetches : List (List Attempt)) :
    fetches.length = (historyCalls fetches.flatten).length ↔ Balanced fetches := by
  have count := historyCalls_flatten fetches
  rw [Balanced]
  omega

theorem startOfDay_le {a b : Int} (order : a ≤ b) : startOfDay a ≤ startOfDay b := by
  simp only [startOfDay, oneDay, oneMinute]
  omega

theorem bounded_iff_balanced {calendar : Calendar} {settings : HistorySettings} {provider : Provider}
    {table : List (MarketCandle ℚ)} {request : HistoryRequest} {result : HistoricalDataResult}
    {work : Backfill} (returned : getHistoricalCandles calendar settings provider table request =
      .ok (result, work)) :
    Bounded settings request result work.log ↔
      Balanced (fetchesMet provider settings.maxProviderCalls 0
        (plannedRuns calendar settings table request)) := by
  obtain ⟨log, count⟩ := getHistoricalCandles_calls returned
  have limit := fetchesMet_length provider settings.maxProviderCalls 0
    (plannedRuns calendar settings table request)
  rw [← historyCalls_flatten_eq_iff]
  constructor
  · intro bounded
    rw [← count, bounded.reported, log]
  · intro equal
    refine ⟨?_, ?_, ?_, ?_⟩
    · rw [log, ← equal]
      exact limit
    · rw [count, log, equal]
    · rw [log]
      exact fetchesMet_stops _ _ _ _
    · intro attempt mem
      rw [log] at mem
      obtain ⟨run, planned, start, last⟩ := mem_fetchesMet mem
      obtain ⟨lower, order, upper, cutoffs⟩ := mem_plannedRuns planned
      have ends : ∀ day, run.2 ≤ day → endOfDay run.2 ≤ endOfDay day := by
        intro day bound
        have next := startOfDay_le (Int.add_le_add_right bound 1)
        simp only [endOfDay]
        omega
      rw [start, last]
      refine ⟨startOfDay_le lower, ?_, ends _ upper, fun cutoff isCutoff =>
        ends _ (cutoffs cutoff isCutoff)⟩
      simp only [endOfDay, startOfDay, oneDay, oneMinute]
      omega

theorem Balanced.cons {fetch : List Attempt} {fetches : List (List Attempt)} (call : Attempt)
    (one : historyCalls fetch = [call]) (rest : Balanced fetches) :
    Balanced (fetch :: fetches) := by
  rw [Balanced, flatMap_cons, countP_cons, one]
  exact rest

theorem balanced_of_connected {provider : Provider}
    (connected : ∀ fetch attempt start last, (provider fetch attempt start last).calls = true)
    (steady : ∀ fetch attempt start last, (provider fetch attempt start last).retryable = false)
    (budget number : Nat) (runs : List (Int × Int)) :
    Balanced (fetchesMet provider budget number runs) := by
  induction budget generalizing number runs with
  | zero => rfl
  | succ budget ih =>
    cases runs with
    | nil => rfl
    | cons run runs =>
      rw [fetchesMet]
      refine Balanced.cons ⟨startOfDay run.1, endOfDay run.2,
        provider number 0 (startOfDay run.1) (endOfDay run.2)⟩ ?_ ?_
      · simp [answersMet, steady, historyCalls, connected]
      · split
        · rfl
        · exact ih (number + 1) runs

section Cases

def oneDayRequest : HistoryRequest where
  instrument := some ("NIFTY", "NSE")
  interval := "5minute"
  start := 20718
  last := 20718

def oneCallSettings : HistorySettings := { maxProviderCalls := 1 }

theorem bounded_empty_answer : ∃ result work,
    getHistoricalCandles nse oneCallSettings (fun _ _ _ _ => .answered []) [] oneDayRequest =
      .ok (result, work) ∧ Bounded oneCallSettings oneDayRequest result work.log := by
  cases returned : getHistoricalCandles nse oneCallSettings (fun _ _ _ _ => .answered []) []
      oneDayRequest with
  | error error =>
    have ok : (getHistoricalCandles nse oneCallSettings (fun _ _ _ _ => .answered []) []
      oneDayRequest).toOption.isSome = true := by decide +kernel
    rw [returned] at ok
    cases ok
  | ok out =>
    refine ⟨out.1, out.2, rfl, (bounded_iff_balanced returned).mpr ?_⟩
    exact balanced_of_connected (by simp [Outcome.calls])
      (by simp [Outcome.retryable, Outcome.error?]) _ _ _

/-- With a budget of one call, a history call that always fails with a connection error is made
three times and reported once. -/
theorem retries_not_bounded : ∃ result work,
    getHistoricalCandles nse oneCallSettings (fun _ _ _ _ => .failed .connection) []
      oneDayRequest = .ok (result, work) ∧
    result.providerCallCount = 1 ∧ (historyCalls work.log).length = 3 := by
  have counts : (getHistoricalCandles nse oneCallSettings (fun _ _ _ _ => .failed .connection) []
      oneDayRequest).toOption.map (fun out => (out.1.providerCallCount, (historyCalls out.2.log).length)) =
      some (1, 3) := by decide +kernel
  cases returned : getHistoricalCandles nse oneCallSettings
      (fun _ _ _ _ => .failed .connection) [] oneDayRequest with
  | error error =>
    rw [returned] at counts
    cases counts
  | ok out =>
    rw [returned] at counts
    obtain ⟨reported, made⟩ := Prod.mk.inj (Option.some.inj counts)
    exact ⟨out.1, out.2, rfl, reported, made⟩

end Cases

end AlgoSystem.Proof.Research.Budget

import AlgoSystem.General.Runs
import AlgoSystem.Intraday.Bot
import AlgoSystem.Proof.Intraday.Repaint

namespace AlgoSystem.Proof.Intraday.Reentry
open General AlgoSystem.Intraday Repaint

structure Session where
  portfolio : Portfolio
  traded : List Int

section Step
variable (config : Config)

/-- The signal bar on which the tick opens a leg. -/
def tradedBar (p : Portfolio) (market : Market) : Option Int :=
  (settled config p market).bind fun p =>
    (entry config p market).bind fun trade =>
      match p.open trade.2 with
      | .ok _ => some trade.1.entryTs
      | .error _ => none

def step (session : Session) (market : Market) : Option Session :=
  some
    { portfolio := tick config session.portfolio market
      traded := session.traded ++ (tradedBar config session.portfolio market).toList }

def TrailCrossed (direction : Direction) (minutes : List Bar) : Prop :=
  let closes := (resample5min minutes).map Bar.close
  config.emaTrailPeriod ≤ closes.length ∧
    ∃ lastClose ∈ closes.getLast?, ∃ lastEma ∈ (ewm config.emaTrailPeriod closes).getLast?,
      match direction with
      | .ce => lastClose < lastEma
      | .pe => lastEma < lastClose

/-- Without a quote the leg is kept; at a quote, if the stop-loss is not reached, nor the trailing
stop of a leg of which half is booked. -/
def StaysOpen (leg : OpenLeg) (market : Market) : Prop :=
  ∀ mark ∈ market.mark, leg.slPrice < mark ∧
    (leg.bookedHalf = true ∨ leg.target1Price ≤ mark →
      ¬ TrailCrossed config leg.direction market.spot)

/-- What keeps a tick from buying, by what it reads and by the ledger before it. -/
inductive Shut (p : Portfolio) (market : Market) : Prop
  | session
    (away : ¬ (market.isTradingDay && inWindow config market.now && !market.spot.isEmpty) = true)
  | hour (late : config.hardExitTime ≤ timeOfDay market.now)
  | day (closed : isTradableDay market.today [market.nextWeeklyExpiry] config.skipExpiryDay = false)
  | expiry (far : 7 < market.nextWeeklyExpiry - market.today)
  | quote (unusable : ∀ ltp ∈ market.ltp, ltp ≤ 1 ∨ 2000 < ltp)
  | held (leg : OpenLeg) (holds : p.openLeg = some leg) (stays : StaysOpen config leg market)
  | losses (sameDay : p.sessionDate = some market.today)
    (reached : config.maxLossesPerDay ≤ p.lossesToday)
  | halted (sameWeek : p.weekStartDate = some (isoWeek market.today)) (halt : p.isHalted = true)
  | cash (idle : p.openLeg = none)
    (short : ∀ ltp ∈ market.ltp, p.cash < (config.lotSize * config.quantityLots : Int) * ltp)

/-- A tick that finds the signal on a bar already traded is kept from buying. -/
def Fresh (session : Session) (market : Market) : Prop :=
  ∀ proposal ∈ detect config market.spot market.now, proposal.entryTs ∈ session.traded →
    Shut config session.portfolio market

end Step

/-- A later tick of the same day sees the minutes that the earlier one saw, and newer ones. -/
def Reveals (earlier later : Market) : Prop := earlier.now ≤ later.now ∧ earlier.spot <+: later.spot

variable {config : Config} {p q : Portfolio} {market : Market} {leg : OpenLeg}

theorem refresh_openLeg : (refresh config p market).openLeg = p.openLeg := by
  unfold refresh Portfolio.rollSession Portfolio.haltThisWeek
  dsimp only
  split_ifs <;> rfl

theorem refresh_cash : (refresh config p market).cash = p.cash := by
  unfold refresh Portfolio.rollSession Portfolio.haltThisWeek
  dsimp only
  split_ifs <;> rfl

theorem refresh_lossesToday (sameDay : p.sessionDate = some market.today) :
    (refresh config p market).lossesToday = p.lossesToday := by
  unfold refresh Portfolio.rollSession Portfolio.haltThisWeek
  simp only [sameDay, ne_eq, not_true_eq_false, if_false]
  split_ifs <;> rfl

theorem refresh_isHalted (sameWeek : p.weekStartDate = some (isoWeek market.today))
    (halt : p.isHalted = true) : (refresh config p market).isHalted = true := by
  simp only [Portfolio.isHalted, decide_eq_true_eq] at halt
  unfold refresh Portfolio.rollSession
  split_ifs <;> simp_all [Portfolio.isHalted]

/-- The exits leave the halt as it is and can only add a loss. -/
structure Keeps (p q : Portfolio) : Prop where
  losses : p.lossesToday ≤ q.lossesToday
  halted : q.isHalted = p.isHalted

theorem bookTarget_keeps (p : Portfolio) (leg : OpenLeg) (mark : ℚ) :
    Keeps p (bookTarget p leg mark) := by
  unfold bookTarget Portfolio.bookHalf
  repeat' split
  all_goals exact ⟨le_rfl, rfl⟩

theorem closeLeg_keeps (config : Config) (p : Portfolio) (decision : ExitDecision) (now : Int) :
    Keeps p (closeLeg config p decision now) := by
  unfold closeLeg Portfolio.close
  cases p.openLeg with
  | none => exact ⟨le_rfl, rfl⟩
  | some leg =>
    dsimp only
    split_ifs
    · exact ⟨Nat.le_succ _, rfl⟩
    · exact ⟨le_rfl, rfl⟩

theorem exits_keeps : Keeps p (exits config p market) := by
  unfold exits
  split
  next leg mark _ _ =>
    have books := bookTarget_keeps p leg mark
    dsimp only
    split
    next decision _ =>
      have closes := closeLeg_keeps config (bookTarget p leg mark) decision market.now
      exact ⟨books.losses.trans closes.losses, closes.halted.trans books.halted⟩
    · exact books
  · exact ⟨le_rfl, rfl⟩

theorem evaluateExit_eq_none {mark : ℚ} {minutes : List Bar} {now : Int}
    (early : timeOfDay now < config.hardExitTime) (above : leg.slPrice < mark)
    (kept : leg.bookedHalf = true → ¬ TrailCrossed config leg.direction minutes) :
    evaluateExit config leg mark minutes now = none := by
  unfold evaluateExit
  rw [if_neg early.not_ge, if_neg above.not_ge]
  split_ifs with booked
  · have kept := kept booked
    simp only [TrailCrossed, Option.mem_def, not_and, not_exists] at kept
    dsimp only
    split_ifs with few
    · rfl
    · split
      next lastClose lastEma last ema =>
        have within := kept (not_lt.mp few) lastClose last lastEma ema
        cases side : leg.direction <;> simp_all
      · rfl
  · rfl

theorem bookTarget_openLeg (holds : p.openLeg = some leg) (mark : ℚ) :
    ∃ after, (bookTarget p leg mark).openLeg = some after ∧ after.slPrice = leg.slPrice ∧
      after.direction = leg.direction ∧
      (after.bookedHalf = true → leg.bookedHalf = true ∨ leg.target1Price ≤ mark) := by
  unfold bookTarget
  split_ifs with reached
  · simp only [Bool.and_eq_true, Bool.not_eq_true', decide_eq_true_eq] at reached
    simp [Portfolio.bookHalf, holds, reached]
  · exact ⟨leg, holds, rfl, rfl, .inl⟩

theorem exits_held (early : timeOfDay market.now < config.hardExitTime)
    (holds : p.openLeg = some leg) (stays : StaysOpen config leg market) :
    (exits config p market).openLeg.isSome := by
  unfold exits
  cases quoted : market.mark with
  | none => simp [holds]
  | some mark =>
    obtain ⟨above, uncrossed⟩ := stays mark quoted
    obtain ⟨after, open', stop, side, booked⟩ := bookTarget_openLeg holds mark
    have none : evaluateExit config after mark market.spot market.now = none := by
      refine evaluateExit_eq_none early (stop ▸ above) fun half => ?_
      rw [side]
      exact uncrossed (booked half)
    simp [holds, open', none]

theorem tradedBar_eq_some {bar : Int} (traded : tradedBar config p market = some bar) :
    ∃ proposal leg, detect config market.spot market.now = some proposal ∧
      proposal.entryTs = bar ∧
      (market.isTradingDay && inWindow config market.now && !market.spot.isEmpty) = true ∧
      entryGate config (exits config (refresh config p market) market) market = true ∧
      newLeg config (exits config (refresh config p market) market) proposal market = some leg := by
  unfold tradedBar settled at traded
  split_ifs at traded with inSession
  · rw [Option.bind_some, Option.bind_eq_some_iff] at traded
    obtain ⟨⟨proposal, leg⟩, enters, opened⟩ := traded
    unfold entry at enters
    split_ifs at enters with gate
    obtain ⟨proposal', found, bought⟩ := Option.bind_eq_some_iff.mp enters
    obtain ⟨leg', bought, same⟩ := Option.map_eq_some_iff.mp bought
    cases same
    refine ⟨proposal, leg, found, ?_, inSession, gate, bought⟩
    split at opened
    · exact Option.some.inj opened
    · cases opened
  · cases traded

theorem newLeg_eq_some {proposal : SignalDecision} (bought : newLeg config q proposal market = some leg) :
    market.nextWeeklyExpiry - market.today ≤ 7 ∧
      ∃ ltp, market.ltp = some ltp ∧ 1 < ltp ∧ ltp ≤ 2000 ∧
        (config.lotSize * config.quantityLots : Int) * ltp ≤ q.cash := by
  unfold newLeg at bought
  split_ifs at bought with far
  split at bought
  · cases bought
  next ltp quoted =>
    dsimp only at bought
    split_ifs at bought with outside short
    simp only [Bool.or_eq_true, decide_eq_true_eq, not_or, not_le, not_lt] at outside
    exact ⟨not_lt.mp far, ltp, quoted, outside.1, outside.2, not_lt.mp short⟩

theorem tradedBar_of_shut (shut : Shut config p market) : tradedBar config p market = none := by
  refine Option.eq_none_iff_forall_ne_some.mpr fun bar traded => ?_
  obtain ⟨proposal, bought, -, -, inSession, gate, new⟩ := tradedBar_eq_some traded
  obtain ⟨near, ltp, quoted, low, high, affordable⟩ := newLeg_eq_some new
  simp only [entryGate, Bool.and_eq_true, decide_eq_true_eq, Bool.not_eq_true',
    Option.isNone_iff_eq_none] at gate
  obtain ⟨⟨⟨⟨early, idle⟩, running⟩, tradable⟩, losses⟩ := gate
  have kept : Keeps (refresh config p market) (exits config (refresh config p market) market) :=
    exits_keeps
  cases shut with
  | session away => exact away inSession
  | hour late | expiry far => omega
  | day closed => simp [closed] at tradable
  | quote unusable =>
    rcases unusable ltp quoted with below | above
    · exact low.not_ge below
    · exact high.not_gt above
  | held leg holds stays =>
    have still : (refresh config p market).openLeg = some leg := refresh_openLeg.trans holds
    simpa [idle] using exits_held early still stays
  | losses sameDay reached =>
    have more := kept.losses
    rw [refresh_lossesToday sameDay] at more
    omega
  | halted sameWeek halt =>
    rw [kept.halted, refresh_isHalted sameWeek halt] at running
    cases running
  | cash none short =>
    have unchanged : exits config (refresh config p market) market = refresh config p market := by
      simp [exits, refresh_openLeg, none]
    rw [unchanged, refresh_cash] at affordable
    exact affordable.not_gt (short ltp quoted)

/-- Each traded bar is the signal of one of the ticks, so that the next one is not before it. -/
theorem traded_sorted {markets : List Market} {session : Session}
    (revealed : markets.Pairwise Reveals)
    (ordered : ∀ market ∈ markets, market.spot.Pairwise fun a b => a.ts < b.ts)
    (path : run (step config) ⟨p, []⟩ markets = some session) :
    (∀ bar ∈ session.traded, ∃ market ∈ markets, ∃ proposal ∈ detect config market.spot market.now,
      proposal.entryTs = bar) ∧
    session.traded.Pairwise (· ≤ ·) ∧
    (Meets (step config) (Fresh config) ⟨p, []⟩ markets → session.traded.Pairwise (· < ·)) := by
  induction markets using List.reverseRecOn generalizing session with
  | nil =>
    cases path
    simp
  | append_singleton markets market ih =>
    obtain ⟨before, earlier, ⟨⟩⟩ := run_snoc_eq_some.mp path
    rw [List.pairwise_append] at revealed
    rw [List.forall_mem_append] at ordered
    obtain ⟨seen, sorted, strict⟩ := ih revealed.1 ordered.1 earlier
    rw [meets_append earlier, meets_cons]
    cases traded : tradedBar config before.portfolio market with
    | none =>
      simp only [Option.toList_none, List.append_nil]
      refine ⟨fun bar mem => ?_, sorted, fun meets => strict meets.1⟩
      obtain ⟨earlierTick, among, signal⟩ := seen bar mem
      exact ⟨earlierTick, List.mem_append_left _ among, signal⟩
    | some bar =>
      obtain ⟨proposal, leg, found, rfl, -⟩ := tradedBar_eq_some traded
      have notBefore : ∀ bar ∈ before.traded, bar ≤ proposal.entryTs := by
        intro bar mem
        obtain ⟨m, among, earlierSignal, foundThen, rfl⟩ := seen bar mem
        obtain ⟨-, fresh, grown⟩ := revealed.2.2 m among market (by simp)
        rw [← grown] at found
        exact entryTs_le_of_grows (grown ▸ ordered.2 market (by simp)) foundThen found
      simp only [Option.toList_some]
      refine ⟨?_, ?_, fun meets => ?_⟩
      · intro bar mem
        rcases List.mem_append.mp mem with old | new
        · obtain ⟨m, among, signal⟩ := seen bar old
          exact ⟨m, List.mem_append_left _ among, signal⟩
        · exact ⟨market, by simp, proposal, found, (List.mem_singleton.mp new).symm⟩
      · exact List.pairwise_append.mpr ⟨sorted, by simp, by simpa using notBefore⟩
      · obtain ⟨soFar, here, -⟩ := meets
        have unused : proposal.entryTs ∉ before.traded := by
          intro again
          rw [tradedBar_of_shut (here proposal found again)] at traded
          cases traded
        refine List.pairwise_append.mpr ⟨strict soFar, by simp, ?_⟩
        intro bar mem new isNew
        rw [List.mem_singleton.mp isNew]
        exact lt_of_le_of_ne (notBefore bar mem) fun same => unused (same ▸ mem)

theorem later_bars (config : Config) (p : Portfolio) (markets : List Market)
    (revealed : markets.Pairwise Reveals)
    (ordered : ∀ market ∈ markets, market.spot.Pairwise fun a b => a.ts < b.ts) :
    ∃ session, run (step config) ⟨p, []⟩ markets = some session ∧
      session.traded.Pairwise (· ≤ ·) ∧
      (Meets (step config) (Fresh config) ⟨p, []⟩ markets → session.traded.Pairwise (· < ·)) := by
  have total : ∀ session : Session, ∃ after, run (step config) session markets = some after := by
    clear revealed ordered
    induction markets with
    | nil => exact fun session => ⟨session, rfl⟩
    | cons market markets ih => exact fun session => ih _
  obtain ⟨after, path⟩ := total ⟨p, []⟩
  exact ⟨after, path, (traded_sorted revealed ordered path).2⟩

section Cases

def tuesday (hour minute : Int) : Int := 20396 * MarketData.oneDay + hhmm hour minute

def reclaim : List Bar :=
  [⟨tuesday 9 30, 24030, 24060, 24000, 24000⟩, ⟨tuesday 9 35, 24000, 24100, 24000, 24100⟩]

def marketAt (minute : Int) (premium : ℚ) : Market where
  now := tuesday 9 minute
  isTradingDay := true
  spot := reclaim
  mark := some premium
  ltp := some premium
  nextWeeklyExpiry := 20399

def dayOfOneTrade : List Market :=
  [marketAt 40 40, marketAt 41 41, { marketAt 0 45 with now := tuesday 14 30 }]

def bought : OpenLeg :=
  ⟨.ce, 24050, 20399, 375, 40, tuesday 9 40, 24100, 28, 52, false, none⟩

theorem one_trade_to_time_stop : ∃ session,
    run (step VwapReclaim.config) ⟨Portfolio.new 200000, []⟩ dayOfOneTrade = some session ∧
    session.portfolio.closedTrades.map Trade.exitReason = ["TimeStop"] ∧
    session.traded.Pairwise (· < ·) := by
  obtain ⟨session, path, -, strict⟩ := later_bars VwapReclaim.config (Portfolio.new 200000)
    dayOfOneTrade (by simp [dayOfOneTrade, Reveals, marketAt, tuesday, hhmm, MarketData.oneMinute])
    (by simp [dayOfOneTrade, marketAt, reclaim, tuesday, hhmm, MarketData.oneMinute])
  refine ⟨session, path, ?_, strict ?_⟩
  · cases path
    decide +kernel
  · refine meets_cons.mpr ⟨fun _ _ none => absurd none List.not_mem_nil, ?_⟩
    rintro _ ⟨⟩
    refine meets_cons.mpr ⟨fun _ _ _ => .held bought (by decide +kernel) ?_, ?_⟩
    · rintro mark ⟨⟩
      exact ⟨by decide +kernel, fun half => absurd half (by decide +kernel)⟩
    · rintro _ ⟨⟩
      exact meets_cons.mpr ⟨fun _ _ _ => .hour (by decide), fun _ _ => trivial⟩

theorem stopped_out_trades_again : ∃ session,
    run (step VwapReclaim.config) ⟨Portfolio.new 200000, []⟩ [marketAt 40 40, marketAt 41 28] =
      some session ∧
    session.portfolio.closedTrades.map Trade.exitReason = ["SL"] ∧
    session.traded = [tuesday 9 35, tuesday 9 35] :=
  ⟨_, rfl, by decide +kernel, by decide +kernel⟩

end Cases

end AlgoSystem.Proof.Intraday.Reentry

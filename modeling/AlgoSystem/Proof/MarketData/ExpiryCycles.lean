import AlgoSystem.Proof.MarketData.AtmLock

namespace AlgoSystem.Proof.MarketData.StraddlePulse
open AlgoSystem.MarketData AlgoSystem.MarketData.StraddlePulse General List

variable {f : ExpiryCycle → ExpiryCycle} {e day : Int} {db₁ db₂ : Db}

def Apart (c c' : ExpiryCycle) : Prop :=
  c.cycleEndDate < c'.cycleStartDate ∨ c'.cycleEndDate < c.cycleStartDate

def Separate (cycles : List ExpiryCycle) : Prop :=
  ∀ c ∈ cycles, ∀ c' ∈ cycles, c.underlying = c'.underlying → c.id ≠ c'.id → Apart c c'

def place (s : DailySession) : Nat × Int := (s.cycleId, s.tradingDate)

def Covered (cycles : List ExpiryCycle) (p : Nat × Int) : Prop :=
  ∃ c ∈ cycles, c.id = p.1 ∧ c.cycleStartDate ≤ p.2 ∧ p.2 ≤ c.cycleEndDate

def Returned (settings : Settings) (call : Call) (result : Except Fault Advanced) : Prop :=
  ∃ advanced c, result = .ok advanced ∧ advanced.cycle = some c ∧
    Listed settings call c.expiryDate ∧ ∀ s, advanced.session = some s → s.cycleId = c.id

structure Orderly (settings : Settings) (pulse : Pulse) : Prop where
  returned : ∀ entry ∈ pulse.log, Returned settings entry.1 entry.2
  within : ∀ s ∈ pulse.db.sessions, Covered pulse.db.cycles (place s)
  separate : Separate pulse.db.cycles

variable (settings : Settings) (db : Db) (call : Call)

def Fresh (e : Int) : Prop :=
  ∀ c ∈ db.cycles, c.underlying = call.underlying → c.expiryDate ≠ e

/-- A new cycle finds every other one ended by the last expiry before it, if one is listed. -/
def Follows : Prop :=
  ∀ e, Listed settings call e → Fresh db call e →
    ∀ c ∈ db.cycles, c.underlying = call.underlying →
      (∃ x ∈ expiries call, x < e) → ∃ x ∈ expiries call, x < e ∧ c.cycleEndDate ≤ x

def Begun : Prop :=
  ∀ e, Listed settings call e →
    (∀ c ∈ db.cycles, c.underlying = call.underlying → c.expiryDate = e →
      c.cycleStartDate ≤ today settings call) ∧
    (Fresh db call e → e = today settings call ∨ ∃ x ∈ expiries call, x < e)

structure InTime : Prop where
  free : ∀ c ∈ db.cycles, c.underlying = call.underlying → c.status = .active →
    today settings call ≤ c.cycleEndDate → Listed settings call c.expiryDate
  follows : Follows settings db call
  begun : isTradingDay (today settings call) settings.holidays = true →
    (∀ s, ¬ Today settings call db s) → Begun settings db call
  clear : isTradingDay (today settings call) settings.holidays = true →
    Unlocked settings call db → Due settings call → (candlesAt settings call).length ≤ 1

variable {settings db call}

theorem separate_map (same : ∀ c, SameCycle c (f c)) (cycles : List ExpiryCycle) :
    Separate (cycles.map f) ↔ Separate cycles := by
  unfold Separate Apart
  simp only [mem_map, forall_exists_index, and_imp, forall_apply_eq_imp_iff₂, (same _).id,
    (same _).underlying, (same _).cycleStartDate, (same _).cycleEndDate]

theorem covered_map (same : ∀ c, SameCycle c (f c)) (cycles : List ExpiryCycle) (p : Nat × Int) :
    Covered (cycles.map f) p ↔ Covered cycles p := by
  unfold Covered
  simp only [mem_map, exists_exists_and_eq_and, (same _).id, (same _).cycleStartDate,
    (same _).cycleEndDate]

variable {cycles : List ExpiryCycle}

theorem separate_concat {n : ExpiryCycle} (number : ∀ c ∈ cycles, c.id ≠ n.id) :
    Separate (cycles ++ [n]) ↔
      Separate cycles ∧ ∀ c ∈ cycles, c.underlying = n.underlying → Apart c n := by
  constructor
  · intro separate
    have old : ∀ c ∈ cycles, c ∈ cycles ++ [n] := fun c member => mem_append_left _ member
    refine ⟨fun c member c' member' => separate c (old c member) c' (old c' member'), ?_⟩
    intro c member own
    exact separate c (old c member) n (mem_append_right _ (mem_singleton_self n)) own
      (number c member)
  · rintro ⟨separate, new⟩ c member c' member' own different
    rcases mem_append.mp member with mem | last <;>
      rcases mem_append.mp member' with mem' | last'
    · exact separate c mem c' mem' own different
    · rw [mem_singleton.mp last'] at own ⊢
      exact new c mem own
    · rw [mem_singleton.mp last] at own ⊢
      exact (new c' mem' own.symm).symm
    · rw [mem_singleton.mp last, mem_singleton.mp last'] at different
      exact absurd rfl different

theorem lt_cycleStart_iff {expiries : List Int} {d : Int} (before : d < e) :
    d < cycleStart expiries e ↔
      ((∃ x ∈ expiries, x < e) → ∃ x ∈ expiries, x < e ∧ d ≤ x) := by
  obtain ⟨first, start⟩ | ⟨x, listed, earlier, greatest, start⟩ := cycleStart_cases expiries e
  · rw [start]
    refine iff_of_true before ?_
    rintro ⟨x, listed, earlier⟩
    exact absurd earlier (not_lt.mpr (first x listed))
  · rw [start, Int.lt_add_one_iff]
    constructor
    · intro ended _
      exact ⟨x, listed, earlier, ended⟩
    · intro ends
      obtain ⟨y, listed', earlier', ended⟩ := ends ⟨x, listed, earlier⟩
      exact ended.trans (greatest y listed' earlier')

theorem cycleStart_le_iff {expiries : List Int} (nearest : IsNearest expiries day e) :
    cycleStart expiries e ≤ day ↔ e = day ∨ ∃ x ∈ expiries, x < e := by
  have due := nearest.2.1
  obtain ⟨first, start⟩ | ⟨x, listed, earlier, _, start⟩ := cycleStart_cases expiries e
  · rw [start]
    constructor
    · intro begun
      exact .inl (le_antisymm begun due)
    · rintro (same | ⟨x, listed, earlier⟩)
      · exact same.le
      · exact absurd earlier (not_lt.mpr (first x listed))
  · rw [start]
    refine iff_of_true ?_ (.inr ⟨x, listed, earlier⟩)
    by_contra late
    have := nearest.2.2 x listed (by omega)
    omega

theorem separate_past : Separate (past settings db call).cycles ↔ Separate db.cycles :=
  separate_map (sameCycle_complete call.underlying (today settings call)) db.cycles

theorem covered_past (p : Nat × Int) :
    Covered (past settings db call).cycles p ↔ Covered db.cycles p :=
  covered_map (sameCycle_complete call.underlying (today settings call)) db.cycles p

inductive CycleFound (settings : Settings) (db : Db) (call : Call) (cycles : List ExpiryCycle)
    (c : ExpiryCycle) : Prop
  | existing {old : ExpiryCycle} (table : cycles = (past settings db call).cycles)
      (member : old ∈ db.cycles) (same : SameCycle old c)
  | created
      (table : cycles = (past settings db call).cycles ++ [c])
      (fresh : Fresh db call c.expiryDate)
      (ended : ∀ old ∈ db.cycles, old.underlying = call.underlying →
        old.expiryDate < today settings call)
      (number : ∀ old ∈ (past settings db call).cycles, old.id < c.id)
      (start : c.cycleStartDate = cycleStart (expiries call) c.expiryDate)

variable {c : ExpiryCycle}

theorem openCycle_found (sound : Sound settings (today settings call) db)
    (opened : openCycle settings db call = (db₁, .ok (some c))) :
    CycleFound settings db call db₁.cycles c := by
  have described := openCycle_opened settings db call
  rw [opened] at described
  cases described with
  | existing _ found =>
    obtain ⟨old, member, rfl⟩ := mem_past.mp found
    exact .existing rfl member (sameCycle_complete _ _ old)
  | created _ fresh =>
    have sound' := past_sound sound
    refine .created rfl ?_ ?_ ?_ rfl
    · intro old member own
      have same := sameCycle_complete call.underlying (today settings call) old
      have other := fresh _ (mem_past.mpr ⟨old, member, rfl⟩) (same.underlying.trans own)
      rw [same.expiryDate] at other
      exact other.1
    · intro old member own
      have same := sameCycle_complete call.underlying (today settings call) old
      have mem : complete call.underlying (today settings call) old ∈
          (past settings db call).cycles := mem_map_of_mem member
      have inactive := (fresh _ mem (same.underlying.trans own)).2
      rw [← same.expiryDate]
      apply sound'.cycles.completed _ mem
      cases status : (complete call.underlying (today settings call) old).status with
      | active => exact absurd status inactive
      | completed => rfl
    · intro old mem
      exact Nat.lt_succ_of_le (sound'.cycles.numbers old mem)

theorem separate_iff_follows (sound : Sound settings (today settings call) db)
    (own : c.underlying = call.underlying) (listed : Listed settings call c.expiryDate)
    (ends : c.cycleEndDate = c.expiryDate) (found : CycleFound settings db call cycles c) :
    Separate cycles ↔ Separate db.cycles ∧ Follows settings db call := by
  cases found with
  | @existing old table member same =>
    rw [table, separate_past]
    refine (and_iff_left ?_).symm
    intro e nearest fresh
    rw [nearest.unique listed, same.expiryDate] at fresh
    exact absurd rfl (fresh old member (same.underlying.symm.trans own))
  | created table fresh ended number start =>
    rw [table, separate_concat fun old mem => (number old mem).ne, separate_past]
    apply and_congr_right
    intro _
    have apart : ∀ old ∈ db.cycles, old.underlying = call.underlying →
        (Apart (complete call.underlying (today settings call) old) c ↔
          ((∃ x ∈ expiries call, x < c.expiryDate) →
            ∃ x ∈ expiries call, x < c.expiryDate ∧ old.cycleEndDate ≤ x)) := by
      intro old member own'
      have same := sameCycle_complete call.underlying (today settings call) old
      have before := ended old member own'
      have due := listed.2.1
      have starts := sound.cycles.starts old member
      rw [← lt_cycleStart_iff (by rw [sound.cycles.ends old member]; omega), ← start, Apart,
        same.cycleEndDate, same.cycleStartDate, ends]
      constructor
      · rintro (after | impossible)
        · exact after
        · omega
      · exact .inl
    constructor
    · intro new e nearest _ old member own'
      rw [nearest.unique listed]
      have same := sameCycle_complete call.underlying (today settings call) old
      exact (apart old member own').mp (new _ (mem_map_of_mem member)
        (same.underlying.trans (own'.trans own.symm)))
    · intro follows x mem own'
      obtain ⟨old, member, rfl⟩ := mem_past.mp mem
      have same := sameCycle_complete call.underlying (today settings call) old
      have mine := same.underlying.symm.trans (own'.trans own)
      exact (apart old member mine).mpr (follows c.expiryDate listed fresh old member mine)

variable {s : DailySession}

theorem covered_iff_of_old (sound : Sound settings (today settings call) db)
    (found : CycleFound settings db call cycles c) (member : s ∈ db.sessions) :
    Covered cycles (place s) ↔ Covered db.cycles (place s) := by
  cases found with
  | existing table => rw [table, covered_past]
  | created table _ _ number =>
    rw [← @covered_past settings db call, table]
    obtain ⟨old, mem, id, _⟩ := (past_sound sound).reference s member
    have other : c.id ≠ (place s).1 := by
      intro same
      exact (number old mem).ne (id.trans same.symm)
    simp [Covered, or_and_right, exists_or, other]

theorem covered_new_iff (ids : (cycles.map ExpiryCycle.id).Nodup) (member : c ∈ cycles)
    (due : day ≤ c.cycleEndDate) : Covered cycles (c.id, day) ↔ c.cycleStartDate ≤ day := by
  constructor
  · rintro ⟨c', mem, same, start, _⟩
    rw [← inj_on_of_nodup_map ids mem member same]
    exact start
  · intro start
    exact ⟨c, member, rfl, start, due⟩

theorem begun_iff (sound : Sound settings (today settings call) db)
    (own : c.underlying = call.underlying) (listed : Listed settings call c.expiryDate)
    (found : CycleFound settings db call cycles c) :
    c.cycleStartDate ≤ today settings call ↔ Begun settings db call := by
  cases found with
  | @existing old table member same =>
    have mine := same.underlying.symm.trans own
    constructor
    · intro start e nearest
      rw [nearest.unique listed]
      constructor
      · intro other mem own' expiry
        have equal : other = old := by
          apply inj_on_of_nodup_map sound.cycles.keys mem member
          rw [own', mine, expiry, same.expiryDate]
        rw [equal, ← same.cycleStartDate]
        exact start
      · intro fresh
        exact absurd same.expiryDate.symm (fresh old member mine)
    · intro begun
      rw [same.cycleStartDate]
      exact (begun c.expiryDate listed).1 old member mine same.expiryDate.symm
  | created table fresh _ _ start =>
    rw [start, cycleStart_le_iff listed]
    constructor
    · intro reason e nearest
      rw [nearest.unique listed]
      exact ⟨fun old member own' expiry => absurd expiry (fresh old member own'), fun _ => reason⟩
    · intro begun
      exact (begun c.expiryDate listed).2 fresh

theorem cycleOf_id (found : cycleOf db s = some c) :
    c ∈ db.cycles ∧ s.cycleId = c.id := by
  have same : c.id = s.cycleId := by simpa using find?_some found
  exact ⟨mem_of_find?_eq_some found, same.symm⟩

variable {db' : Db}

theorem InSession.pending_iff (mem : InSession settings db call db' c s) :
    s.status = .pending ↔ Unlocked settings call db := by
  rcases mem.grown with ⟨member, same⟩ | ⟨fresh, pending, _⟩
  · constructor
    · rintro pending s' ⟨member', today⟩
      exact mem.unlocked pending s' ⟨same ▸ member', today⟩
    · intro unlocked
      exact unlocked s ⟨member, mem.own, mem.date⟩
  · refine iff_of_true pending ?_
    rintro s' ⟨member, own, date⟩
    exact absurd date (fresh s' member own)

theorem advance_result {cycle : Option ExpiryCycle}
    (locked : lockSession settings db call = (db₂, .ok { cycle, session := some s }))
    (sound : Sound settings (today settings call) db₂) (found : cycleOf db₂ s = some c) :
    (advance settings db call).2 = .ok { cycle, session := some s } := by
  unfold advance
  rw [locked]
  have taken := snapshot_taken settings db₂ call s
  simp only
  generalize snapshot settings db₂ s call = out at taken ⊢
  cases taken with
  | unchanged | taken => rfl
  | orphan orphan =>
    rw [found] at orphan
    cases orphan
  | @ambiguous expiry ts twice =>
    have once := snapshots_unambiguous sound s.underlying expiry s.tradingDate ts
    omega

theorem advance_result_error {fault : Fault}
    (locked : lockSession settings db call = (db₂, .error fault)) :
    (advance settings db call).2 = .error fault := by
  unfold advance
  rw [locked]

theorem InSession.returned_iff (sound : Sound settings (today settings call) db)
    (mem : InSession settings db call db' c s) :
    Returned settings call (advance settings db call).2 ↔
      (Unlocked settings call db → Due settings call → (candlesAt settings call).length ≤ 1) := by
  have returned (s' : DailySession) (same : s'.cycleId = s.cycleId)
      (result : (advance settings db call).2 = .ok { cycle := some c, session := some s' }) :
      Returned settings call (advance settings db call).2 := by
    refine ⟨_, c, result, rfl, mem.listed, ?_⟩
    rintro _ ⟨⟩
    rw [same]
    exact (cycleOf_id mem.cycle).2
  have locked := mem.lockSession_eq
  have tried := mem.lock_result
  generalize lockIfDue settings db' s call = out at tried locked
  rw [← mem.pending_iff]
  have kept (out_eq : lockSession settings db call =
      (db', .ok { cycle := some c, session := some s })) :
      Returned settings call (advance settings db call).2 :=
    returned s rfl (advance_result out_eq mem.sound mem.cycle)
  cases tried with
  | already status =>
    refine iff_of_true (kept locked) ?_
    intro pending
    rw [status] at pending
    cases pending
  | early early =>
    refine iff_of_true (kept locked) ?_
    intro _ due
    exact absurd due early
  | missing none_found =>
    refine iff_of_true (kept locked) ?_
    simp [none_found]
  | ambiguous pending due twice =>
    refine iff_of_false ?_ ?_
    · rintro ⟨_, _, result, _⟩
      rw [advance_result_error locked] at result
      cases result
    · intro clear
      exact absurd (clear pending due) (not_le.mpr twice)
  | locked _ candles =>
    have sound' := (sound_of_writes sound (@lockSession_writes settings db call)).1
    rw [locked] at sound'
    refine iff_of_true (returned _ ?_ (advance_result (c := c) locked sound' ?_)) ?_
    · rfl
    · exact mem.cycle
    · simp [candles]

theorem InSession.places (mem : InSession settings db call db' c s) :
    (advance settings db call).1.sessions.map place = db'.sessions.map place := by
  rw [advance_tables.1, mem.lockSession_eq]
  have tried := mem.lock_result
  generalize lockIfDue settings db' s call = out at tried ⊢
  cases tried with
  | locked => exact map_saveSession mem.sound.sessions.ids mem.member _ rfl
  | already | early | missing | ambiguous => rfl

theorem InSession.cycles_eq (mem : InSession settings db call db' c s) :
    (advance settings db call).1.cycles = (openCycle settings db call).1.cycles := by
  rw [advance_tables.2, mem.lockSession_eq, ← mem.cycles]
  have tried := mem.lock_result
  generalize lockIfDue settings db' s call = out at tried ⊢
  cases tried <;> rfl

theorem advance_holiday (opened : openCycle settings db call = (db₁, .ok (some c)))
    (holiday : isTradingDay (today settings call) settings.holidays = false) :
    advance settings db call = (db₁, .ok { cycle := some c }) := by
  have got : getOrCreateToday db₁ call.underlying c (today settings call) settings.holidays =
      (db₁, .ok none) := by
    rw [getOrCreateToday, holiday]
    rfl
  unfold advance lockSession
  rw [openSession_eq opened got]

theorem forall_places {sessions : List DailySession} :
    (∀ s ∈ sessions, Covered cycles (place s)) ↔ ∀ p ∈ sessions.map place, Covered cycles p := by
  simp

theorem advance_ready_iff (sound : Sound settings (today settings call) db)
    (ready : Ready settings db call) :
    (Returned settings call (advance settings db call).2 ↔
        (isTradingDay (today settings call) settings.holidays = true →
          Unlocked settings call db → Due settings call →
            (candlesAt settings call).length ≤ 1)) ∧
      ((∀ s ∈ (advance settings db call).1.sessions,
          Covered (advance settings db call).1.cycles (place s)) ↔
        (∀ s ∈ db.sessions, Covered db.cycles (place s)) ∧
          (isTradingDay (today settings call) settings.holidays = true →
            (∀ s, ¬ Today settings call db s) → Begun settings db call)) ∧
      (Separate (advance settings db call).1.cycles ↔
        Separate db.cycles ∧ Follows settings db call) := by
  obtain ⟨db₁, c, opened⟩ := openCycle_of_ready sound ready
  obtain ⟨member, own, listed⟩ := openCycle_returned opened
  have sound₁ := (sound_of_writes sound (openCycle_writes opened)).1
  have found := openCycle_found sound opened
  have ends := sound₁.cycles.ends c member
  have separate := separate_iff_follows sound own listed ends found
  have old : (∀ s ∈ db.sessions, Covered db₁.cycles (place s)) ↔
      ∀ s ∈ db.sessions, Covered db.cycles (place s) :=
    forall₂_congr fun s mem => covered_iff_of_old sound found mem
  cases trading : isTradingDay (today settings call) settings.holidays with
  | false =>
    have sessions : db₁.sessions = db.sessions := by
      rw [← @openCycle_sessions settings db call, opened]
    rw [advance_holiday opened trading, sessions, old]
    refine ⟨iff_of_true ⟨_, c, rfl, rfl, listed, ?_⟩ (by simp), by simp, separate⟩
    intro s none_some
    cases none_some
  | true =>
    obtain ⟨db', s, mem⟩ := openSession_of_openCycle sound opened trading
    have cycles : (advance settings db call).1.cycles = db₁.cycles := by
      rw [mem.cycles_eq, opened]
    refine ⟨by simpa using mem.returned_iff sound, ?_, by rw [cycles]; exact separate⟩
    rw [forall_places, mem.places, ← forall_places, cycles]
    rcases mem.grown with ⟨exists_, same⟩ | ⟨fresh, _, grown⟩
    · rw [same, old]
      refine (and_iff_left ?_).symm
      intro _ absent
      exact absurd ⟨exists_, mem.own, mem.date⟩ (absent s)
    · have absent : ∀ s, ¬ Today settings call db s := by
        rintro s' ⟨mem', own', date⟩
        exact fresh s' mem' own' date
      have new : place s = (c.id, today settings call) := by
        rw [place, (cycleOf_id mem.cycle).2, mem.date]
      rw [grown, forall_mem_append, old, forall_mem_singleton, new,
        covered_new_iff sound₁.cycles.ids member (ends ▸ listed.2.1),
        begun_iff sound own listed found]
      simp [absent]

def listedStep (settings : Settings) (pulse : Pulse) (call : Call) : Option Pulse :=
  if ∃ x ∈ expiries call, today settings call ≤ x then pulse.step settings (.finished call)
  else none

theorem orderly_step {pulse pulse' : Pulse}
    (sound : Sound settings (localDate settings.tz pulse.clock) pulse.db)
    (stepped : listedStep settings pulse call = some pulse') :
    Orderly settings pulse' ↔ Orderly settings pulse ∧ InTime settings pulse.db call := by
  unfold listedStep Pulse.step at stepped
  split_ifs at stepped with listed back
  cases stepped
  have now : pulse.clock ≤ call.now := not_lt.mp back
  have sound' : Sound settings (today settings call) pulse.db :=
    sound.mono (localDate_mono settings.tz now)
  by_cases ready : Ready settings pulse.db call
  · obtain ⟨returned, within, separate⟩ := advance_ready_iff sound' ready
    constructor
    · intro orderly
      obtain ⟨log, last⟩ := forall_mem_append.mp orderly.returned
      obtain ⟨covered, begun⟩ := within.mp orderly.within
      obtain ⟨apart, follows⟩ := separate.mp orderly.separate
      exact ⟨⟨log, covered, apart⟩,
        ⟨ready.free, follows, begun, returned.mp (last _ (mem_singleton_self _))⟩⟩
    · rintro ⟨orderly, inTime⟩
      refine ⟨forall_mem_append.mpr ⟨orderly.returned, ?_⟩,
        within.mpr ⟨orderly.within, inTime.begun⟩,
        separate.mpr ⟨orderly.separate, inTime.follows⟩⟩
      rw [forall_mem_singleton]
      exact returned.mpr inTime.clear
  · refine iff_of_false ?_ ?_
    · intro orderly
      obtain ⟨_, last⟩ := forall_mem_append.mp orderly.returned
      obtain ⟨advanced, c, result, cycle, _⟩ := last _ (mem_singleton_self _)
      rw [(advance_of_not_ready sound' ready).2 advanced result] at cycle
      cases cycle
    · rintro ⟨_, inTime⟩
      exact ready ⟨listed, inTime.free⟩

theorem orderly_iff_inTime {start : Int} {pulse : Pulse} {calls : List Call}
    (path : run (listedStep settings) { clock := start } calls = some pulse) :
    Orderly settings pulse ↔
      Meets (listedStep settings) (fun pulse call => InTime settings pulse.db call)
        { clock := start } calls := by
  have keeps : ∀ (u : Pulse) (call : Call) (v : Pulse),
      Sound settings (localDate settings.tz u.clock) u.db →
      listedStep settings u call = some v →
      Sound settings (localDate settings.tz v.clock) v.db := by
    intro u call v sound stepped
    unfold listedStep at stepped
    split_ifs at stepped
    exact (step_sound sound stepped).1
  have empty : Orderly settings { clock := start } := by
    constructor
    · intro entry mem
      cases mem
    · intro s mem
      cases mem
    · intro c mem
      cases mem
  rw [run_property_iff keeps (fun u call v sound stepped => orderly_step sound stepped) path
    (sound_empty settings _)]
  exact and_iff_right empty

def lastWeekListed : Call :=
  callAt 560 ⟨(listing (monday - 4) [100]).contracts ++ weekListing.contracts⟩ [oneMinute130]

theorem orderly_lastWeekListed : ∃ pulse,
    run (listedStep sample) { clock := 0 } [lastWeekListed] = some pulse ∧
      Orderly sample pulse := by
  have listed : Listed sample lastWeekListed (monday + 3) := by
    unfold Listed IsNearest
    decide +kernel
  have inTime : InTime sample {} lastWeekListed := by
    constructor
    · intro c member
      cases member
    · intro e _ _ c member
      cases member
    · intro _ _ e nearest
      refine ⟨?_, ?_⟩
      · intro c member
        cases member
      · intro _
        rw [nearest.unique listed]
        exact .inr ⟨monday - 4, by decide +kernel, by decide⟩
    · intro _ _ _
      decide +kernel
  have path : run (listedStep sample) { clock := 0 } [lastWeekListed] =
      some (Pulse.perform sample { clock := 0 } (.finished lastWeekListed)) := by
    refine run_cons_eq_some.mpr ⟨_, ?_, rfl⟩
    rw [listedStep, if_pos ⟨monday + 3, listed.1, listed.2.1⟩]
    exact if_neg (by decide)
  refine ⟨_, path, (orderly_iff_inTime path).mpr ?_⟩
  exact meets_cons.mpr ⟨inTime, fun _ _ => trivial⟩

def firstCall : Call := callAt 560 weekListing [oneMinute130]

def movedExpiry : Call := callAt 570 (listing (monday + 2) [100, 150, 200]) [oneMinute130]

theorem firstCall_not_orderly : ∃ pulse,
    run (listedStep sample) { clock := 0 } [firstCall] = some pulse ∧
      pulse.db.cycles.map (fun c => (c.cycleStartDate, c.cycleEndDate)) =
        [(monday + 3, monday + 3)] ∧
      pulse.db.sessions.map place = [(1, monday)] ∧
      (advance sample pulse.db movedExpiry).2 = .error .integrityError ∧
      ¬ Orderly sample pulse := by
  have path : run (listedStep sample) { clock := 0 } [firstCall] =
      some (Pulse.perform sample { clock := 0 } (.finished firstCall)) := by
    refine run_cons_eq_some.mpr ⟨_, ?_, rfl⟩
    rw [listedStep, if_pos ⟨monday + 3, by decide +kernel, by decide⟩]
    exact if_neg (by decide)
  have cycles : (advance sample {} firstCall).1.cycles.map
      (fun c => (c.cycleStartDate, c.cycleEndDate)) = [(monday + 3, monday + 3)] := by
    decide +kernel
  have sessions : (advance sample {} firstCall).1.sessions.map place = [(1, monday)] := by
    decide +kernel
  refine ⟨_, path, cycles, sessions, by decide +kernel, ?_⟩
  intro orderly
  have within := forall_places.mp orderly.within (1, monday)
  obtain ⟨c, member, _, start, _⟩ := within (by
    rw [show (Pulse.perform sample { clock := 0 } (.finished firstCall)).db.sessions.map place =
      [(1, monday)] from sessions]
    exact mem_singleton_self _)
  have dates := mem_map_of_mem (f := fun c : ExpiryCycle =>
    (c.cycleStartDate, c.cycleEndDate)) member
  have known := mem_singleton.mp (cycles ▸ dates)
  rw [(Prod.mk.inj known).1] at start
  revert start
  decide

end AlgoSystem.Proof.MarketData.StraddlePulse

import AlgoSystem.Proof.MarketData.Subscriptions

namespace AlgoSystem.Proof.MarketData.OiWindow
open AlgoSystem.MarketData AlgoSystem.MarketData.Subscriptions General List
open AlgoSystem.MarketData.StraddlePulse (Underlying Settings AtmLock sessionWindow)
open Proof.MarketData.Subscriptions (mem_contractsAt)

variable {answer : Underlying → Answer} {operation : Operation}

def place (strikes : List ℚ) (price : ℚ) : Nat :=
  (nearestStrike strikes price).elim 0 fun strike => strikes.idxOf strike

section Windows

variable {strikes : List ℚ} {n : Nat} {atm spot : ℚ}

theorem place_lt_length (nonempty : strikes ≠ []) : place strikes spot < strikes.length := by
  obtain ⟨strike, found⟩ := exists_nearestStrike nonempty spot
  rw [place, found]
  exact idxOf_lt_length_of_mem (argmin_mem found)

theorem nearestStrike_of_mem (listed : atm ∈ strikes) : nearestStrike strikes atm = some atm := by
  obtain ⟨strike, found⟩ := exists_nearestStrike (ne_nil_of_mem listed) atm
  have least := le_of_mem_argmin (f := fun s => |s - atm|) listed found
  rw [sub_self, abs_zero, abs_nonpos_iff, sub_eq_zero] at least
  rw [found, least]

theorem selectStrikeWindow_some (nonempty : strikes ≠ []) :
    selectStrikeWindow strikes (some atm) n =
      (strikes.take (place strikes atm + n + 1)).drop (place strikes atm - n) := by
  obtain ⟨strike, found⟩ := exists_nearestStrike nonempty atm
  have chosen : (if atm ∈ strikes then some atm else nearestStrike strikes atm) = some strike := by
    split_ifs with listed
    · rw [← nearestStrike_of_mem listed, found]
    · exact found
  unfold selectStrikeWindow
  simp only [chosen]
  rw [place, found, Option.elim_some]

theorem place_nearestStrike {strike : ℚ} (found : nearestStrike strikes spot = some strike) :
    place strikes strike = place strikes spot := by
  rw [place, place, found, nearestStrike_of_mem (argmin_mem found)]

theorem selectStrikeWindow_nearestStrike (nonempty : strikes ≠ []) :
    selectStrikeWindow strikes (nearestStrike strikes spot) n =
      selectStrikeWindow strikes (some spot) n := by
  obtain ⟨strike, found⟩ := exists_nearestStrike nonempty spot
  rw [found, selectStrikeWindow_some nonempty, selectStrikeWindow_some nonempty,
    place_nearestStrike found]

structure Reaches (strikes : List ℚ) (n : Nat) (atm spot : ℚ) : Prop where
  down : place strikes spot ≤ place strikes atm ∨ place strikes spot ≤ n
  up : place strikes atm ≤ place strikes spot ∨ strikes.length ≤ place strikes spot + n + 1

theorem window_subset_iff (nodup : strikes.Nodup) (nonempty : strikes ≠ []) :
    selectStrikeWindow strikes (some atm) n ⊆
        selectStrikeWindow strikes (nearestStrike strikes spot) n ↔
      Reaches strikes n atm spot := by
  have mem : place strikes atm < strikes.length := place_lt_length nonempty
  have mem' : place strikes spot < strikes.length := place_lt_length nonempty
  rw [selectStrikeWindow_nearestStrike nonempty, selectStrikeWindow_some nonempty,
    selectStrikeWindow_some nonempty, take_drop_subset_iff nodup (by omega) (by omega)]
  constructor
  · rintro ⟨low, high⟩
    exact ⟨by omega, by omega⟩
  · rintro ⟨down, up⟩
    omega

theorem window_nonempty (nonempty : strikes ≠ []) (n : Nat) (atm : ℚ) :
    ∃ strike, strike ∈ selectStrikeWindow strikes (some atm) n := by
  have mem : place strikes atm < strikes.length := place_lt_length nonempty
  refine ⟨strikes[place strikes atm], ?_⟩
  rw [selectStrikeWindow_some nonempty, mem_take_drop]
  exact ⟨place strikes atm, by omega, by omega, getElem?_eq_getElem mem⟩

end Windows

variable {settings : Settings} {market : Market} {underlying : Underlying} {expiry : Int}
  {atm : AtmLock}

variable {service : Service}

theorem optionUniverse_resubscribe (answer : Underlying → Answer)
    (active : (service.provider.isSome && service.accepting) = true) :
    (resubscribeOptionUniverse settings market answer service).optionUniverse underlying =
      (currentOptionWindow settings market underlying).map Contract.internalSymbol := by
  rw [resubscribeOptionUniverse, if_pos active, foldl_cons, foldl_cons, foldl_nil]
  cases underlying <;> rfl

def roundOf (market : Market) (answer : Answer) : List Choice :=
  [.window market, .subscribe answer.accepted, .unsubscribe answer.removed, .assign]

def choicesOf (market : Market) (answer : Underlying → Answer) (service : Service) : List Choice :=
  if service.provider.isSome && service.accepting then
    .check :: (roundOf market (answer .nifty) ++ roundOf market (answer .sensex))
  else [.check]

theorem run_roundOf {connected : Bool} {rest : List Underlying}
    (accepted : (answer underlying).accepted ⊆ (plan settings service market underlying).add)
    (removed : (answer underlying).removed ⊆ (plan settings service market underlying).drop) :
    run (fun own choice => sweep settings own.1 own.2 choice)
        (service, .next connected underlying rest) (roundOf market (answer underlying)) =
      some (sweepOne settings market answer service underlying, match rest with
        | [] => .done connected
        | underlying :: rest => .next connected underlying rest) := by
  simp only [roundOf, run, sweep, accepted, removed, Option.bind_some, if_true]
  rfl

theorem run_sweep_alone {s : State} {i : Nat} (entered : s.threads[i]? = some .entered)
    (accepted : ∀ u, (answer u).accepted ⊆ (plan settings s.shared market u).add)
    (removed : ∀ u, (answer u).removed ⊆ (plan settings s.shared market u).drop) :
    ∃ connected, run (feed settings).step s
        ((choicesOf market answer s.shared).map fun choice => .act i choice) =
      some { shared := resubscribeOptionUniverse settings market answer s.shared
             threads := s.threads.set i (.done connected) } := by
  unfold choicesOf resubscribeOptionUniverse
  split_ifs with active
  · obtain ⟨found, accepting⟩ := Bool.and_eq_true_iff.mp active
    obtain ⟨p, provider⟩ := Option.isSome_iff_exists.mp found
    refine ⟨p.connected, ThreadSystem.run_alone entered ?_⟩
    refine run_cons_eq_some.mpr ⟨(s.shared, .next p.connected .nifty [.sensex]), ?_, ?_⟩
    · simp [feed, sweep, provider, accepting]
    · refine run_append_eq_some.mpr ⟨_, run_roundOf (accepted .nifty) (removed .nifty), ?_⟩
      exact run_roundOf (accepted .sensex) (removed .sensex)
  · refine ⟨false, ThreadSystem.run_alone entered ?_⟩
    refine run_cons_eq_some.mpr ⟨(s.shared, .done false), ?_, rfl⟩
    cases provider : s.shared.provider with
    | none => simp [feed, sweep, provider]
    | some p =>
      have closed : s.shared.accepting = false := by simpa [provider] using active
      simp [feed, sweep, provider, closed]

def Covers (settings : Settings) (market : Market) (underlying : Underlying) (expiry : Int)
    (atm : AtmLock) (symbols : List String) : Prop :=
  ∀ strike ∈ sessionWindow settings (market.master settings.formats) underlying expiry atm,
    ∀ optionType c,
      (market.master settings.formats).resolve underlying.symbol expiry strike optionType =
        some c → c.internalSymbol ∈ symbols

def Follows (settings : Settings) (market : Market) (underlying : Underlying) (expiry : Int)
    (atm : AtmLock) : Prop :=
  let master := market.master settings.formats
  let strikes := master.listStrikes underlying.symbol expiry
  strikes = [] ∨
    ∃ spot, market.spot underlying = some spot ∧
      resolveExpiry master underlying.symbol market.utcToday = some expiry ∧
      Reaches strikes (settings.strikeRange underlying) atm.atmStrike spot

def Distinct (settings : Settings) (market : Market) (underlying : Underlying) : Prop :=
  ∀ c ∈ (market.master settings.formats).contracts,
    ∀ d ∈ (market.master settings.formats).contracts,
      c.underlying = underlying.symbol → d.underlying = underlying.symbol →
        c.internalSymbol = d.internalSymbol → c.expiry = d.expiry ∧ c.strike = d.strike

theorem sessionWindow_eq_nil
    (unlisted : (market.master settings.formats).listStrikes underlying.symbol expiry = []) :
    sessionWindow settings (market.master settings.formats) underlying expiry atm = [] := by
  rw [sessionWindow, unlisted]
  rfl

theorem covers_of_follows (follows : Follows settings market underlying expiry atm) :
    Covers settings market underlying expiry atm
      ((currentOptionWindow settings market underlying).map Contract.internalSymbol) := by
  intro strike summed optionType c resolved
  rcases follows with unlisted | ⟨spot, read, current, reaches⟩
  · rw [sessionWindow_eq_nil unlisted] at summed
    cases summed
  · have listed := mem_listStrikes.mpr (by
      obtain ⟨member, own, date, rate, _⟩ := resolve_eq_some resolved
      exact ⟨c, member, own, date, rate⟩)
    have subset := (window_subset_iff listStrikes_nodup (ne_nil_of_mem listed)).mpr reaches
    refine mem_map.mpr ⟨c, ?_, rfl⟩
    simp only [currentOptionWindow, read, current]
    exact mem_contractsAt.mpr ⟨strike, subset summed, optionType, resolved⟩

variable {strike : ℚ}

theorem exists_resolve {master : InstrumentMaster} {name : String}
    (listed : strike ∈ master.listStrikes name expiry) :
    ∃ optionType c, master.resolve name expiry strike optionType = some c := by
  obtain ⟨c, member, own, date, rate⟩ := mem_listStrikes.mp listed
  refine ⟨c.optionType, ?_⟩
  apply Option.ne_none_iff_exists'.mp
  rw [InstrumentMaster.resolve, ne_eq, getLast?_eq_none_iff]
  exact ne_nil_of_mem (mem_filter.mpr ⟨member, by simp [own, date, rate]⟩)

theorem mem_strikes_of_mem_window {strikes : List ℚ} {n : Nat} {center : Option ℚ}
    (mem : strike ∈ selectStrikeWindow strikes center n) : strike ∈ strikes := by
  unfold selectStrikeWindow at mem
  split at mem
  next => cases mem
  next =>
    split at mem
    next => cases mem
    next => exact mem_of_mem_take (mem_of_mem_drop mem)

section
variable (distinct : Distinct settings market underlying)
  (covers : Covers settings market underlying expiry atm ((currentOptionWindow settings market underlying).map Contract.internalSymbol))
include distinct covers

theorem subscribed_of_covers
    (summed : strike ∈ sessionWindow settings (market.master settings.formats) underlying expiry
      atm) :
    ∃ spot, market.spot underlying = some spot ∧
      resolveExpiry (market.master settings.formats) underlying.symbol market.utcToday =
        some expiry ∧
      let strikes := (market.master settings.formats).listStrikes underlying.symbol expiry
      strike ∈ selectStrikeWindow strikes (nearestStrike strikes spot)
        (settings.strikeRange underlying) := by
  obtain ⟨optionType, c, resolved⟩ := exists_resolve (mem_strikes_of_mem_window summed)
  obtain ⟨d, subscribed, symbol⟩ := mem_map.mp (covers strike summed optionType c resolved)
  simp only [currentOptionWindow] at subscribed
  split at subscribed
  next spot current read first =>
    obtain ⟨strike', mem, optionType', resolved'⟩ := mem_contractsAt.mp subscribed
    obtain ⟨member, own, rfl, rfl, _⟩ := resolve_eq_some resolved
    obtain ⟨member', own', rfl, rfl, _⟩ := resolve_eq_some resolved'
    obtain ⟨date, rate⟩ := distinct d member' c member own' own symbol
    rw [date] at first mem
    rw [rate] at mem
    exact ⟨spot, read, first, mem⟩
  next => cases subscribed

theorem follows_of_covers : Follows settings market underlying expiry atm := by
  by_cases unlisted : (market.master settings.formats).listStrikes underlying.symbol expiry = []
  · exact .inl unlisted
  · obtain ⟨strike, summed⟩ := window_nonempty unlisted
      (settings.strikeRange underlying) atm.atmStrike
    obtain ⟨spot, read, current, _⟩ := subscribed_of_covers distinct covers summed
    refine .inr ⟨spot, read, current, ?_⟩
    rw [← window_subset_iff listStrikes_nodup unlisted]
    intro other summed'
    obtain ⟨spot', read', _, mem⟩ := subscribed_of_covers distinct covers summed'
    rw [read] at read'
    cases read'
    exact mem

end

def Leaves (settings : Settings) (underlying : Underlying) (expiry : Int) (atm : AtmLock)
    (service : Service) : Operation → Prop
  | .sweep market answer =>
    Covers settings market underlying expiry atm
      ((resubscribeOptionUniverse settings market answer service).optionUniverse underlying)
  | .control _ => True

/-- A sweep that returns at once finds the contracts in the universe; the others follow. -/
def Steady (settings : Settings) (underlying : Underlying) (expiry : Int) (atm : AtmLock)
    (service : Service) : Operation → Prop
  | .sweep market _ =>
    if service.provider.isSome && service.accepting then
      Follows settings market underlying expiry atm
    else Covers settings market underlying expiry atm (service.optionUniverse underlying)
  | .control _ => True

theorem leaves_of_steady (steady : Steady settings underlying expiry atm service operation) :
    Leaves settings underlying expiry atm service operation := by
  cases operation with
  | control => trivial
  | sweep market answer =>
    simp only [Steady] at steady
    simp only [Leaves]
    split_ifs at steady with active
    · rw [optionUniverse_resubscribe answer active]
      exact covers_of_follows steady
    · rw [resubscribeOptionUniverse, if_neg active]
      exact steady

theorem steady_of_leaves
    (distinct : ∀ market answer, operation = .sweep market answer →
      Distinct settings market underlying)
    (leaves : Leaves settings underlying expiry atm service operation) :
    Steady settings underlying expiry atm service operation := by
  cases operation with
  | control => trivial
  | sweep market answer =>
    simp only [Leaves] at leaves
    simp only [Steady]
    split_ifs with active
    · rw [optionUniverse_resubscribe answer active] at leaves
      exact follows_of_covers (distinct market answer rfl) leaves
    · rw [resubscribeOptionUniverse, if_neg active] at leaves
      exact leaves

theorem leaves_iff_steady (service : Service) (operations : List Operation) :
    (Meets (Service.operate settings) (Steady settings underlying expiry atm) service operations →
      Meets (Service.operate settings) (Leaves settings underlying expiry atm) service
        operations) ∧
    ((∀ market answer, .sweep market answer ∈ operations → Distinct settings market underlying) →
      Meets (Service.operate settings) (Leaves settings underlying expiry atm) service operations →
      Meets (Service.operate settings) (Steady settings underlying expiry atm) service
        operations) := by
  constructor
  · exact meets_imp fun _ _ _ => leaves_of_steady
  · intro distinct
    refine meets_imp ?_
    intro operation mem service leaves
    refine steady_of_leaves ?_ leaves
    rintro market answer rfl
    exact distinct market answer mem

/-! The strikes of the sample are 100, 150, 200, 250 and 300, and one strike on each side is in a
window. The session is locked at 150. -/

def niftyStrikes : List ℚ := [100, 150, 200, 250, 300]

def oiSettings : Settings where
  strikeRange _ := 1
  formats := { isoformat := fun _ => "2024-10-10", strike := fun strike => toString strike.num }

def marketAt (spot : ℚ) : Market where
  listed := niftyStrikes.flatMap fun strike =>
    [⟨.nifty, 20006, strike, .ce, none⟩, ⟨.nifty, 20006, strike, .pe, none⟩]
  spot
    | .nifty => some spot
    | .sensex => none
  utcToday := 20003

def lockedAt150 : AtmLock := ⟨152, 150, "CE", "PE", none, none⟩

def running : Service where
  provider := some { connected := true }
  accepting := true

def sweepAt (spot : ℚ) : Operation := .sweep (marketAt spot) fun _ => ⟨[], []⟩

def niftyMaster : InstrumentMaster := (marketAt 150).master oiSettings.formats

theorem steady_sweepAt {spot : ℚ} (active : (service.provider.isSome && service.accepting) = true)
    (same : place niftyStrikes spot = place niftyStrikes 150) :
    Steady oiSettings .nifty 20006 lockedAt150 service (sweepAt spot) := by
  have current : resolveExpiry niftyMaster "NIFTY" 20003 = some 20006 := by decide +kernel
  have strikes : niftyMaster.listStrikes "NIFTY" 20006 = niftyStrikes := by decide +kernel
  simp only [sweepAt, Steady, if_pos active]
  refine .inr ⟨spot, rfl, current, ?_⟩
  change Reaches (niftyMaster.listStrikes "NIFTY" 20006) 1 150 spot
  rw [strikes]
  exact ⟨.inl same.le, .inl same.ge⟩

theorem leaves_near150 :
    Meets (Service.operate oiSettings) (Leaves oiSettings .nifty 20006 lockedAt150) running
      [sweepAt 152, sweepAt 170, sweepAt 130] := by
  refine (leaves_iff_steady running _).1 ?_
  refine meets_cons.mpr ⟨steady_sweepAt rfl (by decide +kernel), ?_⟩
  rintro _ ⟨⟩
  refine meets_cons.mpr ⟨steady_sweepAt rfl (by decide +kernel), ?_⟩
  rintro _ ⟨⟩
  refine meets_cons.mpr ⟨steady_sweepAt rfl (by decide +kernel), ?_⟩
  intro _ _
  trivial

theorem spot230_not_leaves :
    ¬ Meets (Service.operate oiSettings) (Leaves oiSettings .nifty 20006 lockedAt150) running
      [sweepAt 152, sweepAt 230] := by
  intro leaves
  have second := (meets_cons.mp ((meets_cons.mp leaves).2 _ rfl)).1
  have subscribed := second 150 (by decide +kernel) .ce
    ⟨"NIFTY|2024-10-10|150|CE", .nfo, "NIFTY", 20006, 150, .ce, none⟩ (by decide +kernel)
  revert subscribed
  decide +kernel

end AlgoSystem.Proof.MarketData.OiWindow

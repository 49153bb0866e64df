import AlgoSystem.MarketData.Subscriptions
import AlgoSystem.Proof.MarketData.Strikes

namespace AlgoSystem.Proof.MarketData.Subscriptions
open AlgoSystem.MarketData AlgoSystem.MarketData.Subscriptions General List
open AlgoSystem.MarketData.StraddlePulse (Underlying Settings)

variable {symbol : String} {market : Market} {threads : List Pc} {i : Nat}
  {remaining rest : List Underlying} {extra : List String} {control : Control}

/-- The symbols of an underlying begin with its name, and the two names with different letters. -/
def Belongs (underlying : Underlying) (symbol : String) : Prop :=
  symbol.toList.head? = underlying.symbol.toList.head?

theorem belongs_makeOptionSymbol (formats : Formats) (underlying : Underlying) (expiry : Int)
    (strike : ℚ) (optionType : OptionType) :
    Belongs underlying
      (makeOptionSymbol formats underlying.symbol expiry strike optionType) := by
  unfold Belongs makeOptionSymbol
  rw [String.intercalate_cons_of_ne_nil (by simp), String.toList_append, String.toList_append,
    List.append_assoc]
  cases underlying <;> rfl

theorem Belongs.unique {a b : Underlying} (left : Belongs a symbol) (right : Belongs b symbol) :
    a = b := by
  have same : a.symbol.toList.head? = b.symbol.toList.head? := left.symm.trans right
  cases a <;> cases b <;> first | rfl | exact absurd same (by decide)

variable {c : Contract}

theorem internalSymbol_of_mem_master {formats : Formats}
    (member : c ∈ (market.master formats).contracts) :
    c.internalSymbol = makeOptionSymbol formats c.underlying c.expiry c.strike c.optionType := by
  obtain ⟨inst, mem, loaded⟩ := mem_filterMap.mp member
  obtain ⟨row, _, rfl⟩ := mem_map.mp mem
  cases loaded
  rfl

variable {underlying : Underlying}

theorem mem_contractsAt {master : InstrumentMaster} {expiry : Int} {window : List ℚ} :
    c ∈ contractsAt master underlying expiry window ↔
      ∃ strike ∈ window, ∃ optionType,
        master.resolve underlying.symbol expiry strike optionType = some c := by
  unfold contractsAt
  simp only [mem_flatMap, mem_filterMap]
  constructor
  · rintro ⟨strike, mem, optionType, _, resolved⟩
    exact ⟨strike, mem, optionType, resolved⟩
  · rintro ⟨strike, mem, optionType, resolved⟩
    refine ⟨strike, mem, optionType, ?_, resolved⟩
    cases optionType <;> simp

theorem belongs_of_wanted {settings : Settings} {service : Service}
    (wanted : symbol ∈ (plan settings service market underlying).wanted) :
    Belongs underlying symbol := by
  obtain ⟨c, mem, rfl⟩ := mem_map.mp wanted
  simp only [currentOptionWindow] at mem
  split at mem
  next spot expiry _ _ =>
    obtain ⟨_, _, _, resolved⟩ := mem_contractsAt.mp mem
    obtain ⟨member, own, _⟩ := resolve_eq_some resolved
    rw [internalSymbol_of_mem_master member, own]
    exact belongs_makeOptionSymbol ..
  next => cases mem

def Has (provider : Provider) (service : Service) (underlying : Underlying) : Prop :=
  ∀ symbol ∈ service.optionUniverse underlying, symbol ∈ provider.subscribed

def Agree (service : Service) : Prop :=
  ∃ provider, service.provider = some provider ∧ ∀ underlying, Has provider service underlying

def inFlight : Pc → Bool
  | .entered => false
  | .next .. => true
  | .subscribing .. => true
  | .unsubscribing .. => true
  | .assigning .. => true
  | .done _ => false

/-- The condition on a step of a sweep that has found a connected provider: what it keeps is
subscribed, and what it adds is accepted. -/
def fulfilled (settings : Settings) (service : Service) : Pc → Choice → Bool
  | .next true underlying _, .window market =>
    service.provider.any fun provider =>
      decide (∀ symbol ∈ (plan settings service market underlying).wanted,
        symbol ∈ service.optionUniverse underlying → symbol ∈ provider.subscribed)
  | .subscribing true _ _ plan, .subscribe accepted => decide (plan.add ⊆ accepted)
  | _, _ => true

def idle (threads : List Pc) : Bool := threads.all fun pc => !inFlight pc

/-- A sweep does its steps while no other one is under way, and the provider is taken away or
disconnected while none is. -/
def undisturbed (settings : Settings) (s : State) : Event → Bool
  | .act i choice =>
    idle (s.threads.eraseIdx i) &&
      s.threads[i]?.all fun pc => fulfilled settings s.shared pc choice
  | .env .disconnect => idle s.threads
  | .env .resetProvider => idle s.threads
  | .env .stop => idle s.threads
  | _ => true

structure Planned (underlying : Underlying) (plan : Plan) : Prop where
  wanted : ∀ symbol ∈ plan.wanted, Belongs underlying symbol
  drop : ∀ symbol ∈ plan.drop, Belongs underlying symbol
  apart : ∀ symbol ∈ plan.drop, symbol ∉ plan.wanted

/-- The provider has the universe of each underlying that is not still to come, and the symbols of
the current one in `extra` or in its own set. -/
def Settled (service : Service) (remaining : List Underlying) (wanted extra : List String) : Prop :=
  ∃ provider, service.provider = some provider ∧
    (∀ underlying, underlying ∉ remaining → Has provider service underlying) ∧
    ∀ symbol ∈ wanted, symbol ∈ extra ∨ symbol ∈ provider.subscribed

def Asserted (service : Service) : Pc → Prop
  | .entered => True
  | .next connected underlying rest => connected = true → Settled service (underlying :: rest) [] []
  | .subscribing connected underlying rest plan =>
    Planned underlying plan ∧
      (connected = true → Settled service (underlying :: rest) plan.wanted plan.add)
  | .unsubscribing connected underlying rest plan =>
    Planned underlying plan ∧
      (connected = true → Settled service (underlying :: rest) plan.wanted [])
  | .assigning connected underlying rest plan =>
    Planned underlying plan ∧
      (connected = true → Settled service (underlying :: rest) plan.wanted [])
  | .done _ => True

def Named (service : Service) : Prop :=
  ∀ underlying, ∀ symbol ∈ service.optionUniverse underlying, Belongs underlying symbol

variable {settings : Settings} {service : Service}

variable {pc : Pc}

theorem asserted_of_not_inFlight (out : inFlight pc = false) : Asserted service pc := by
  cases pc with
  | entered | done => trivial
  | next | subscribing | unsubscribing | assigning => cases out

theorem idle_getElem? (quiet : idle threads = true) (present : threads[i]? = some pc) :
    inFlight pc = false := by
  have all := all_eq_true.mp quiet pc (mem_of_getElem? present)
  simpa using all

theorem idle_eraseIdx {j : Nat} (quiet : idle (threads.eraseIdx i) = true) (other : j ≠ i)
    (present : threads[j]? = some pc) : inFlight pc = false := by
  have member := mem_eraseIdx_iff_getElem?.mpr ⟨j, other, present⟩
  simpa using all_eq_true.mp quiet pc member

theorem planned_plan (named : Named service) (market : Market) (underlying : Underlying) :
    Planned underlying (plan settings service market underlying) := by
  constructor
  · intro symbol wanted
    exact belongs_of_wanted wanted
  · intro symbol dropped
    exact named underlying symbol (mem_filter.mp dropped).1
  · intro symbol dropped
    exact of_decide_eq_true (mem_filter.mp dropped).2

variable {wanted : List String}

theorem Settled.accepted {accepted : List String} (settled : Settled service remaining wanted extra)
    (all : extra ⊆ accepted) : Settled (service.subscribe accepted) remaining wanted [] := by
  obtain ⟨p, provider, has, planned⟩ := settled
  refine ⟨{ p with subscribed := p.subscribed ++ accepted }, ?_, ?_, ?_⟩
  · simp [Service.subscribe, provider]
  · intro underlying processed symbol mem
    exact mem_append_left _ (has underlying processed symbol mem)
  · intro symbol mem
    cases planned symbol mem with
    | inl new => exact .inr (mem_append_right _ (all new))
    | inr old => exact .inr (mem_append_left _ old)

theorem Settled.unsubscribe {plan : Plan} {removed : List String} (named : Named service)
    (planned : Planned underlying plan)
    (settled : Settled service (underlying :: rest) plan.wanted []) (dropped : removed ⊆ plan.drop) :
    Settled (service.unsubscribe removed) (underlying :: rest) plan.wanted [] := by
  obtain ⟨p, provider, has, wanted⟩ := settled
  refine ⟨{ p with subscribed := p.subscribed.filter (· ∉ removed) }, ?_, ?_, ?_⟩
  · simp [Service.unsubscribe, provider]
  · intro other processed symbol mem
    refine mem_filter.mpr ⟨has other processed symbol mem, decide_eq_true ?_⟩
    intro gone
    have same := (named other symbol mem).unique (planned.drop symbol (dropped gone))
    exact processed (same ▸ mem_cons_self)
  · intro symbol mem
    have subscribed := (wanted symbol mem).resolve_left (not_mem_nil)
    refine .inr (mem_filter.mpr ⟨subscribed, decide_eq_true ?_⟩)
    intro gone
    exact planned.apart symbol (dropped gone) mem

theorem Settled.assign (settled : Settled service (underlying :: rest) wanted []) :
    Settled (service.assign underlying wanted) rest [] [] := by
  obtain ⟨p, provider, has, planned⟩ := settled
  refine ⟨p, provider, ?_, ?_⟩
  · intro other processed symbol mem
    by_cases same : other = underlying
    · subst same
      have now : symbol ∈ wanted := by simpa [Service.assign] using mem
      exact (planned symbol now).resolve_left not_mem_nil
    · have before : symbol ∈ service.optionUniverse other := by
        simpa [Service.assign, same] using mem
      exact has other (by simp [same, processed]) symbol before
  · intro symbol mem
    cases mem

theorem Named.assign (named : Named service) (own : ∀ symbol ∈ wanted, Belongs underlying symbol) :
    Named (service.assign underlying wanted) := by
  intro other symbol mem
  by_cases same : other = underlying
  · subst same
    exact own symbol (by simpa [Service.assign] using mem)
  · exact named other symbol (by simpa [Service.assign, same] using mem)

variable {service' : Service}

theorem sweep_keeps {pc' : Pc} {choice : Choice} (named : Named service)
    (asserted : Asserted service pc) (met : fulfilled settings service pc choice = true)
    (stepped : sweep settings service pc choice = some (service', pc')) :
    Named service' ∧ Asserted service' pc' := by
  unfold sweep at stepped
  split at stepped
  next =>
    split at stepped
    next =>
      cases stepped
      exact ⟨named, trivial⟩
    next p provider =>
      split_ifs at stepped
      · cases stepped
        refine ⟨named, fun _ => ⟨p, provider, ?_, ?_⟩⟩
        · intro underlying processed
          cases underlying <;> simp at processed
        · intro symbol mem
          cases mem
      · cases stepped
        exact ⟨named, trivial⟩
  next connected underlying rest market =>
    cases stepped
    refine ⟨named, planned_plan named market underlying, ?_⟩
    rintro rfl
    obtain ⟨p, provider, has, _⟩ := asserted rfl
    have kept := met
    simp only [fulfilled, provider, Option.any_some, decide_eq_true_eq] at kept
    refine ⟨p, provider, has, ?_⟩
    intro symbol wanted
    by_cases old : symbol ∈ service.optionUniverse underlying
    · exact .inr (kept symbol wanted old)
    · exact .inl (mem_filter.mpr ⟨wanted, decide_eq_true old⟩)
  next connected underlying rest plan accepted =>
    obtain ⟨planned, settled⟩ := asserted
    split_ifs at stepped
    cases stepped
    refine ⟨named, planned, ?_⟩
    rintro rfl
    exact (settled rfl).accepted (of_decide_eq_true met)
  next connected underlying rest plan removed =>
    obtain ⟨planned, settled⟩ := asserted
    split_ifs at stepped with dropped
    cases stepped
    exact ⟨named, planned, fun found => (settled found).unsubscribe named planned dropped⟩
  next connected underlying rest plan =>
    obtain ⟨planned, settled⟩ := asserted
    cases stepped
    refine ⟨named.assign planned.wanted, ?_⟩
    cases rest with
    | nil => trivial
    | cons next rest => exact fun found => (settled found).assign
  next => cases stepped

theorem control_named (named : Named service) (changed : service.control control = some service') :
    Named service' := by
  cases control with
  | create =>
    simp only [Service.control] at changed
    split at changed
    next =>
      cases changed
      exact named
    next => cases changed
  | connect | disconnect =>
    obtain ⟨p, _, rfl⟩ := Option.map_eq_some_iff.mp changed
    exact named
  | stop =>
    cases changed
    intro underlying symbol mem
    cases mem
  | accept | subscribeIndices | resetProvider | halt =>
    cases changed
    exact named

def Grows (service service' : Service) : Prop :=
  service'.optionUniverse = service.optionUniverse ∧
    ∀ p, service.provider = some p →
      ∃ p', service'.provider = some p' ∧ p.subscribed ⊆ p'.subscribed

theorem Settled.grows (settled : Settled service remaining wanted extra)
    (grows : Grows service service') : Settled service' remaining wanted extra := by
  obtain ⟨p, provider, has, planned⟩ := settled
  obtain ⟨same, more⟩ := grows
  obtain ⟨p', provider', larger⟩ := more p provider
  refine ⟨p', provider', ?_, ?_⟩
  · intro underlying processed symbol mem
    rw [same] at mem
    exact larger (has underlying processed symbol mem)
  · intro symbol mem
    exact (planned symbol mem).imp_right (larger ·)

theorem Asserted.grows (asserted : Asserted service pc) (grows : Grows service service') :
    Asserted service' pc := by
  cases pc with
  | entered | done => trivial
  | next => exact fun found => (asserted found).grows grows
  | subscribing | unsubscribing | assigning =>
    exact ⟨asserted.1, fun found => (asserted.2 found).grows grows⟩

theorem control_asserted
    (quiet : control = .disconnect ∨ control = .resetProvider ∨ control = .stop →
      inFlight pc = false)
    (changed : service.control control = some service') (asserted : Asserted service pc) :
    Asserted service' pc := by
  cases control with
  | disconnect => exact asserted_of_not_inFlight (quiet (.inl rfl))
  | resetProvider => exact asserted_of_not_inFlight (quiet (.inr (.inl rfl)))
  | stop => exact asserted_of_not_inFlight (quiet (.inr (.inr rfl)))
  | create =>
    simp only [Service.control] at changed
    split at changed
    next absent =>
      cases changed
      refine asserted.grows ⟨rfl, ?_⟩
      intro p provider
      rw [absent] at provider
      cases provider
    next => cases changed
  | connect =>
    obtain ⟨p, provider, rfl⟩ := Option.map_eq_some_iff.mp changed
    refine asserted.grows ⟨rfl, ?_⟩
    intro q provider'
    rw [provider] at provider'
    cases provider'
    exact ⟨_, rfl, List.Subset.refl _⟩
  | accept | halt =>
    cases changed
    exact asserted.grows ⟨rfl, fun p provider => ⟨p, provider, List.Subset.refl _⟩⟩
  | subscribeIndices accepted =>
    cases changed
    refine asserted.grows ⟨rfl, ?_⟩
    intro p provider
    refine ⟨{ p with subscribed := p.subscribed ++ accepted }, ?_, subset_append_left _ _⟩
    simp [Service.subscribe, provider]

abbrev Holding : State → Prop :=
  ThreadSystem.Holds (fun _ service => Named service) (fun _ service pc => Asserted service pc)

theorem step_holding (s : State) (event : Event) (t : State) (holding : Holding s)
    (met : undisturbed settings s event = true)
    (stepped : (feed settings).step s event = some t) : Holding t := by
  refine ThreadSystem.step_holds (fun s event => undisturbed settings s event = true) ?_ ?_ ?_ ?_
    s event t holding met stepped
  · intro n service entry named
    exact ⟨named, trivial⟩
  · intro s i here choice g there holding found met acted
    obtain ⟨quiet, own⟩ := Bool.and_eq_true_iff.mp met
    rw [found, Option.all_some] at own
    obtain ⟨named, asserted⟩ := sweep_keeps holding.shared (holding.threads i here found) own acted
    refine ⟨named, asserted, ?_⟩
    intro j pc other present _
    exact asserted_of_not_inFlight (idle_eraseIdx quiet other present)
  · intro s control g holding met changed
    refine ⟨control_named holding.shared changed, ?_⟩
    intro i pc present asserted
    refine control_asserted ?_ changed asserted
    rintro (rfl | rfl | rfl)
    · exact idle_getElem? met present
    · exact idle_getElem? met present
    · exact idle_getElem? met present
  · intro n service _ underlying symbol mem
    cases mem

theorem agree_after_sweep {events : List Event} {i : Nat} {choice : Choice} {s t : State}
    (path : run (feed settings).step { shared := {} } events = some s)
    (met : Meets (feed settings).step (fun s event => undisturbed settings s event = true)
      { shared := {} } events)
    (stepped : (feed settings).step s (.act i choice) = some t)
    (ended : t.threads[i]? = some (.done true)) : Agree t.shared := by
  have start : Holding { shared := {} } := by
    constructor
    · intro underlying symbol mem
      cases mem
    · intro i pc present
      simp at present
  have holding := run_invariant_of_meets step_holding path met start
  obtain ⟨here, g, there, found, acted, rfl⟩ := ThreadSystem.step_act_eq_some stepped
  have mem : i < s.threads.length := (List.getElem?_eq_some_iff.mp found).1
  rw [getElem?_set_self mem] at ended
  cases ended
  have asserted := holding.threads i here found
  change sweep settings s.shared here choice = some (g, .done true) at acted
  -- only the last assignment of a sweep ends it with this mark
  unfold sweep at acted
  split at acted
  next =>
    split at acted
    next => cases acted
    next => split_ifs at acted <;> cases acted
  next => cases acted
  next =>
    split_ifs at acted
    cases acted
  next =>
    split_ifs at acted
    cases acted
  next connected underlying rest plan =>
    cases rest with
    | cons => cases acted
    | nil =>
      cases acted
      obtain ⟨p, provider, has, _⟩ := (asserted.2 rfl).assign
      exact ⟨p, provider, fun other => has other not_mem_nil⟩
  next => cases acted

/-! One strike of NIFTY is listed, and the provider records what it is asked for. -/

def feedSettings : Settings where
  strikeRange _ := 1
  formats := { isoformat := fun _ => "2024-10-10", strike := fun _ => "150" }

def oneStrike : Market where
  listed := [⟨.nifty, 20006, 150, .ce, none⟩, ⟨.nifty, 20006, 150, .pe, none⟩]
  spot
    | .nifty => some 130
    | .sensex => none
  utcToday := 20003

def nifty150 : List String := (currentOptionWindow feedSettings oneStrike .nifty).map
  Contract.internalSymbol

def indices : List String := ["NIFTY", "BANKNIFTY", "INDIA_VIX", "SENSEX"]

def started : List Event :=
  [.env .create, .env .connect, .env .accept, .env (.subscribeIndices indices)]

def reconnected : List Event := [.env .disconnect, .env .connect, .env (.subscribeIndices indices)]

def sweeping (i : Nat) (accepted : List String) : List Event :=
  [.enter (), .act i .check, .act i (.window oneStrike), .act i (.subscribe accepted),
    .act i (.unsubscribe []), .act i .assign, .act i (.window oneStrike), .act i (.subscribe []),
    .act i (.unsubscribe [])]

theorem agree_firstSweep :
    ∃ t, run (feed feedSettings).step { shared := {} }
        (started ++ sweeping 0 nifty150 ++ [.act 0 .assign]) = some t ∧
      t.threads = [.done true] ∧ t.shared.optionUniverse .nifty = nifty150 ∧
      nifty150.length = 2 ∧ Agree t.shared := by
  have reached : (run (feed feedSettings).step { shared := {} }
      (started ++ sweeping 0 nifty150 ++ [.act 0 .assign])).map
        (fun t => (t.threads, t.shared.optionUniverse .nifty)) = some ([.done true], nifty150) := by
    decide +kernel
  obtain ⟨t, path, seen⟩ := Option.map_eq_some_iff.mp reached
  obtain ⟨threads, inUniverse⟩ := Prod.mk.inj seen
  obtain ⟨s, before, last⟩ := run_append_eq_some.mp path
  obtain ⟨u, stepped, done⟩ := run_cons_eq_some.mp last
  cases done
  refine ⟨t, path, threads, inUniverse, by decide +kernel, ?_⟩
  exact agree_after_sweep before (by decide +kernel) stepped (by rw [threads]; rfl)

theorem reconnected_not_agree :
    ∃ t, run (feed feedSettings).step { shared := {} }
        (started ++ sweeping 0 nifty150 ++ [.act 0 .assign] ++ reconnected ++ sweeping 1 [] ++
          [.act 1 .assign]) = some t ∧
      t.threads = [.done true, .done true] ∧
      t.shared.provider = some { connected := true, subscribed := indices } ∧
      t.shared.optionUniverse .nifty = nifty150 ∧ ¬ Agree t.shared := by
  have reached : (run (feed feedSettings).step { shared := {} }
      (started ++ sweeping 0 nifty150 ++ [.act 0 .assign] ++ reconnected ++ sweeping 1 [] ++
        [.act 1 .assign])).map
        (fun t => (t.threads, t.shared.provider, t.shared.optionUniverse .nifty)) =
      some ([.done true, .done true], some { connected := true, subscribed := indices },
        nifty150) := by
    decide +kernel
  obtain ⟨t, path, seen⟩ := Option.map_eq_some_iff.mp reached
  obtain ⟨threads, seen⟩ := Prod.mk.inj seen
  obtain ⟨provider, inUniverse⟩ := Prod.mk.inj seen
  refine ⟨t, path, threads, provider, inUniverse, ?_⟩
  rintro ⟨p, provider', has⟩
  rw [provider] at provider'
  cases provider'
  have missing : ¬ ∀ symbol ∈ nifty150, symbol ∈ indices := by decide +kernel
  refine missing ?_
  rw [← inUniverse]
  exact has .nifty

end AlgoSystem.Proof.MarketData.Subscriptions

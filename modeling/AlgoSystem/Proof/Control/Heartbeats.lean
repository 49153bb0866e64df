import AlgoSystem.Control.Heartbeats
import AlgoSystem.General.Reports
import Mathlib.Order.Nat

namespace AlgoSystem.Proof.Control.Heartbeats
open AlgoSystem.Control.Heartbeats General List

def accepted (db : Db) (arrival : Arrival) : Bool :=
  (db.servers.get? arrival.body.serverId).isSome && (db.algos.get? arrival.body.key).isSome

def ofServer (db : Db) (server : String) (arrivals : List Arrival) : List Arrival :=
  arrivals.filter fun arrival => accepted db arrival && arrival.body.serverId = server

def ofAlgo (db : Db) (key : AlgoKey) (arrivals : List Arrival) : List Arrival :=
  arrivals.filter fun arrival => accepted db arrival && arrival.body.key = key

def status (arrival : Arrival) : Option String := some arrival.body.status

def tradingMode (arrival : Arrival) : Option TradingMode := arrival.body.tradingMode

def runningLots (arrival : Arrival) : Option Nat := arrival.body.runningLots

structure Sticky {β : Type} (value : Arrival → Option β) (own : List Arrival)
    (old new : Option β) : Prop where
  reported : (∃ arrival ∈ own, value arrival ≠ none) →
    ∃ b, new = some b ∧ Newest Arrival.stamp value own b
  unreported : (∀ arrival ∈ own, value arrival = none) → new = old

structure AlgoReflects (own : List Arrival) (old new : Algo) : Prop where
  status : Newest Arrival.stamp status own new.status
  tradingMode : Sticky tradingMode own old.tradingMode new.tradingMode
  runningLots : Sticky runningLots own old.runningLots new.runningLots

structure Reflects (db : Db) (server : String) (arrivals : List Arrival) (db' : Db) : Prop where
  lastHeartbeat : ofServer db server arrivals ≠ [] →
    db'.servers.get? server = some ((ofServer db server arrivals).map Arrival.stamp).max?
  reported : ∀ key, key.serverId = server →
    reportedHeartbeat db' key = ((ofAlgo db key arrivals).map Arrival.stamp).max?
  algo : ∀ key old, key.serverId = server → db.algos.get? key = some old →
    ofAlgo db key arrivals ≠ [] →
    ∃ new, db'.algos.get? key = some new ∧ AlgoReflects (ofAlgo db key arrivals) old new

/-- For the server, and for each column of each algo, the value that arrives last is that of a
heartbeat with the greatest timestamp. -/
structure InOrder (db : Db) (server : String) (arrivals : List Arrival) : Prop where
  stamps : UpToDate Arrival.stamp (fun arrival => some arrival.stamp) (ofServer db server arrivals)
  status : ∀ key, key.serverId = server → UpToDate Arrival.stamp status (ofAlgo db key arrivals)
  tradingMode : ∀ key, key.serverId = server →
    UpToDate Arrival.stamp tradingMode (ofAlgo db key arrivals)
  runningLots : ∀ key, key.serverId = server →
    UpToDate Arrival.stamp runningLots (ofAlgo db key arrivals)

variable {db : Db} {arrival other : Arrival}

theorem receive_refused (refused : accepted db arrival = false) : receive db arrival = db := by
  unfold accepted at refused
  unfold receive postHeartbeat
  cases server : db.servers.get? arrival.body.serverId with
  | none => rfl
  | some _ =>
    cases algo : db.algos.get? arrival.body.key with
    | none => rfl
    | some _ => simp [server, algo] at refused

theorem receive_accepted (passed : accepted db arrival = true) :
    ∃ algo, db.algos.get? arrival.body.key = some algo ∧ receive db arrival =
      { servers := db.servers.upsert arrival.body.serverId none fun _ => some arrival.stamp
        algos := db.algos.upsert arrival.body.key algo fun algo => algo.update arrival.body
        heartbeats := db.heartbeats ++ [(arrival.body.key, arrival.stamp)] } := by
  obtain ⟨hasServer, hasAlgo⟩ := Bool.and_eq_true_iff.mp passed
  obtain ⟨server, known⟩ := Option.isSome_iff_exists.mp hasServer
  obtain ⟨algo, registered⟩ := Option.isSome_iff_exists.mp hasAlgo
  refine ⟨algo, registered, ?_⟩
  simp only [receive, postHeartbeat, known, registered]
  rfl

section
variable (db arrival)

theorem servers_receive (server : String) :
    (receive db arrival).servers.get? server =
      if accepted db arrival && arrival.body.serverId = server then some (some arrival.stamp)
      else db.servers.get? server := by
  by_cases passed : accepted db arrival = true
  · obtain ⟨algo, _, received⟩ := receive_accepted passed
    rw [received]
    simp [Dict.get?_upsert, passed, eq_comm]
  · rw [receive_refused (by simpa using passed)]
    simp [passed]

theorem algos_receive (key : AlgoKey) :
    (receive db arrival).algos.get? key =
      if accepted db arrival && arrival.body.key = key then
        (db.algos.get? key).map fun algo => algo.update arrival.body
      else db.algos.get? key := by
  by_cases passed : accepted db arrival = true
  · obtain ⟨algo, registered, received⟩ := receive_accepted passed
    rw [received]
    by_cases own : arrival.body.key = key
    · subst own
      simp [Dict.get?_upsert, passed, registered]
    · simp [Dict.get?_upsert, own, Ne.symm own]
  · rw [receive_refused (by simpa using passed)]
    simp [passed]

theorem heartbeats_receive :
    (receive db arrival).heartbeats =
      db.heartbeats ++ if accepted db arrival then [(arrival.body.key, arrival.stamp)] else [] := by
  by_cases passed : accepted db arrival = true
  · obtain ⟨algo, _, received⟩ := receive_accepted passed
    simp [received, passed]
  · rw [receive_refused (by simpa using passed)]
    simp [passed]

theorem accepted_receive (other : Arrival) :
    accepted (receive db arrival) other = accepted db other := by
  unfold accepted
  rw [servers_receive, algos_receive]
  congr 1
  · split_ifs with own
    · obtain ⟨passed, same⟩ := by simpa using own
      rw [← same]
      exact (Bool.and_eq_true_iff.mp passed).1.symm
    · rfl
  · split_ifs
    · simp
    · rfl

theorem ofServer_receive (server : String) (arrivals : List Arrival) :
    ofServer (receive db arrival) server arrivals = ofServer db server arrivals := by
  simp [ofServer, accepted_receive]

theorem ofAlgo_receive (key : AlgoKey) (arrivals : List Arrival) :
    ofAlgo (receive db arrival) key arrivals = ofAlgo db key arrivals := by
  simp [ofAlgo, accepted_receive]

end

theorem servers_receiveAll (db : Db) (arrivals : List Arrival) (server : String) :
    (receiveAll db arrivals).servers.get? server =
      (db.servers.get? server).map fun old =>
        (latest (fun arrival => some arrival.stamp) (ofServer db server arrivals)).or old := by
  induction arrivals generalizing db with
  | nil => simp [receiveAll, ofServer]
  | cons arrival rest ih =>
    show (receiveAll (receive db arrival) rest).servers.get? server = _
    rw [ih, servers_receive, ofServer_receive]
    by_cases own : (accepted db arrival && arrival.body.serverId = server) = true
    · obtain ⟨passed, rfl⟩ := by simpa using own
      obtain ⟨old, known⟩ := Option.isSome_iff_exists.mp (Bool.and_eq_true_iff.mp passed).1
      simp [ofServer, passed, known]
    · simp only [own, ofServer, filter_cons]
      rfl

def Algo.after (algo : Algo) (own : List Arrival) : Algo where
  status := (latest status own).getD algo.status
  tradingMode := (latest tradingMode own).or algo.tradingMode
  runningLots := (latest runningLots own).or algo.runningLots

theorem algos_receiveAll (db : Db) (arrivals : List Arrival) (key : AlgoKey) :
    (receiveAll db arrivals).algos.get? key =
      (db.algos.get? key).map fun algo => Algo.after algo (ofAlgo db key arrivals) := by
  induction arrivals generalizing db with
  | nil => simp [receiveAll, ofAlgo, Algo.after]
  | cons arrival rest ih =>
    show (receiveAll (receive db arrival) rest).algos.get? key = _
    rw [ih, algos_receive, ofAlgo_receive]
    by_cases own : (accepted db arrival && arrival.body.key = key) = true
    · have first : ofAlgo db key (arrival :: rest) = arrival :: ofAlgo db key rest := by
        simp only [ofAlgo, filter_cons, own, if_true]
      rw [first, if_pos own, Option.map_map]
      congr 1
      funext algo
      simp [Algo.after, Algo.update, status, tradingMode, runningLots, Option.or_assoc]
    · simp only [own, ofAlgo, filter_cons]
      rfl

theorem heartbeats_receiveAll (db : Db) (arrivals : List Arrival) (key : AlgoKey) :
    (((receiveAll db arrivals).heartbeats.filter fun row => row.1 = key).map Prod.snd) =
      ((db.heartbeats.filter fun row => row.1 = key).map Prod.snd) ++
        (ofAlgo db key arrivals).map Arrival.stamp := by
  induction arrivals generalizing db with
  | nil => simp [receiveAll, ofAlgo]
  | cons arrival rest ih =>
    show ((receiveAll (receive db arrival) rest).heartbeats.filter _).map _ = _
    rw [ih, heartbeats_receive, ofAlgo_receive]
    by_cases passed : accepted db arrival = true
    · by_cases own : arrival.body.key = key
      · simp [passed, own, ofAlgo]
      · simp [passed, own, ofAlgo]
    · simp [passed, ofAlgo]

variable {β : Type}

theorem sticky_iff (value : Arrival → Option β) (own : List Arrival) (old : Option β) :
    Sticky value own old ((latest value own).or old) ↔ UpToDate Arrival.stamp value own := by
  constructor
  · intro sticky b last
    have reports : ∃ arrival ∈ own, value arrival ≠ none := by
      by_contra silent
      push Not at silent
      rw [latest_eq_none.mpr silent] at last
      cases last
    obtain ⟨c, same, newest⟩ := sticky.reported reports
    rw [last] at same
    cases same
    exact newest
  · intro upToDate
    constructor
    · rintro ⟨arrival, mem, reports⟩
      have some : latest value own ≠ none := by
        intro silent
        exact reports (latest_eq_none.mp silent arrival mem)
      obtain ⟨b, last⟩ := Option.ne_none_iff_exists'.mp some
      exact ⟨b, by simp [last], upToDate b last⟩
    · intro silent
      simp [latest_eq_none.mpr silent]

variable {own : List Arrival}

theorem newest_getD_iff (value : Arrival → Option β) (old : β)
    (total : ∀ arrival, value arrival ≠ none) (nonempty : own ≠ []) :
    Newest Arrival.stamp value own ((latest value own).getD old) ↔
      UpToDate Arrival.stamp value own := by
  obtain ⟨b, last⟩ := latest_ne_none_of_total total nonempty
  simp [UpToDate, last]

theorem newest_stamp_iff {m : Nat} :
    Newest Arrival.stamp (fun arrival => some arrival.stamp) own m ↔
      (own.map Arrival.stamp).max? = some m := by
  rw [max?_eq_some_iff]
  constructor
  · rintro ⟨arrival, mem, same, greatest⟩
    cases same
    refine ⟨mem_map_of_mem mem, ?_⟩
    simpa using greatest
  · rintro ⟨mem, greatest⟩
    obtain ⟨arrival, member, rfl⟩ := mem_map.mp mem
    exact ⟨arrival, member, rfl, by simpa using greatest⟩

theorem lastHeartbeat_iff (old : Option Nat) (nonempty : own ≠ []) :
    (latest (fun arrival => some arrival.stamp) own).or old = (own.map Arrival.stamp).max? ↔
      UpToDate Arrival.stamp (fun arrival => some arrival.stamp) own := by
  have total : ∀ arrival : Arrival, some arrival.stamp ≠ none := fun _ => Option.some_ne_none _
  obtain ⟨m, last⟩ := latest_ne_none_of_total total nonempty
  simp only [UpToDate, last, Option.some_or, Option.some.injEq, forall_eq', newest_stamp_iff]
  exact eq_comm

theorem algoReflects_iff (algo : Algo) (nonempty : own ≠ []) :
    AlgoReflects own algo (Algo.after algo own) ↔
      UpToDate Arrival.stamp status own ∧ UpToDate Arrival.stamp tradingMode own ∧
        UpToDate Arrival.stamp runningLots own := by
  have total : ∀ arrival, status arrival ≠ none := fun _ => Option.some_ne_none _
  rw [← newest_getD_iff status algo.status total nonempty,
    ← sticky_iff tradingMode own algo.tradingMode, ← sticky_iff runningLots own algo.runningLots]
  constructor
  · intro reflects
    exact ⟨reflects.status, reflects.tradingMode, reflects.runningLots⟩
  · rintro ⟨newest, mode, lots⟩
    exact ⟨newest, mode, lots⟩

theorem upToDate_of_nonempty {value : Arrival → Option β}
    (upToDate : own ≠ [] → UpToDate Arrival.stamp value own) :
    UpToDate Arrival.stamp value own := by
  by_cases empty : own = []
  · rw [empty]
    intro b nothing
    cases nothing
  · exact upToDate empty

variable {server : String} {arrivals : List Arrival}

theorem known_of_ofServer (nonempty : ofServer db server arrivals ≠ []) :
    ∃ old, db.servers.get? server = some old := by
  obtain ⟨arrival, mem⟩ := exists_mem_of_ne_nil _ nonempty
  obtain ⟨passed, rfl⟩ := by simpa using (mem_filter.mp mem).2
  exact Option.isSome_iff_exists.mp (Bool.and_eq_true_iff.mp passed).1

theorem registered_of_ofAlgo {key : AlgoKey} (nonempty : ofAlgo db key arrivals ≠ []) :
    ∃ old, db.algos.get? key = some old := by
  obtain ⟨arrival, mem⟩ := exists_mem_of_ne_nil _ nonempty
  obtain ⟨passed, rfl⟩ := by simpa using (mem_filter.mp mem).2
  exact Option.isSome_iff_exists.mp (Bool.and_eq_true_iff.mp passed).2

theorem lastHeartbeat_receiveAll (nonempty : ofServer db server arrivals ≠ []) :
    (receiveAll db arrivals).servers.get? server =
        some ((ofServer db server arrivals).map Arrival.stamp).max? ↔
      UpToDate Arrival.stamp (fun arrival => some arrival.stamp) (ofServer db server arrivals) := by
  obtain ⟨old, known⟩ := known_of_ofServer nonempty
  rw [servers_receiveAll, known, Option.map_some, Option.some.injEq]
  exact lastHeartbeat_iff old nonempty

theorem inOrder_of_pairwise (sorted : arrivals.Pairwise fun a b => a.stamp ≤ b.stamp) :
    InOrder db server arrivals where
  stamps := upToDate_of_pairwise (sorted.filter _)
  status _ _ := upToDate_of_pairwise (sorted.filter _)
  tradingMode _ _ := upToDate_of_pairwise (sorted.filter _)
  runningLots _ _ := upToDate_of_pairwise (sorted.filter _)

theorem reflects_iff_inOrder (db : Db) (server : String) (arrivals : List Arrival)
    (unheard : db.heartbeats = []) :
    Reflects db server arrivals (receiveAll db arrivals) ↔ InOrder db server arrivals := by
  constructor
  · intro reflects
    have columns : ∀ key, key.serverId = server → ofAlgo db key arrivals ≠ [] →
        UpToDate Arrival.stamp status (ofAlgo db key arrivals) ∧
          UpToDate Arrival.stamp tradingMode (ofAlgo db key arrivals) ∧
          UpToDate Arrival.stamp runningLots (ofAlgo db key arrivals) := by
      intro key here nonempty
      obtain ⟨old, registered⟩ := registered_of_ofAlgo nonempty
      obtain ⟨new, found, reflected⟩ := reflects.algo key old here registered nonempty
      rw [algos_receiveAll, registered] at found
      cases found
      exact (algoReflects_iff old nonempty).mp reflected
    constructor
    · apply upToDate_of_nonempty
      intro nonempty
      exact (lastHeartbeat_receiveAll nonempty).mp (reflects.lastHeartbeat nonempty)
    · intro key here
      exact upToDate_of_nonempty fun nonempty => (columns key here nonempty).1
    · intro key here
      exact upToDate_of_nonempty fun nonempty => (columns key here nonempty).2.1
    · intro key here
      exact upToDate_of_nonempty fun nonempty => (columns key here nonempty).2.2
  · intro inOrder
    constructor
    · intro nonempty
      exact (lastHeartbeat_receiveAll nonempty).mpr inOrder.stamps
    · intro key _
      rw [reportedHeartbeat, heartbeats_receiveAll, unheard]
      rfl
    · intro key old here registered nonempty
      refine ⟨Algo.after old (ofAlgo db key arrivals), ?_, ?_⟩
      · rw [algos_receiveAll, registered, Option.map_some]
      · exact (algoReflects_iff old nonempty).mpr
          ⟨inOrder.status key here, inOrder.tradingMode key here, inOrder.runningLots key here⟩

def alpha : AlgoKey := ⟨"alpha", "ec2"⟩

def registered : Db where
  servers := Dict.empty.upsert "ec2" none id
  algos := Dict.empty.upsert alpha {} id

def beat (timestamp : Nat) (status : String) (runningLots : Option Nat) (now : Nat) : Arrival where
  body := { algoId := "alpha", serverId := "ec2", status, timestamp := some timestamp, runningLots }
  now

def punctual : List Arrival := [beat 10 "RUNNING" (some 2) 11, beat 40 "ERROR" none 41]

theorem reflects_punctual : Reflects registered "ec2" punctual (receiveAll registered punctual) := by
  apply (reflects_iff_inOrder registered "ec2" punctual rfl).mpr
  apply inOrder_of_pairwise
  decide

def delayed : List Arrival := [beat 40 "ERROR" none 41, beat 10 "RUNNING" (some 2) 45]

theorem delayed_not_reflected :
    (receiveAll registered delayed).servers.get? "ec2" = some (some 10) ∧
      ((receiveAll registered delayed).algos.get? alpha).map Algo.status = some "RUNNING" ∧
      reportedHeartbeat (receiveAll registered delayed) alpha = some 40 ∧
      ¬ Reflects registered "ec2" delayed (receiveAll registered delayed) := by
  have lastHeartbeat : (receiveAll registered delayed).servers.get? "ec2" = some (some 10) := by
    decide +kernel
  refine ⟨lastHeartbeat, by decide +kernel, by decide +kernel, ?_⟩
  intro reflects
  have newest := reflects.lastHeartbeat (by decide +kernel)
  rw [lastHeartbeat] at newest
  revert newest
  decide +kernel

end AlgoSystem.Proof.Control.Heartbeats

import AlgoSystem.CombinedVwap.Candles
import AlgoSystem.General.Runs

namespace AlgoSystem.Proof.CombinedVwap.LiveCandles
open General AlgoSystem.CombinedVwap
open AlgoSystem.VwapHedge (DateTime Candle Tick)

variable {ticks : List Tick} {buffer : Buffer} {updating : Updating}

structure Traced where
  live : Live := {}
  done : List Tick := []
  slices : List (List Tick × List Tick) := []

def finished (s : Live) : LiveEvent → List Tick
  | .appendVolume =>
    match s.updating with
    | .ltpAppended tick => [tick]
    | _ => []
  | _ => []

def made (s : Live) : LiveEvent → List (List Tick × List Tick)
  | .appendCandle =>
    match s.flushing with
    | .hasRead _ ltpList volList => [(ltpList, volList)]
    | _ => []
  | _ => []

def Traced.step (s : Traced) (event : LiveEvent) : Option Traced :=
  (s.live.step event).map fun live =>
    ⟨live, s.done ++ finished s.live event, s.slices ++ made s.live event⟩

def Traced.used (s : Traced) : List Tick := (s.slices.map Prod.fst).flatten

def Exclusive (s : Traced) : LiveEvent → Prop
  | .appendMinute _ | .appendLtp | .appendVolume => s.live.flushing = .waiting
  | .read _ => s.live.updating = .idle
  | .appendCandle | .clear => True

instance (s : Traced) : (event : LiveEvent) → Decidable (Exclusive s event)
  | .appendMinute _ | .appendLtp | .appendVolume =>
    inferInstanceAs (Decidable (s.live.flushing = .waiting))
  | .read _ => inferInstanceAs (Decidable (s.live.updating = .idle))
  | .appendCandle | .clear => inferInstanceAs (Decidable True)

inductive Holds (ticks : List Tick) : Buffer → Updating → Prop where
  | idle : Holds ticks ⟨ticks, ticks, ticks⟩ .idle
  | minuteAppended (tick : Tick) :
      Holds ticks ⟨ticks ++ [tick], ticks, ticks⟩ (.minuteAppended tick)
  | ltpAppended (tick : Tick) :
      Holds ticks ⟨ticks ++ [tick], ticks ++ [tick], ticks⟩ (.ltpAppended tick)

theorem Holds.volume (holds : Holds ticks buffer updating) : buffer.volume = ticks := by
  cases holds <;> rfl

theorem slices_of_idle (holds : Holds ticks buffer .idle) :
    buffer.ltpList = ticks ∧ buffer.volList = ticks := by
  cases holds
  simp [Buffer.ltpList, Buffer.volList, Buffer.minLength]

inductive Progress (done used ticks : List Tick) : Flushing → Updating → Prop where
  | waiting {updating : Updating} (all : used ++ ticks = done) :
      Progress done used ticks .waiting updating
  | hasRead (dt : DateTime) (all : used ++ ticks = done) :
      Progress done used ticks (.hasRead dt ticks ticks) .idle
  | candleAppended (all : used = done) : Progress done used ticks .candleAppended .idle

structure Conserved (s : Traced) : Prop where
  same : ∀ slice ∈ s.slices, slice.1 = slice.2
  ticks : ∃ ticks, Holds ticks s.live.buffer s.live.updating ∧
    Progress s.done s.used ticks s.live.flushing s.live.updating

theorem Conserved.step {s t : Traced} {event : LiveEvent} (conserved : Conserved s)
    (exclusive : Exclusive s event) (stepped : s.step event = some t) : Conserved t := by
  obtain ⟨⟨buffer, ohlc, updating, flushing⟩, done, slices⟩ := s
  obtain ⟨same, ticks, holds, progress⟩ := conserved
  dsimp only at same holds progress
  cases event with
  | appendMinute tick =>
    cases (exclusive : flushing = .waiting)
    obtain ⟨all⟩ := progress
    cases holds with
    | idle =>
      cases stepped
      refine ⟨by simpa [made] using same, ticks, .minuteAppended tick, .waiting ?_⟩
      simpa [Traced.used, made, finished] using all
    | minuteAppended | ltpAppended => cases stepped
  | appendLtp =>
    cases (exclusive : flushing = .waiting)
    obtain ⟨all⟩ := progress
    cases holds with
    | minuteAppended tick =>
      cases stepped
      refine ⟨by simpa [made] using same, ticks, .ltpAppended tick, .waiting ?_⟩
      simpa [Traced.used, made, finished] using all
    | idle | ltpAppended => cases stepped
  | appendVolume =>
    cases (exclusive : flushing = .waiting)
    obtain ⟨all⟩ := progress
    cases holds with
    | ltpAppended tick =>
      cases stepped
      refine ⟨by simpa [made] using same, ticks ++ [tick], .idle, .waiting ?_⟩
      simp [Traced.used, made, finished, ← all]
    | idle | minuteAppended => cases stepped
  | read dt =>
    cases (exclusive : updating = .idle)
    obtain ⟨ltpSame, volSame⟩ := slices_of_idle holds
    cases progress with
    | waiting all =>
      simp only [Traced.step, Live.step] at stepped
      split at stepped
      · cases stepped
        refine ⟨by simpa [made] using same, ticks, holds, ?_⟩
        dsimp only
        rw [ltpSame, volSame]
        refine .hasRead dt ?_
        simpa [Traced.used, made, finished] using all
      · cases stepped
    | hasRead | candleAppended => cases stepped
  | appendCandle =>
    cases progress with
    | hasRead dt all =>
      cases stepped
      refine ⟨?_, ticks, holds, .candleAppended ?_⟩
      · simpa [made, or_imp, forall_and] using same
      · simpa [Traced.used, made, finished] using all
    | waiting | candleAppended => cases stepped
  | clear =>
    cases progress with
    | candleAppended all =>
      cases stepped
      refine ⟨by simpa [made] using same, [], .idle, .waiting ?_⟩
      simpa [Traced.used, made, finished] using all
    | waiting | hasRead => cases stepped

def firstTick : Tick := ⟨31, 100, 500⟩

def secondTick : Tick := ⟨32, 102, 520⟩

def flushTime (minute : Nat) : DateTime := ⟨10, minute, 59, 800000⟩

def updates (tick : Tick) : List LiveEvent := [.appendMinute tick, .appendLtp, .appendVolume]

def flush (minute : Nat) : List LiveEvent := [.read (flushTime minute), .appendCandle, .clear]

def inTurn : List LiveEvent := updates firstTick ++ flush 31 ++ updates secondTick ++ flush 32

end AlgoSystem.Proof.CombinedVwap.LiveCandles

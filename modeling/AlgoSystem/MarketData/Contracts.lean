import AlgoSystem.General.Dict
import AlgoSystem.MarketData.Instruments

/-!
The table `option_contracts` and `_ensure_contract_ids` of `trading/market_data/service.py`, which
keeps a map from symbols to its ids in memory. The database chooses the ids, and any flush or commit
may fail.
-/

namespace AlgoSystem.MarketData
open General

structure OptionContract where
  id : Nat
  underlying : String
  exchange : Exchange
  provider : String
  providerToken : Option String
  symbol : String
  expiry : Int
  strike : ℚ
  optionType : OptionType
  deriving DecidableEq

def OptionContract.naturalKey (row : OptionContract) : String × Exchange × Int × ℚ × OptionType :=
  (row.underlying, row.exchange, row.expiry, row.strike, row.optionType)

/-- The primary key and the three unique constraints; null tokens do not clash. -/
def OptionContract.Clash (a b : OptionContract) : Prop :=
  a.id = b.id ∨ a.symbol = b.symbol ∨
    (a.provider = b.provider ∧ a.providerToken = b.providerToken ∧ a.providerToken ≠ none) ∨
    a.naturalKey = b.naturalKey

instance (a b : OptionContract) : Decidable (a.Clash b) := inferInstanceAs (Decidable (_ ∨ _))

structure ContractTable where
  rows : List OptionContract
  distinct : rows.Pairwise fun a b => ¬ a.Clash b

namespace ContractTable

def empty : ContractTable := ⟨[], .nil⟩

def insert (table : ContractTable) (row : OptionContract) : Option ContractTable :=
  if fresh : ∀ other ∈ table.rows, ¬ other.Clash row then
    some ⟨table.rows ++ [row], by
      refine List.pairwise_append.mpr ⟨table.distinct, List.pairwise_singleton _ _, ?_⟩
      intro other mem new isNew
      exact List.mem_singleton.mp isNew ▸ fresh other mem⟩
  else none

def idOf (table : ContractTable) (symbol : String) : Option Nat :=
  (table.rows.find? fun row => row.symbol = symbol).map OptionContract.id

end ContractTable

structure Listing extends Contract where
  provider : Option String := none

def newContract (id : Nat) (inst : Listing) : OptionContract where
  id
  underlying := inst.underlying
  exchange := inst.exchange
  provider := (inst.provider.filter (· ≠ "")).getD "icici_breeze"
  providerToken := inst.providerToken
  symbol := inst.internalSymbol
  expiry := inst.expiry
  strike := inst.strike
  optionType := inst.optionType

structure Registry where
  table : ContractTable
  contractIds : Dict String Nat

structure EnsureCall where
  insts : List Listing
  reads : Bool := true
  /-- The ids of the rows that are flushed; the flush that follows the last of them fails. -/
  ids : List Nat
  commits : Bool := true

def ensureRows (existing : ContractTable) :
    (ids : List Nat) → Registry → List Listing → Registry × Bool
  | _, work, [] => (work, true)
  | ids, work, inst :: insts =>
    match existing.idOf inst.internalSymbol with
    | some id =>
      ensureRows existing ids
        { work with contractIds := work.contractIds.set inst.internalSymbol id } insts
    | none =>
      if (work.contractIds.get? inst.internalSymbol).isSome then
        ensureRows existing ids work insts
      else match ids with
        | [] => (work, false)
        | id :: ids =>
          match work.table.insert (newContract id inst) with
          | none => (work, false)
          | some table =>
            ensureRows existing ids
              { table, contractIds := work.contractIds.set inst.internalSymbol id } insts

/-- The state after the call, and whether it came to its end. A rollback takes the rows of the call
out of the table; the map in memory stays. -/
def ensureContractIds (registry : Registry) (call : EnsureCall) : Registry × Bool :=
  if call.insts.isEmpty then (registry, true)
  else if !call.reads then (registry, false)
  else
    let (work, flushed) := ensureRows registry.table call.ids registry call.insts
    if flushed && call.commits then (work, true)
    else ({ work with table := registry.table }, false)

end AlgoSystem.MarketData

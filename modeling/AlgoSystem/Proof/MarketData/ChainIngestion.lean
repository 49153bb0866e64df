import AlgoSystem.MarketData.ChainSnapshots
import AlgoSystem.Proof.MarketData.ContractIds
import AlgoSystem.Proof.MarketData.Durability

namespace AlgoSystem.Proof.MarketData.ChainIngestion
open General AlgoSystem.MarketData Proof.MarketData List

variable {table' : ContractTable} {new : List OptionContract} {session' : SnapshotSession}

def terms (row : OptionContract) : String × Int × ℚ × OptionType :=
  (row.underlying, row.expiry, row.strike, row.optionType)

def sideTerms (chain : OptionChain) (side : QuotedSide) : String × Int × ℚ × OptionType :=
  (chain.underlying, chain.expiry, side.strike, side.optionType)

structure Consistent (db : OptionDb) : Prop where
  keys : (db.candles.map OptionCandle.key).Nodup
  owned : ∀ row ∈ db.candles, ∃ contract ∈ db.contracts.rows, (contract.id : Int) = row.contractId
  bars : ∀ row ∈ db.candles, row.IsBar

structure Ingested (chain : OptionChain) (db after : OptionDb) : Prop where
  contracts : ∃ new, after.contracts.rows = db.contracts.rows ++ new ∧ (new.map terms).Nodup ∧
    ∀ row ∈ new, terms row ∉ db.contracts.rows.map terms
  bars : ∀ row ∈ after.candles, row.IsBar
  again : ∀ ids, persistOptionChainSnapshot ids chain after = some (after, 0)

def Ingests (db : OptionDb) : OptionEvent → Prop
  | .snapshot ids chain => ∃ after written,
      persistOptionChainSnapshot ids chain db = some (after, written) ∧ Ingested chain db after
  | .aggregated _ | .listed _ _ => True

structure SnapshotIngestible (chain : OptionChain) (db : OptionDb) : Prop where
  distinct : (chain.sides.map (sideTerms chain)).Nodup
  /-- No row stands for a contract that is not found on NFO, and none has its symbol. -/
  unlisted : ∀ side ∈ chain.sides, findContract chain db.contracts side = none →
    ∀ row ∈ db.contracts.rows, row.symbol ≠ side.quote.symbol ∧ terms row ≠ sideTerms chain side
  symbols : ((chain.sides.filter fun side => (findContract chain db.contracts side).isNone).map
    fun side => side.quote.symbol).Nodup
  within : ∀ side ∈ chain.sides, ∀ contract, findContract chain db.contracts side = some contract →
    ∀ row ∈ db.candles, row.key = ((contract.id : Int), chain.generatedAt) →
      ∀ price, side.quote.ltp = some price → row.low ≤ price ∧ price ≤ row.high

def Ingestible (db : OptionDb) : OptionEvent → Prop
  | .snapshot _ chain => SnapshotIngestible chain db
  | .aggregated _ | .listed _ _ => True

section Contracts
variable {chain : OptionChain} {side : QuotedSide}

variable {table : ContractTable} {row : OptionContract}

theorem terms_of_naturalKey
    (key : row.naturalKey = (chain.underlying, .nfo, chain.expiry, side.strike, side.optionType)) :
    terms row = sideTerms chain side := by
  simp only [OptionContract.naturalKey, Prod.mk.injEq] at key
  obtain ⟨underlying, -, expiry, strike, optionType⟩ := key
  rw [terms, sideTerms, underlying, expiry, strike, optionType]

theorem findContract_eq_some (found : findContract chain table side = some row) :
    row ∈ table.rows ∧
      row.naturalKey = (chain.underlying, .nfo, chain.expiry, side.strike, side.optionType) := by
  have key := find?_some found
  exact ⟨mem_of_find?_eq_some found, of_decide_eq_true key⟩

theorem terms_of_found (found : findContract chain table side = some row) :
    terms row = sideTerms chain side :=
  terms_of_naturalKey (findContract_eq_some found).2

theorem eq_of_id {a b : OptionContract} (left : a ∈ table.rows) (right : b ∈ table.rows)
    (same : a.id = b.id) : a = b := by
  have ids : (table.rows.map OptionContract.id).Nodup :=
    pairwise_map.mpr (table.distinct.imp fun apart same => apart (.inl same))
  exact inj_on_of_nodup_map ids left right same

theorem findContract_grown (grown : table'.rows = table.rows ++ new)
    (found : findContract chain table side = some row) :
    findContract chain table' side = some row := by
  rw [findContract] at found
  rw [findContract, grown, find?_append, found, Option.some_or]

theorem findContract_of_grown (grown : table'.rows = table.rows ++ new)
    (others : ∀ row ∈ new, terms row ≠ sideTerms chain side) :
    findContract chain table' side = findContract chain table side := by
  have absent : new.find? (fun row => row.naturalKey =
      (chain.underlying, .nfo, chain.expiry, side.strike, side.optionType)) = none := by
    rw [find?_eq_none]
    intro row mem key
    exact others row mem (terms_of_naturalKey (of_decide_eq_true key))
  rw [findContract, grown, find?_append, absent, Option.or_none, findContract]

end Contracts

def allCandles (session : SnapshotSession) : List (OptionCandle ℚ) :=
  session.candles ++ session.pending

/-- What a flush and a commit would leave. -/
def committed (session : SnapshotSession) : OptionDb := ⟨session.contracts, allCandles session⟩

def Reflects (chain : OptionChain) (db : OptionDb) (side : QuotedSide) : Prop :=
  ∃ contract, findContract chain db.contracts side = some contract ∧
    ∃ row ∈ db.candles, row.key = ((contract.id : Int), chain.generatedAt) ∧
      side.quote.overwrite row = row

def Recorded (chain : OptionChain) (done : List QuotedSide) (session : SnapshotSession)
    (contractId : Int) : Prop :=
  ∃ side ∈ done, ∃ contract, findContract chain session.contracts side = some contract ∧
    (contract.id : Int) = contractId

theorem Recorded.mono {chain : OptionChain} {done done' : List QuotedSide}
    {session : SnapshotSession} {contractId : Int}
    (recorded : Recorded chain done session contractId) (more : done ⊆ done')
    (grown : session'.contracts.rows = session.contracts.rows ++ new) :
    Recorded chain done' session' contractId := by
  obtain ⟨side, mem, contract, found, same⟩ := recorded
  exact ⟨side, more mem, contract, findContract_grown grown found, same⟩

structure Ingesting (chain : OptionChain) (db : OptionDb) (listed done : List QuotedSide)
    (session : SnapshotSession) : Prop where
  rows : ∃ new, session.contracts.rows = db.contracts.rows ++ new ∧
    new.map (fun row => (terms row, row.symbol)) =
      (listed.filter fun side => (findContract chain db.contracts side).isNone).map fun side =>
        (sideTerms chain side, side.quote.symbol)
  consistent : Consistent (committed session)
  reflects : ∀ side ∈ done, Reflects chain (committed session) side
  old : ∀ row ∈ session.candles, row ∈ db.candles ∨ Recorded chain done session row.contractId
  fresh : ∀ row ∈ session.pending, Recorded chain done session row.contractId

section Side
variable {chain : OptionChain} {db : OptionDb} {done todo : List QuotedSide} {side : QuotedSide}
  {session : SnapshotSession}

theorem flush_of_keys (session : SnapshotSession)
    (keys : ((allCandles session).map OptionCandle.key).Nodup) :
    session.flush = some { session with candles := allCandles session, pending := [] } := by
  rw [SnapshotSession.flush]
  exact if_pos keys

structure LookedUp (chain : OptionChain) (db : OptionDb) (side : QuotedSide)
    (session : SnapshotSession) (contract : OptionContract) : Prop where
  found : findContract chain session.contracts side = some contract
  untouched : ∀ row ∈ allCandles session, row.contractId = contract.id →
    row ∈ session.candles ∧ row ∈ db.candles ∧ findContract chain db.contracts side = some contract

theorem terms_of_done (distinct : (chain.sides.map (sideTerms chain)).Nodup)
    (order : chain.sides = done ++ side :: todo) {other : QuotedSide} (mem : other ∈ done) :
    sideTerms chain other ≠ sideTerms chain side := by
  rw [order, map_append, map_cons, nodup_append'] at distinct
  intro same
  refine distinct.2.2 (mem_map_of_mem mem) ?_
  rw [same]
  exact mem_cons_self

section
variable (ingestible : SnapshotIngestible chain db) (order : chain.sides = done ++ side :: todo)
  (ingesting : Ingesting chain db done done session)
include ingestible order ingesting

theorem findContract_session :
    findContract chain session.contracts side = findContract chain db.contracts side := by
  obtain ⟨new, grown, rows⟩ := ingesting.rows
  refine findContract_of_grown grown ?_
  intro row mem
  have member := mem_map_of_mem (f := fun row => (terms row, row.symbol)) mem
  rw [rows] at member
  obtain ⟨other, known, same⟩ := mem_map.mp member
  rw [← (Prod.mk.inj same).1]
  exact terms_of_done ingestible.distinct order (mem_of_mem_filter known)

variable {contract : OptionContract}

omit ingesting in
theorem contract_of_recorded
    (found : findContract chain session.contracts side = some contract) :
    ¬ Recorded chain done session contract.id := by
  rintro ⟨other, mem, contract', found', same⟩
  have equal := eq_of_id (findContract_eq_some found').1 (findContract_eq_some found).1
    (Int.ofNat.inj same)
  refine terms_of_done ingestible.distinct order mem ?_
  rw [← terms_of_found found', equal, terms_of_found found]

theorem insert_snapshotContract (ids : IdSource)
    (missing : findContract chain session.contracts side = none) :
    ∃ table, session.contracts.insert
        (snapshotContract chain (ids.next session.contracts) side) = some table ∧
      table.rows = session.contracts.rows ++
        [snapshotContract chain (ids.next session.contracts) side] := by
  have unknown := (findContract_session ingestible order ingesting).symm.trans missing
  have isSide : side ∈ chain.sides := by
    rw [order]
    simp
  obtain ⟨new, grown, rows⟩ := ingesting.rows
  have symbols := ingestible.symbols
  rw [order, filter_append, filter_cons_of_pos (by rw [unknown]; rfl), map_append,
    map_cons, nodup_append'] at symbols
  have free : ∀ other ∈ session.contracts.rows,
      ¬ other.Clash (snapshotContract chain (ids.next session.contracts) side) := by
    intro other mem clash
    obtain id | symbol | ⟨-, token, some_token⟩ | key := clash
    · exact ids.fresh _ other mem id
    · rw [grown, mem_append] at mem
      obtain before | created := mem
      · exact (ingestible.unlisted side isSide unknown other before).1 symbol
      · have member := mem_map_of_mem (f := fun row => (terms row, row.symbol)) created
        rw [rows] at member
        obtain ⟨earlier, known, same⟩ := mem_map.mp member
        refine symbols.2.2 (mem_map_of_mem known) ?_
        rw [(Prod.mk.inj same).2, symbol]
        exact mem_cons_self
    · exact some_token token
    · rw [findContract, find?_eq_none] at missing
      exact missing other mem (decide_eq_true key)
  refine ⟨_, by rw [ContractTable.insert, dif_pos free], rfl⟩

theorem lookedUp_of_found (found : findContract chain session.contracts side = some contract) :
    LookedUp chain db side session contract := by
  refine ⟨found, ?_⟩
  intro row mem own
  have notRecorded : ¬ Recorded chain done session row.contractId := by
    rw [own]
    exact contract_of_recorded ingestible order found
  obtain flushed | pending := mem_append.mp mem
  · refine ⟨flushed, (ingesting.old row flushed).resolve_right notRecorded, ?_⟩
    rw [← findContract_session ingestible order ingesting, found]
  · exact absurd (ingesting.fresh row pending) notRecorded

def flushed (session : SnapshotSession) (table : ContractTable) : SnapshotSession :=
  { session with contracts := table, candles := allCandles session, pending := [] }

omit ingestible order ingesting in
theorem committed_flushed (session : SnapshotSession) (table : ContractTable) :
    committed (flushed session table) = ⟨table, allCandles session⟩ := by
  simp [committed, flushed, allCandles]

omit ingestible order in
theorem flushed_ingesting {table : ContractTable}
    (added : table.rows = session.contracts.rows ++ [contract])
    (missing : findContract chain db.contracts side = none)
    (isTerms : terms contract = sideTerms chain side)
    (isSymbol : contract.symbol = side.quote.symbol) :
    Ingesting chain db (done ++ [side]) done (flushed session table) := by
  have lift : ∀ contractId, Recorded chain done session contractId →
      Recorded chain done (flushed session table) contractId :=
    fun _ recorded => recorded.mono (List.Subset.refl _) added
  obtain ⟨new, grown, rows⟩ := ingesting.rows
  refine ⟨⟨new ++ [contract], ?_, ?_⟩, ?_, ?_, ?_, by simp [flushed]⟩
  · rw [flushed, added, grown, List.append_assoc]
  · rw [map_append, rows, filter_append, map_append,
      filter_cons_of_pos (by rw [missing]; rfl), map_singleton, isTerms, isSymbol]
    rfl
  · rw [committed_flushed]
    refine { ingesting.consistent with owned := fun row mem => ?_ }
    obtain ⟨owner, member, eq⟩ := ingesting.consistent.owned row mem
    exact ⟨owner, added ▸ mem_append_left _ member, eq⟩
  · intro other mem
    rw [committed_flushed]
    obtain ⟨owner, known, reflects⟩ := ingesting.reflects other mem
    exact ⟨owner, findContract_grown added known, reflects⟩
  · intro row mem
    obtain stored | pending := mem_append.mp mem
    · exact (ingesting.old row stored).imp_right (lift _)
    · exact .inr (lift _ (ingesting.fresh row pending))

theorem contractFor_spec (ids : IdSource) :
    ∃ contract session', session.contractFor ids chain side = some (contract.id, session') ∧
      Ingesting chain db (done ++ [side]) done session' ∧
      LookedUp chain db side session' contract := by
  have same := findContract_session ingestible order ingesting
  cases found : findContract chain session.contracts side with
  | some contract =>
    obtain ⟨new, grown, rows⟩ := ingesting.rows
    refine ⟨contract, session, ?_, ?_, lookedUp_of_found ingestible order ingesting found⟩
    · simp only [SnapshotSession.contractFor, found]
    · refine { ingesting with rows := ⟨new, grown, ?_⟩ }
      rw [rows, filter_append, filter_cons_of_neg (by simp [← same, found]),
        filter_nil, append_nil]
  | none =>
    obtain ⟨table, inserted, added⟩ :=
      insert_snapshotContract ingestible order ingesting ids found
    have missing : findContract chain db.contracts side = none := by rw [← same, found]
    refine ⟨snapshotContract chain (ids.next session.contracts) side, flushed session table, ?_,
      flushed_ingesting ingesting added missing rfl rfl, ?_, ?_⟩
    · simp only [SnapshotSession.contractFor, found, inserted, Option.bind_eq_bind,
        Option.bind_some]
      rw [flush_of_keys { session with contracts := table } ingesting.consistent.keys]
      rfl
    · rw [findContract] at found
      rw [findContract, flushed, added, find?_append, found, Option.none_or]
      exact find?_cons_of_pos (decide_eq_true rfl)
    · -- the id is new, so no candle is of this contract
      intro row mem own
      obtain ⟨owner, member, eq⟩ := ingesting.consistent.owned row
        (by simpa [flushed, allCandles, committed] using mem)
      exact absurd (Int.ofNat.inj (eq.trans own)) (ids.fresh _ owner member)

end

variable {contract : OptionContract}

theorem overwrite_overwrite (quote : OptionQuote) (row : OptionCandle ℚ) :
    quote.overwrite (quote.overwrite row) = quote.overwrite row := by
  cases ltp : quote.ltp <;> cases oi : quote.oi <;> cases volume : quote.volume <;>
    simp [OptionQuote.overwrite, ltp, oi, volume]

theorem overwrite_candle (quote : OptionQuote) (contractId timestamp : Int) :
    quote.overwrite (quote.candle contractId timestamp) = quote.candle contractId timestamp := by
  cases ltp : quote.ltp <;> simp [OptionQuote.overwrite, OptionQuote.candle, ltp]

theorem overwrite_isBar {quote : OptionQuote} {row : OptionCandle ℚ} (bar : row.IsBar)
    (within : ∀ price, quote.ltp = some price → row.low ≤ price ∧ price ≤ row.high) :
    (quote.overwrite row).IsBar := by
  refine ⟨bar.1, ?_⟩
  cases ltp : quote.ltp with
  | none => simpa [OptionQuote.overwrite, ltp] using bar.2
  | some price => simpa [OptionQuote.overwrite, ltp] using within price ltp

theorem candle_isBar (quote : OptionQuote) (contractId timestamp : Int) :
    (quote.candle contractId timestamp).IsBar :=
  ⟨⟨le_rfl, le_rfl⟩, le_rfl, le_rfl⟩

def writtenAt (key : Int × Int) (quote : OptionQuote) (row : OptionCandle ℚ) : OptionCandle ℚ :=
  if row.key = key then quote.overwrite row else row

def overwritten (key : Int × Int) (quote : OptionQuote) (session : SnapshotSession) :
    SnapshotSession :=
  { session with candles := session.candles.map (writtenAt key quote) }

theorem writtenAt_key (key : Int × Int) (quote : OptionQuote) (row : OptionCandle ℚ) :
    (writtenAt key quote row).key = row.key := by
  unfold writtenAt
  split <;> rfl

structure Written (chain : OptionChain) (side : QuotedSide) (contract : OptionContract)
    (row : OptionCandle ℚ) : Prop where
  key : row.key = ((contract.id : Int), chain.generatedAt)
  bar : row.IsBar
  reflects : side.quote.overwrite row = row

section
variable (ingestible : SnapshotIngestible chain db) (order : chain.sides = done ++ side :: todo)
  (ingesting : Ingesting chain db (done ++ [side]) done session)
include ingestible order ingesting

theorem Ingesting.write (found : findContract chain session.contracts side = some contract)
    (contracts : session'.contracts = session.contracts)
    (keys : ((allCandles session').map OptionCandle.key).Nodup)
    (candles : ∀ row ∈ session'.candles, row ∈ session.candles ∨ Written chain side contract row)
    (pending : ∀ row ∈ session'.pending, row ∈ session.pending ∨ Written chain side contract row)
    (kept : ∀ row ∈ allCandles session, row.key ≠ ((contract.id : Int), chain.generatedAt) →
      row ∈ allCandles session')
    (present : ∃ row ∈ allCandles session', Written chain side contract row) :
    Ingesting chain db (done ++ [side]) (done ++ [side]) session' := by
  have lift : ∀ contractId, Recorded chain done session contractId →
      Recorded chain (done ++ [side]) session' contractId :=
    fun _ recorded => recorded.mono (subset_append_left _ _) (by rw [contracts, append_nil])
  rw [← contracts] at found
  have own : ∀ row, Written chain side contract row →
      Recorded chain (done ++ [side]) session' row.contractId :=
    fun row written => ⟨side, by simp, contract, found, (Prod.mk.inj written.key).1.symm⟩
  have source : ∀ row ∈ allCandles session', row ∈ allCandles session ∨
      Written chain side contract row := by
    intro row mem
    obtain flushed | waiting := mem_append.mp mem
    · exact (candles row flushed).imp_left (mem_append_left _)
    · exact (pending row waiting).imp_left (mem_append_right _)
  refine ⟨contracts ▸ ingesting.rows, ⟨keys, ?_, ?_⟩, ?_, ?_, ?_⟩
  · intro row mem
    obtain before | written := source row mem
    · simpa only [committed, contracts] using ingesting.consistent.owned row before
    · exact ⟨contract, (findContract_eq_some found).1, (Prod.mk.inj written.key).1.symm⟩
  · intro row mem
    obtain before | written := source row mem
    · exact ingesting.consistent.bars row before
    · exact written.bar
  · intro other mem
    obtain before | isSide := mem_append.mp mem
    · obtain ⟨owner, known, row, stored, rowKey, reflects⟩ := ingesting.reflects other before
      refine ⟨owner, ?_, row, kept row stored fun same => ?_, rowKey, reflects⟩
      · simpa only [committed, contracts] using known
      refine contract_of_recorded ingestible order (contracts ▸ found)
        ⟨other, before, owner, known, ?_⟩
      exact (Prod.mk.inj (rowKey.symm.trans same)).1
    · obtain ⟨row, stored, written⟩ := present
      rw [mem_singleton.mp isSide]
      exact ⟨contract, found, row, stored, written.key, written.reflects⟩
  · intro row mem
    obtain before | written := candles row mem
    · exact (ingesting.old row before).imp_right (lift _)
    · exact .inr (own row written)
  · intro row mem
    obtain before | written := pending row mem
    · exact lift _ (ingesting.fresh row before)
    · exact own row written

theorem record_existing (lookedUp : LookedUp chain db side session contract)
    (exists_ : ((contract.id : Int), chain.generatedAt) ∈ session.candles.map OptionCandle.key) :
    Ingesting chain db (done ++ [side]) (done ++ [side])
      (overwritten ((contract.id : Int), chain.generatedAt) side.quote session) := by
  have keys : (allCandles (overwritten ((contract.id : Int), chain.generatedAt) side.quote
      session)).map OptionCandle.key = (allCandles session).map OptionCandle.key := by
    simp [allCandles, overwritten, Function.comp_def, writtenAt_key]
  have written : ∀ row ∈ session.candles, row.key = ((contract.id : Int), chain.generatedAt) →
      Written chain side contract (side.quote.overwrite row) := by
    intro row stored same
    have mem := mem_append_left session.pending stored
    obtain ⟨-, before, known⟩ := lookedUp.untouched row mem (Prod.mk.inj same).1
    refine ⟨same, overwrite_isBar (ingesting.consistent.bars row mem) ?_, overwrite_overwrite _ _⟩
    exact ingestible.within side (by rw [order]; simp) contract known row before same
  refine ingesting.write ingestible order lookedUp.found rfl (keys ▸ ingesting.consistent.keys) ?_
    (fun _ => .inl) ?_ ?_
  · intro row mem
    obtain ⟨before, stored, rfl⟩ := mem_map.mp mem
    unfold writtenAt
    split
    next same => exact .inr (written before stored same)
    · exact .inl stored
  · intro row mem different
    obtain flushed | waiting := mem_append.mp mem
    · exact mem_append_left _ (mem_map.mpr ⟨row, flushed, if_neg different⟩)
    · exact mem_append_right _ waiting
  · obtain ⟨row, stored, same⟩ := mem_map.mp exists_
    refine ⟨_, mem_append_left _ (mem_map.mpr ⟨row, stored, if_pos same⟩), written row stored same⟩

theorem record_new (lookedUp : LookedUp chain db side session contract)
    (absent : ((contract.id : Int), chain.generatedAt) ∉ session.candles.map OptionCandle.key) :
    Ingesting chain db (done ++ [side]) (done ++ [side])
      { session with
        pending := session.pending ++ [side.quote.candle contract.id chain.generatedAt]
        written := session.written + 1 } := by
  have all : session.candles ++ (session.pending ++
      [side.quote.candle contract.id chain.generatedAt]) =
        allCandles session ++ [side.quote.candle contract.id chain.generatedAt] :=
    (List.append_assoc _ _ _).symm
  have written : Written chain side contract
      (side.quote.candle contract.id chain.generatedAt) :=
    ⟨rfl, candle_isBar _ _ _, overwrite_candle _ _ _⟩
  refine ingesting.write ingestible order lookedUp.found rfl ?_ (fun _ => .inl) ?_ ?_ ?_
  · rw [allCandles, all]
    refine nodup_map_concat ingesting.consistent.keys ?_
    intro row mem same
    obtain ⟨flushed, -⟩ := lookedUp.untouched row mem (Prod.mk.inj same).1
    exact absent (mem_map.mpr ⟨row, flushed, same⟩)
  · intro row mem
    obtain before | isNew := mem_append.mp mem
    · exact .inl before
    · rw [mem_singleton.mp isNew]
      exact .inr written
  · intro row mem _
    rw [allCandles, all]
    exact mem_append_left _ mem
  · exact ⟨_, by simp [allCandles], written⟩

end

theorem any_key {rows : List (OptionCandle ℚ)} {key : Int × Int} :
    (rows.any fun row => row.key = key) = true ↔ key ∈ rows.map OptionCandle.key := by
  simp

theorem ingestSide_spec (ids : IdSource) (ingestible : SnapshotIngestible chain db)
    (order : chain.sides = done ++ side :: todo) (ingesting : Ingesting chain db done done session) :
    ∃ session', ingestSide ids chain session side = some session' ∧
      Ingesting chain db (done ++ [side]) (done ++ [side]) session' := by
  obtain ⟨contract, looked, found, ingesting, lookedUp⟩ :=
    contractFor_spec ingestible order ingesting ids
  refine ⟨looked.record chain contract.id side.quote, by rw [ingestSide, found]; rfl, ?_⟩
  simp only [SnapshotSession.record, any_key]
  split
  next present => exact record_existing ingestible order ingesting lookedUp present
  next absent => exact record_new ingestible order ingesting lookedUp absent

theorem ingestSides_spec (ids : IdSource) (ingestible : SnapshotIngestible chain db)
    (order : chain.sides = done ++ todo) (ingesting : Ingesting chain db done done session) :
    ∃ session', run (ingestSide ids chain) session todo = some session' ∧
      Ingesting chain db chain.sides chain.sides session' := by
  induction todo generalizing done session with
  | nil =>
    rw [append_nil] at order
    exact ⟨session, rfl, order ▸ ingesting⟩
  | cons side todo ih =>
    obtain ⟨next, first, ingesting⟩ := ingestSide_spec ids ingestible order ingesting
    obtain ⟨last, path, ingesting⟩ := ih (by rw [order]; simp) ingesting
    exact ⟨last, run_cons_eq_some.mpr ⟨next, first, path⟩, ingesting⟩

end Side

section Calls
variable {chain : OptionChain} {db : OptionDb}

theorem ingestSide_of_reflects (ids : IdSource) (keys : (db.candles.map OptionCandle.key).Nodup)
    {side : QuotedSide} (reflects : Reflects chain db side) :
    ingestSide ids chain ⟨db.contracts, db.candles, [], 0⟩ side =
      some ⟨db.contracts, db.candles, [], 0⟩ := by
  obtain ⟨contract, found, row, stored, rowKey, same⟩ := reflects
  have present : ((contract.id : Int), chain.generatedAt) ∈ db.candles.map OptionCandle.key :=
    mem_map.mpr ⟨row, stored, rowKey⟩
  have unchanged : db.candles.map
      (writtenAt ((contract.id : Int), chain.generatedAt) side.quote) = db.candles := by
    have fixed : ∀ other ∈ db.candles,
        writtenAt ((contract.id : Int), chain.generatedAt) side.quote other = other := by
      intro other mem
      unfold writtenAt
      split
      next isKey =>
        rw [inj_on_of_nodup_map keys mem stored (isKey.trans rowKey.symm), same]
      · rfl
    rw [map_congr_left fixed, map_id']
  simp only [ingestSide, SnapshotSession.contractFor, found, Option.map_some,
    SnapshotSession.record, any_key, present, if_true]
  exact congrArg (fun candles => some (SnapshotSession.mk db.contracts candles [] 0)) unchanged

theorem persist_again (ids : IdSource) (keys : (db.candles.map OptionCandle.key).Nodup)
    (reflects : ∀ side ∈ chain.sides, Reflects chain db side) :
    persistOptionChainSnapshot ids chain db = some (db, 0) := by
  have path : ∀ sides : List QuotedSide, (∀ side ∈ sides, Reflects chain db side) →
      run (ingestSide ids chain) ⟨db.contracts, db.candles, [], 0⟩ sides =
        some ⟨db.contracts, db.candles, [], 0⟩ := by
    intro sides reflects
    induction sides with
    | nil => rfl
    | cons side sides ih =>
      refine run_cons_eq_some.mpr ⟨_, ingestSide_of_reflects ids keys (reflects side (by simp)), ?_⟩
      exact ih fun other mem => reflects other (mem_cons_of_mem _ mem)
  have all : allCandles ⟨db.contracts, db.candles, [], 0⟩ = db.candles := append_nil _
  rw [persistOptionChainSnapshot, path _ reflects]
  simp only [Option.bind_eq_bind, Option.bind_some]
  rw [flush_of_keys _ (by rwa [all]), all]
  rfl

theorem new_contracts {session : SnapshotSession} (ingestible : SnapshotIngestible chain db)
    (ingesting : Ingesting chain db chain.sides chain.sides session) :
    ∃ new, session.contracts.rows = db.contracts.rows ++ new ∧ (new.map terms).Nodup ∧
      ∀ row ∈ new, terms row ∉ db.contracts.rows.map terms := by
  obtain ⟨new, grown, rows⟩ := ingesting.rows
  have newTerms : new.map terms = (chain.sides.filter fun side =>
      (findContract chain db.contracts side).isNone).map (sideTerms chain) := by
    have firsts := congrArg (List.map Prod.fst) rows
    rwa [map_map, map_map] at firsts
  refine ⟨new, grown, ?_, ?_⟩
  · rw [newTerms]
    exact ingestible.distinct.sublist (filter_sublist.map _)
  · intro row mem taken
    have member := mem_map_of_mem (f := terms) mem
    rw [newTerms] at member
    obtain ⟨side, isNew, same⟩ := mem_map.mp member
    obtain ⟨isSide, missing⟩ := mem_filter.mp isNew
    obtain ⟨other, before, equal⟩ := mem_map.mp taken
    refine (ingestible.unlisted side isSide (Option.isNone_iff_eq_none.mp missing) other
      before).2 ?_
    rw [equal, same]

theorem persist_spec (ids : IdSource) (consistent : Consistent db)
    (ingestible : SnapshotIngestible chain db) :
    ∃ after written, persistOptionChainSnapshot ids chain db = some (after, written) ∧
      Ingested chain db after ∧ Consistent after := by
  have start : Ingesting chain db [] [] ⟨db.contracts, db.candles, [], 0⟩ := by
    refine ⟨⟨[], (append_nil _).symm, rfl⟩, ?_, by simp, fun _ => .inl, by simp⟩
    simpa [committed, allCandles] using consistent
  obtain ⟨session, path, ingesting⟩ := ingestSides_spec ids ingestible (nil_append _).symm start
  have sound := ingesting.consistent
  refine ⟨committed session, session.written, ?_, ⟨?_, sound.bars, ?_⟩, sound⟩
  · rw [persistOptionChainSnapshot, path]
    simp only [Option.bind_eq_bind, Option.bind_some]
    rw [flush_of_keys _ sound.keys]
    rfl
  · exact new_contracts ingestible ingesting
  · intro ids'
    exact persist_again ids' sound.keys ingesting.reflects

end Calls

theorem aggregated_consistent {db : OptionDb} (consistent : Consistent db)
    (items : List { item : Int × Candle ℚ // (optionRow item).IsBar }) :
    let contracts := db.contracts.rows.map fun row => (row.id : Int)
    Consistent { db with
      candles := persistOptionCandles contracts db.candles (items.map Subtype.val) } := by
  intro contracts
  have added := Durability.persistOptionCandles_admitted contracts db.candles
    (items.map Subtype.val)
  refine ⟨added.nodup consistent.keys, ?_, ?_⟩
  · intro row mem
    obtain before | ⟨-, admitted⟩ := added.origin row mem
    · exact consistent.owned row before
    · exact mem_map.mp (contains_iff_mem.mp admitted)
  · intro row mem
    obtain before | ⟨new, -⟩ := added.origin row mem
    · exact consistent.bars row before
    · obtain ⟨item, member, rfl⟩ := mem_map.mp new
      obtain ⟨valid, -, rfl⟩ := mem_map.mp member
      exact valid.property

theorem step_consistent (db : OptionDb) (event : OptionEvent) (after : OptionDb)
    (consistent : Consistent db) (ingestible : Ingestible db event)
    (stepped : db.step event = some after) : Consistent after := by
  cases event with
  | snapshot ids chain =>
    obtain ⟨stored, written, persisted, -, valid⟩ := persist_spec ids consistent ingestible
    simp only [OptionDb.step, persisted, Option.some.injEq] at stepped
    exact stepped ▸ valid
  | aggregated items =>
    cases stepped
    exact aggregated_consistent consistent items
  | listed id inst =>
    obtain ⟨table, inserted, rfl⟩ := Option.map_eq_some_iff.mp stepped
    refine ⟨consistent.keys, ?_, consistent.bars⟩
    intro row mem
    obtain ⟨owner, member, same⟩ := consistent.owned row mem
    exact ⟨owner, ContractIds.insert_eq_some inserted ▸ mem_append_left _ member, same⟩

theorem ingests_of_ingestible (db : OptionDb) (event : OptionEvent) (consistent : Consistent db)
    (ingestible : Ingestible db event) : Ingests db event := by
  cases event with
  | snapshot ids chain =>
    obtain ⟨after, written, persisted, ingested, -⟩ := persist_spec ids consistent ingestible
    exact ⟨after, written, persisted, ingested⟩
  | aggregated items | listed id inst => trivial

/-- Every snapshot call of a run is good, and the tables stay consistent, if every snapshot is
ingestible when it is called. -/
theorem meets_ingests (start : OptionDb) (consistent : Consistent start) {events : List OptionEvent}
    (ingestible : Meets OptionDb.step Ingestible start events) :
    Meets OptionDb.step Ingests start events ∧
      ∀ last, run OptionDb.step start events = some last → Consistent last := by
  refine ⟨meets_of_invariant step_consistent ingests_of_ingestible consistent ingestible, ?_⟩
  intro last path
  exact run_invariant_of_meets step_consistent path ingestible consistent

section Cases

def lastId (table : ContractTable) : Nat :=
  table.rows.foldr (fun row largest => if row.id ≤ largest then largest else row.id) 0

def successorIds : IdSource where
  next table := lastId table + 1
  fresh := by
    intro table row mem
    have bound : ∀ rows : List OptionContract, row ∈ rows → row.id ≤ rows.foldr
        (fun row largest => if row.id ≤ largest then largest else row.id) 0 := by
      intro rows mem
      induction rows with
      | nil => cases mem
      | cons first rows ih =>
        rw [List.foldr_cons]
        obtain rfl | later := List.mem_cons.mp mem
        · split <;> omega
        · have := ih later
          split <;> omega
    have := bound table.rows mem
    rw [lastId]
    omega

def oneCall (underlying symbol : String) (ltp : ℚ) : OptionChain where
  underlying
  expiry := 20000
  generatedAt := 0
  rows := [⟨25000, some ⟨symbol, some ltp, none, none⟩, none⟩]

def niftyCall : OptionContract where
  id := 1
  underlying := "NIFTY"
  exchange := .nfo
  provider := "icici_breeze"
  providerToken := none
  symbol := "NIFTY-CE"
  expiry := 20000
  strike := 25000
  optionType := .ce

def withBar : OptionDb :=
  ⟨⟨[niftyCall], List.pairwise_singleton _ _⟩, [⟨1, 0, 145, 160, 140, 155, none, none⟩]⟩

theorem withBar_ingestible :
    SnapshotIngestible (oneCall "NIFTY" "NIFTY-CE" 150) withBar := by
  refine ⟨by decide +kernel, ?_, by decide +kernel, ?_⟩
  · intro side mem missing
    obtain rfl := mem_singleton.mp mem
    revert missing
    decide +kernel
  · intro side mem contract _ row stored _ price ltp
    rw [mem_singleton.mp mem] at ltp
    rw [mem_singleton.mp stored]
    cases ltp
    decide +kernel

theorem ingests_within_bar :
    Meets OptionDb.step Ingests withBar [.snapshot successorIds (oneCall "NIFTY" "NIFTY-CE" 150)] := by
  have consistent : Consistent withBar := ⟨by decide, by decide +kernel, by decide +kernel⟩
  have ingestible : Meets OptionDb.step Ingestible withBar
      [.snapshot successorIds (oneCall "NIFTY" "NIFTY-CE" 150)] :=
    meets_cons.mpr ⟨withBar_ingestible, fun _ _ => trivial⟩
  exact (meets_ingests withBar consistent ingestible).1

def sensexCall : Listing where
  internalSymbol := "SENSEX-CE"
  exchange := .bfo
  underlying := "SENSEX"
  expiry := 20000
  strike := 25000
  optionType := .ce

/-- The contract of BFO is not found and cannot be inserted again; a price above the bar that the
first snapshot made becomes its close. -/
theorem snapshot_not_ingested :
    persistOptionChainSnapshot successorIds (oneCall "SENSEX" "SENSEX-CE" 150)
        ⟨⟨[newContract 1 sensexCall], List.pairwise_singleton _ _⟩, []⟩ = none ∧
    ∃ first second, persistOptionChainSnapshot successorIds (oneCall "NIFTY" "NIFTY-CE" 150)
        ⟨.empty, []⟩ = some (first, 1) ∧
      persistOptionChainSnapshot successorIds (oneCall "NIFTY" "NIFTY-CE" 155) first =
        some (second, 0) ∧
      ¬ ∀ row ∈ second.candles, row.IsBar := by
  constructor
  · refine Option.isNone_iff_eq_none.mp ?_
    decide +kernel
  · have candles : ((persistOptionChainSnapshot successorIds (oneCall "NIFTY" "NIFTY-CE" 150)
        ⟨.empty, []⟩).bind fun first =>
          (persistOptionChainSnapshot successorIds (oneCall "NIFTY" "NIFTY-CE" 155) first.1).map
            fun second => (first.2, second.2, second.1.candles)) =
        some (1, 0, [⟨1, 0, 150, 150, 150, 155, none, none⟩]) := by decide +kernel
    obtain ⟨⟨first, n⟩, ingested, later⟩ := Option.bind_eq_some_iff.mp candles
    obtain ⟨⟨second, m⟩, again, rows⟩ := Option.map_eq_some_iff.mp later
    simp only [Prod.mk.injEq] at rows
    obtain ⟨rfl, rfl, rows⟩ := rows
    refine ⟨first, second, ingested, again, ?_⟩
    rw [rows]
    decide +kernel

end Cases

end AlgoSystem.Proof.MarketData.ChainIngestion

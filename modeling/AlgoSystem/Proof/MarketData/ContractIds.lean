import AlgoSystem.General.Runs
import AlgoSystem.MarketData.Contracts

namespace AlgoSystem.Proof.MarketData.ContractIds
open General AlgoSystem.MarketData List

variable {id : Nat} {existing : ContractTable} {work : Registry} {insts : List Listing}
  {out : Registry × Bool} {call : EnsureCall}

structure Service where
  registry : Registry
  ensured : List String

inductive Event where
  | ensure (call : EnsureCall)
  | inserted (row : OptionContract)
  | stopped

def step (service : Service) : Event → Option Service
  | .ensure call =>
    let (registry, done) := ensureContractIds service.registry call
    some
      { registry
        ensured := if done then service.ensured ++ call.insts.map (·.internalSymbol)
          else service.ensured }
  | .inserted row =>
    (service.registry.table.insert row).map fun table =>
      { service with registry := { service.registry with table } }
  | .stopped => some ⟨{ service.registry with contractIds := .empty }, []⟩

def Has (registry : Registry) (symbol : String) (id : Nat) : Prop :=
  ∃ row ∈ registry.table.rows, row.symbol = symbol ∧ row.id = id

def Mapped (registry : Registry) : Prop :=
  ∀ symbol id, registry.contractIds.get? symbol = some id → Has registry symbol id

/-- The map holds only ids of committed rows, and those of all symbols that a call was done with. -/
structure Valid (service : Service) : Prop where
  mapped : Mapped service.registry
  ensured : ∀ symbol ∈ service.ensured, ∃ id,
    service.registry.contractIds.get? symbol = some id ∧
      Has service.registry symbol id

def known (existing : ContractTable) (contractIds : Dict String Nat) (symbol : String) : Bool :=
  (existing.idOf symbol).isSome || (contractIds.get? symbol).isSome

/-- The instruments that are in neither the table nor the map, each symbol once. -/
def missing (known : String → Bool) : List Listing → List Listing
  | [] => []
  | inst :: insts =>
    if known inst.internalSymbol then missing known insts
    else inst :: missing (fun symbol => known symbol || symbol = inst.internalSymbol) insts

/-- The first row can be inserted, and then a flush fails, by a clash or for want of an id, or the
commit does. -/
def RollsBack (registry : Registry) (call : EnsureCall) : Prop :=
  let insts := missing (known registry.table registry.contractIds) call.insts
  let rows := zipWith newContract call.ids insts
  call.reads = true ∧ (∃ row ∈ rows.head?, ∀ other ∈ registry.table.rows, ¬ other.Clash row) ∧
    (call.commits = false ∨ call.ids.length < insts.length ∨
      ¬ (registry.table.rows ++ rows).Pairwise fun a b => ¬ a.Clash b)

instance (registry : Registry) (call : EnsureCall) : Decidable (RollsBack registry call) :=
  inferInstanceAs (Decidable (_ ∧ _))

def Kept (service : Service) : Event → Prop
  | .ensure call => ¬ RollsBack service.registry call
  | _ => True

instance (service : Service) : (event : Event) → Decidable (Kept service event)
  | .ensure call => inferInstanceAs (Decidable (¬ RollsBack service.registry call))
  | .inserted _ | .stopped => .isTrue trivial

variable {table : ContractTable}

theorem insert_eq_some {table' : ContractTable} {row : OptionContract}
    (inserted : table.insert row = some table') : table'.rows = table.rows ++ [row] := by
  unfold ContractTable.insert at inserted
  split at inserted
  · cases inserted
    rfl
  · cases inserted

variable {symbol : String}

theorem idOf_eq_some (found : table.idOf symbol = some id) :
    ∃ row ∈ table.rows, row.symbol = symbol ∧ row.id = id := by
  obtain ⟨row, hrow, rfl⟩ := Option.map_eq_some_iff.mp found
  exact ⟨row, mem_of_find?_eq_some hrow, by simpa using find?_some hrow, rfl⟩

theorem idOf_eq_none (absent : table.idOf symbol = none) :
    ∀ row ∈ table.rows, row.symbol ≠ symbol := by
  simpa using find?_eq_none.mp (Option.map_eq_none_iff.mp absent)

variable {registry : Registry}

theorem Mapped.set (mapped : Mapped registry) (grows : registry.table.rows ⊆ table.rows)
    (has : ∃ row ∈ table.rows, row.symbol = symbol ∧ row.id = id) :
    Mapped ⟨table, registry.contractIds.set symbol id⟩ := by
  intro symbol' id' found
  rw [Dict.get?_set] at found
  split at found
  next same =>
    cases found
    exact same ▸ has
  · obtain ⟨row, mem, same⟩ := mapped symbol' id' found
    exact ⟨row, grows mem, same⟩

structure Worked (existing : ContractTable) (work : Registry) (insts : List Listing)
    (out : Registry × Bool) : Prop where
  mapped : Mapped out.1
  keeps : ∀ symbol, (work.contractIds.get? symbol).isSome → (out.1.contractIds.get? symbol).isSome
  added : ∃ new, out.1.table.rows = work.table.rows ++ new ∧
    ∀ row ∈ new, existing.idOf row.symbol = none ∧ (out.1.contractIds.get? row.symbol).isSome
  all : out.2 = true → ∀ inst ∈ insts, (out.1.contractIds.get? inst.internalSymbol).isSome

theorem Worked.cons {next : Registry} {inst : Listing} (worked : Worked existing next insts out)
    (keeps : ∀ symbol, (work.contractIds.get? symbol).isSome →
      (next.contractIds.get? symbol).isSome)
    (here : (next.contractIds.get? inst.internalSymbol).isSome)
    (added : next.table.rows = work.table.rows ∨ ∃ row,
      next.table.rows = work.table.rows ++ [row] ∧ row.symbol = inst.internalSymbol ∧
        existing.idOf row.symbol = none) :
    Worked existing work (inst :: insts) out where
  mapped := worked.mapped
  keeps := fun symbol known => worked.keeps symbol (keeps symbol known)
  added := by
    obtain ⟨new, rows, unknown⟩ := worked.added
    rcases added with same | ⟨row, grown, symbol, absent⟩
    · exact ⟨new, same ▸ rows, unknown⟩
    · refine ⟨row :: new, by rw [rows, grown, List.append_assoc, singleton_append], ?_⟩
      intro other mem
      cases mem with
      | head => exact ⟨absent, symbol ▸ worked.keeps _ here⟩
      | tail _ later => exact unknown other later
  all := by
    intro done other mem
    cases mem with
    | head => exact worked.keeps _ here
    | tail _ later => exact worked.all done other later

theorem ensureRows_worked (existing : ContractTable) (ids : List Nat) (work : Registry)
    (insts : List Listing) (mapped : Mapped work) (sub : existing.rows ⊆ work.table.rows) :
    Worked existing work insts (ensureRows existing ids work insts) := by
  have ended : ∀ work : Registry, Mapped work → ∀ insts done, (done = true → insts = []) →
      Worked existing work insts (work, done) := by
    intro work mapped insts done finished
    refine ⟨mapped, fun _ known => known, ⟨[], by simp, by simp⟩, ?_⟩
    intro isDone inst mem
    rw [finished isDone] at mem
    cases mem
  induction insts generalizing ids work with
  | nil => exact ended work mapped [] true fun _ => rfl
  | cons inst insts ih =>
    have set_keeps : ∀ id symbol, (work.contractIds.get? symbol).isSome →
        ((work.contractIds.set inst.internalSymbol id).get? symbol).isSome := by
      intro id symbol known
      rw [Dict.get?_set]
      split <;> simp [known]
    unfold ensureRows
    split
    next id found =>
      obtain ⟨row, mem, same⟩ := idOf_eq_some found
      have mapped' := mapped.set (List.Subset.refl _) ⟨row, sub mem, same⟩
      refine (ih ids _ mapped' sub).cons (set_keeps id) ?_ (.inl rfl)
      simp [Dict.get?_set]
    next absent =>
      split
      next known =>
        exact (ih ids work mapped sub).cons (fun _ known => known) known (.inl rfl)
      · split
        · exact ended work mapped _ false (by simp)
        next id ids =>
          split
          · exact ended work mapped _ false (by simp)
          next table inserted =>
            have rows := insert_eq_some inserted
            have grows : work.table.rows ⊆ table.rows :=
              rows ▸ subset_append_left _ _
            have new : newContract id inst ∈ table.rows := by simp [rows]
            have mapped' := mapped.set grows ⟨_, new, rfl, rfl⟩
            refine (ih ids _ mapped' (List.Subset.trans sub grows)).cons (set_keeps id) ?_
              (.inr ⟨_, rows, rfl, absent⟩)
            simp [newContract, Dict.get?_set]

theorem known_set (existing : ContractTable) (contractIds : Dict String Nat) (symbol : String)
    (id : Nat) :
    known existing (contractIds.set symbol id) =
      fun other => known existing contractIds other || other = symbol := by
  funext other
  rw [known, known, Dict.get?_set]
  by_cases same : other = symbol <;> simp [same]

theorem known_set_of_known (seen : known existing work.contractIds symbol) :
    known existing (work.contractIds.set symbol id) = known existing work.contractIds := by
  rw [known_set]
  funext other
  by_cases same : other = symbol <;> simp [same, seen]

theorem insert_eq_none {row : OptionContract} :
    table.insert row = none ↔ ¬ ∀ other ∈ table.rows, ¬ other.Clash row := by
  unfold ContractTable.insert
  split <;> simp_all

/-- A call flushes a row if the first one it misses can be inserted, and all of them if each can. -/
theorem ensureRows_flushes (existing : ContractTable) (ids : List Nat) (work : Registry)
    (insts : List Listing) :
    let out := ensureRows existing ids work insts
    let absent := missing (known existing work.contractIds) insts
    let rows := zipWith newContract ids absent
    work.table.rows <+: out.1.table.rows ∧ (out.2 = true ↔ absent.length ≤ ids.length ∧
        (work.table.rows ++ rows).Pairwise fun a b => ¬ a.Clash b) ∧
      (out.1.table.rows ≠ work.table.rows ↔
        ∃ row ∈ rows.head?, ∀ other ∈ work.table.rows, ¬ other.Clash row) := by
  fun_induction ensureRows existing ids work insts with
  | case1 ids work => simp [missing, work.table.distinct, prefix_rfl]
  | case2 ids work inst insts id found ih =>
    have seen : known existing work.contractIds inst.internalSymbol := by simp [known, found]
    rw [missing, if_pos seen, ← known_set_of_known seen]
    exact ih
  | case3 ids work inst insts absent mapped ih =>
    have seen : known existing work.contractIds inst.internalSymbol := by simp [known, mapped]
    rw [missing, if_pos seen]
    exact ih
  | case4 work inst insts absent unmapped =>
    have unseen : ¬ known existing work.contractIds inst.internalSymbol := by
      simp [known, absent, unmapped]
    simp [missing, unseen]
  | case5 work inst insts absent unmapped id ids refused =>
    have unseen : ¬ known existing work.contractIds inst.internalSymbol := by
      simp [known, absent, unmapped]
    have clash := insert_eq_none.mp refused
    simp only [missing, if_neg unseen, zipWith_cons_cons]
    refine ⟨prefix_rfl, iff_of_false Bool.false_ne_true ?_, by simpa using clash⟩
    intro ⟨_, apart⟩
    exact clash fun other mem => (pairwise_append.mp apart).2.2 other mem _ mem_cons_self
  | case6 work inst insts absent unmapped id ids table inserted ih =>
    have unseen : ¬ known existing work.contractIds inst.internalSymbol := by
      simp [known, absent, unmapped]
    have rows := insert_eq_some inserted
    have free : ∀ other ∈ work.table.rows, ¬ other.Clash (newContract id inst) := by
      by_contra clash
      rw [insert_eq_none.mpr clash] at inserted
      cases inserted
    simp only [missing, if_neg unseen, zipWith_cons_cons, length_cons, Nat.succ_le_succ_iff]
    rw [← known_set, append_cons, ← rows]
    obtain ⟨grown, all, -⟩ := ih
    refine ⟨(rows ▸ prefix_append _ _ : work.table.rows <+: table.rows).trans grown, all,
      iff_of_true ?_ ⟨_, rfl, free⟩⟩
    intro same
    have shorter := grown.length_le
    rw [same, rows, length_append, length_singleton] at shorter
    omega

theorem rollsBack_iff : RollsBack registry call ↔ call.reads = true ∧
    ((ensureRows registry.table call.ids registry call.insts).2 && call.commits) = false ∧
    (ensureRows registry.table call.ids registry call.insts).1.table.rows ≠
      registry.table.rows := by
  obtain ⟨-, all, some⟩ := ensureRows_flushes registry.table call.ids registry call.insts
  rw [some, RollsBack, Bool.and_eq_false_iff, ← Bool.not_eq_true (ensureRows _ _ _ _).2, all,
    not_and_or, not_le]
  tauto

structure Done (registry : Registry) (call : EnsureCall) (out : Registry × Bool) : Prop where
  mapped : Mapped out.1
  keeps : ∀ symbol, (registry.contractIds.get? symbol).isSome →
    (out.1.contractIds.get? symbol).isSome
  all : out.2 = true → ∀ inst ∈ call.insts,
    (out.1.contractIds.get? inst.internalSymbol).isSome

theorem ensureContractIds_done (mapped : Mapped registry) (kept : ¬ RollsBack registry call) :
    Done registry call (ensureContractIds registry call) := by
  have worked := ensureRows_worked registry.table call.ids registry call.insts mapped
    (List.Subset.refl _)
  unfold ensureContractIds
  split
  next empty =>
    rw [List.isEmpty_iff] at empty
    exact ⟨mapped, fun _ known => known, by simp [empty]⟩
  · split
    · exact ⟨mapped, fun _ known => known, by simp⟩
    next reads =>
      simp only
      split
      next done =>
        have flushed := (Bool.and_eq_true_iff.mp done).1
        exact ⟨worked.mapped, worked.keeps, fun _ => worked.all flushed⟩
      next failed =>
        have same : (ensureRows registry.table call.ids registry call.insts).1.table.rows =
            registry.table.rows := by
          by_contra changed
          exact kept (rollsBack_iff.mpr ⟨by simpa using reads, by simpa using failed, changed⟩)
        refine ⟨?_, worked.keeps, by simp⟩
        intro symbol id found
        obtain ⟨row, mem, has⟩ := worked.mapped symbol id found
        exact ⟨row, same ▸ mem, has⟩

theorem not_mapped_of_rollsBack (mapped : Mapped registry) (rolls : RollsBack registry call) :
    ¬ Mapped (ensureContractIds registry call).1 := by
  obtain ⟨reads, failed, changed⟩ := rollsBack_iff.mp rolls
  have worked := ensureRows_worked registry.table call.ids registry call.insts mapped
    (List.Subset.refl _)
  have nonempty : call.insts ≠ [] := by
    intro empty
    rw [empty] at changed
    exact changed rfl
  have left : ensureContractIds registry call =
      ({ (ensureRows registry.table call.ids registry call.insts).1 with
        table := registry.table }, false) := by
    simp [ensureContractIds, nonempty, reads, failed]
  rw [left]
  intro mapped'
  obtain ⟨new, rows, unknown⟩ := worked.added
  cases new with
  | nil => exact changed (rows.trans (append_nil _))
  | cons row new =>
    -- the symbol of the new row is in the map and not in the committed table
    obtain ⟨absent, known⟩ := unknown row mem_cons_self
    obtain ⟨id, found⟩ := Option.isSome_iff_exists.mp known
    obtain ⟨other, mem, same, -⟩ := mapped' row.symbol id found
    exact idOf_eq_none absent other mem same

theorem Valid.of_keeps {service : Service} (valid : Valid service) (mapped : Mapped registry)
    (symbols : List String) (keeps : ∀ symbol, (service.registry.contractIds.get? symbol).isSome →
      (registry.contractIds.get? symbol).isSome)
    (known : ∀ symbol ∈ symbols, (registry.contractIds.get? symbol).isSome) :
    Valid ⟨registry, service.ensured ++ symbols⟩ where
  mapped := mapped
  ensured := by
    intro symbol mem
    have found : (registry.contractIds.get? symbol).isSome := by
      rcases mem_append.mp mem with before | new
      · obtain ⟨id, before, -⟩ := valid.ensured symbol before
        exact keeps symbol (by simp [before])
      · exact known symbol new
    obtain ⟨id, found⟩ := Option.isSome_iff_exists.mp found
    exact ⟨id, found, mapped symbol id found⟩

section
variable (service : Service) (event : Event) (after : Service) (valid : Valid service)
include valid

theorem step_valid (kept : Kept service event) (stepped : step service event = some after) :
    Valid after := by
  cases event with
  | ensure call =>
    have done := ensureContractIds_done valid.mapped kept
    simp only [step, Option.some.injEq] at stepped
    subst stepped
    split
    next finished =>
      refine valid.of_keeps done.mapped _ done.keeps ?_
      intro symbol mem
      obtain ⟨inst, member, rfl⟩ := mem_map.mp mem
      exact done.all finished inst member
    · have same := valid.of_keeps done.mapped [] done.keeps (by simp)
      rwa [append_nil] at same
  | inserted row =>
    obtain ⟨table, inserted, rfl⟩ := Option.map_eq_some_iff.mp stepped
    have mapped : Mapped { service.registry with table } := by
      intro symbol id found
      obtain ⟨other, mem, same⟩ := valid.mapped symbol id found
      exact ⟨other, insert_eq_some inserted ▸ mem_append_left _ mem, same⟩
    have same := valid.of_keeps mapped [] (fun _ known => known) (by simp)
    rwa [append_nil] at same
  | stopped =>
    cases stepped
    exact ⟨by simp [Mapped], by simp⟩

theorem step_not_valid (lost : ¬ Kept service event) (stepped : step service event = some after) :
    ¬ Valid after := by
  cases event with
  | ensure call =>
    cases stepped
    intro valid'
    exact not_mapped_of_rollsBack valid.mapped (not_not.mp lost) valid'.mapped
  | inserted row | stopped => exact absurd trivial lost

end

theorem valid_iff_kept (table : ContractTable) {events : List Event} {last : Service}
    (path : run step ⟨⟨table, .empty⟩, []⟩ events = some last) :
    (∀ before service, before <+: events →
      run step ⟨⟨table, .empty⟩, []⟩ before = some service → Valid service) ↔
    Meets step Kept ⟨⟨table, .empty⟩, []⟩ events :=
  always_iff_meets (fun _ valid => valid) step_valid step_not_valid path
    ⟨by simp [Mapped], by simp⟩

section Cases

def ceAt (strike : ℚ) (symbol : String) : Listing where
  internalSymbol := symbol
  exchange := .nfo
  underlying := "NIFTY"
  expiry := 20006
  strike
  optionType := .ce

def nothing : Service := ⟨⟨.empty, .empty⟩, []⟩

def retried : List Event :=
  [.ensure { insts := [ceAt 100 "A", ceAt 150 "B"], ids := [] },
    .ensure { insts := [ceAt 100 "A", ceAt 150 "B"], ids := [1, 2] }]

theorem retried_valid : ∃ service, run step nothing retried = some service ∧
    service.registry.table.rows.map OptionContract.symbol = ["A", "B"] ∧
    ∀ before service, before <+: retried → run step nothing before = some service →
      Valid service :=
  ⟨_, rfl, by decide +kernel, (valid_iff_kept .empty rfl).mpr (by decide +kernel)⟩

/-- The second flush of the first call fails. The map keeps the id 1 for "A", which no call inserts
again, and the database gives the id to "B". -/
theorem rolled_back_not_inserted : ∃ service,
    run step nothing
      [.ensure { insts := [ceAt 100 "A", ceAt 150 "B"], ids := [1] },
        .ensure { insts := [ceAt 100 "A", ceAt 150 "B"], ids := [1] }] = some service ∧
    service.registry.table.rows.map (fun row => (row.symbol, row.id)) = [("B", 1)] ∧
    service.registry.contractIds.get? "A" = some 1 ∧ "A" ∈ service.ensured :=
  ⟨_, rfl, by decide +kernel, by decide +kernel, by decide +kernel⟩

end Cases

end AlgoSystem.Proof.MarketData.ContractIds

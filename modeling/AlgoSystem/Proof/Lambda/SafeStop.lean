import AlgoSystem.Lambda.SafeStop

namespace AlgoSystem.Proof.Lambda
open AlgoSystem.Lambda General Prog List

variable {action : InstanceState → Aws Result} {c : Call} {power : Aws Result}

abbrev Entry := (c : Call) × Reply c

def described (instanceId : String) : Entry → Option (Option InstanceState)
  | ⟨.describeInstances id, reply⟩ =>
    if id = instanceId then
      match (reply : Except AwsError (Option InstanceState)) with
      | .ok state => some state
      | .error _ => some none
    else none
  | _ => none

def observed (past : Trace) (instanceId : String) : Option InstanceState :=
  (past.filterMap (described instanceId)).getLast?.join

def Checked (past : Trace) (instanceId : String) : Prop :=
  ∃ (earlier : Trace) (commandId : String) (result : Invocation),
    past = earlier ++ [⟨.getCommandInvocation commandId instanceId, .ok result⟩] ∧
      result.status = .success ∧ ∀ line ∈ result.lines, line = ""

def Allowed (force : Bool) (past : Trace) : Call → Prop
  | .stopInstances id | .rebootInstances id =>
    observed past id = some .running → force = true ∨ Checked past id
  | _ => True

def Guarded (force : Bool) : Trace → Trace → Prop
  | _, [] => True
  | past, entry :: rest => Allowed force past entry.1 ∧ Guarded force (past ++ [entry]) rest

def Fatal : Entry → Prop
  | ⟨.describeInstances _, reply⟩ =>
    ∃ text, (reply : Except AwsError (Option InstanceState)) = .error (.botoCoreError text)
  | ⟨.getCommandInvocation _ _, reply⟩ =>
    ∃ e, (reply : Except AwsError Invocation) = .error e ∧
      ∀ text, e ≠ .clientError "InvocationDoesNotExist" text
  | _ => False

structure Handled (listed : Except String (List Server)) (event : Event) (trace : Trace)
    (result : Except Exc Response) : Prop where
  guarded : Guarded (forced event.force) [] trace
  each : event.action = .stopAllEc2 → ∃ servers success results message,
    listed = .ok servers ∧ result = .ok (.all success results message) ∧
      results.map (fun r => r.serverName.getD r.serverId) = (registered servers).map Prod.fst

variable {force : Bool} {past : Trace} {instanceId : String}

theorem guarded_append {first second : Trace} :
    Guarded force past (first ++ second) ↔
      Guarded force past first ∧ Guarded force (past ++ first) second := by
  induction first generalizing past with
  | nil => simp [Guarded]
  | cons entry first ih => simp [Guarded, ih, and_assoc]

def Harmless (entry : Entry) : Prop :=
  ∀ id, entry.1 ≠ .stopInstances id ∧ entry.1 ≠ .rebootInstances id

theorem guarded_of_harmless {trace : Trace} (harmless : ∀ entry ∈ trace, Harmless entry) :
    Guarded force past trace := by
  induction trace generalizing past with
  | nil => trivial
  | cons entry trace ih =>
    refine ⟨?_, ih fun later member => harmless later (mem_cons_of_mem _ member)⟩
    have here := harmless entry (mem_cons_self ..)
    unfold Allowed
    split
    case h_1 id same => exact absurd same (here id).1
    case h_2 id same => exact absurd same (here id).2
    case h_3 => trivial

def Guards (force : Bool) {α : Type} (program : Aws α) : Prop :=
  ∀ past trace result, Runs program trace result → Guarded force past trace

section

variable {α β : Type} {program : Aws α} {next : α → Aws β}

theorem guards_pure {a : α} : Guards force (pure a : Aws α) := by
  intro past trace result run
  obtain ⟨rfl, -⟩ := runs_pure.mp run
  trivial

theorem Guards.bind (first : Guards force program) (second : ∀ a, Guards force (next a)) :
    Guards force (program >>= next) := by
  intro past trace result run
  rcases runs_bind.mp run with ⟨t, u, a, rfl, one, two⟩ | ⟨e, one, -⟩
  · exact guarded_append.mpr ⟨first past t _ one, second a (past ++ t) u result two⟩
  · exact first past trace _ one

end

section

variable {α : Type} {trace : Trace}

theorem runs_orRaise {reply : Except AwsError α} {result : Except Exc α} :
    Runs (orRaise reply) trace result ↔ trace = [] ∧ result = reply.mapError .aws := by
  cases reply with
  | ok a => exact runs_ret
  | error e => exact runs_raise

theorem runs_instanceState {result : Except Exc InstanceState}
    (run : Runs (instanceState instanceId) trace result) :
    ∃ reply : Except AwsError (Option InstanceState),
      trace = [⟨.describeInstances instanceId, reply⟩] ∧
      result = match reply with
        | .ok (some state) => .ok state
        | .ok none => .error .lookup
        | .error e => .error (.aws e) := by
  rcases runs_bind.mp run with ⟨t, u, a, rfl, first, second⟩ | ⟨e, first, rfl⟩
  · obtain ⟨reply, rest, rfl, after⟩ := runs_call.mp first
    obtain ⟨rfl, same⟩ := runs_orRaise.mp after
    cases reply with
    | error e => cases same
    | ok found =>
      cases same
      cases a with
      | none =>
        obtain ⟨rfl, rfl⟩ := runs_raise.mp second
        exact ⟨.ok none, rfl, rfl⟩
      | some state =>
        obtain ⟨rfl, rfl⟩ := runs_pure.mp second
        exact ⟨.ok (some state), rfl, rfl⟩
  · obtain ⟨reply, rest, rfl, after⟩ := runs_call.mp first
    obtain ⟨rfl, same⟩ := runs_orRaise.mp after
    cases reply with
    | ok found => cases same
    | error e' =>
      cases same
      exact ⟨.error e', rfl, rfl⟩

theorem runs_withState {result : Except Exc Result}
    (run : Runs (withState instanceId action) trace result) :
    ∃ (reply : Except AwsError (Option InstanceState)) (rest : Trace),
      trace = ⟨.describeInstances instanceId, reply⟩ :: rest ∧
      ((∃ state, reply = .ok (some state) ∧ Runs (action state) rest result) ∨ rest = [] ∧
          ((∃ e, result = .error e) ↔ Fatal ⟨.describeInstances instanceId, reply⟩)) := by
  rcases runs_bind.mp run with ⟨t, u, a, rfl, first, second⟩ | ⟨e, first, rfl⟩
  · rcases runs_attempt.mp first with ⟨state, inner, same⟩ | ⟨e, inner, same⟩
    · obtain ⟨reply, rfl, outcome⟩ := runs_instanceState inner
      cases same
      refine ⟨reply, u, rfl, .inl ⟨state, ?_, second⟩⟩
      split at outcome <;> cases outcome
      rfl
    · obtain ⟨reply, rfl, outcome⟩ := runs_instanceState inner
      split at same
      case isFalse => cases same
      case isTrue caught =>
        cases same
        obtain ⟨rfl, rfl⟩ := runs_pure.mp second
        refine ⟨reply, [], rfl, .inr ⟨rfl, ?_⟩⟩
        constructor
        · rintro ⟨_, impossible⟩
          cases impossible
        · rintro ⟨text, rfl⟩
          cases outcome
          cases caught
  · rcases runs_attempt.mp first with ⟨state, inner, same⟩ | ⟨e', inner, same⟩
    · cases same
    · obtain ⟨reply, rfl, outcome⟩ := runs_instanceState inner
      split at same
      case isTrue => cases same
      case isFalse missed =>
        refine ⟨reply, [], rfl, .inr ⟨rfl, ?_⟩⟩
        have raised : Fatal ⟨.describeInstances instanceId, reply⟩ := by
          split at outcome <;> cases outcome
          · exact absurd rfl missed
          · rename_i error
            cases error with
            | clientError code text => exact absurd rfl missed
            | botoCoreError text => exact ⟨text, rfl⟩
        exact ⟨fun _ => raised, fun _ => ⟨e, rfl⟩⟩

theorem runs_attempt_isAws {next : Reply c → Except AwsError α} {result : Except Exc (Except Exc α)}
    (run : Runs ((Prog.call c fun r => orRaise (next r)).attempt Exc.isAws) trace result) :
    ∃ r x, trace = [⟨c, r⟩] ∧ result = .ok x := by
  rcases runs_attempt.mp run with ⟨a, inner, rfl⟩ | ⟨e, inner, rfl⟩
  · obtain ⟨r, rest, rfl, after⟩ := runs_call.mp inner
    obtain ⟨rfl, -⟩ := runs_orRaise.mp after
    exact ⟨r, .ok a, rfl, rfl⟩
  · obtain ⟨r, rest, rfl, after⟩ := runs_call.mp inner
    obtain ⟨rfl, same⟩ := runs_orRaise.mp after
    refine ⟨r, .error e, rfl, ?_⟩
    cases reply : next r with
    | ok a => simp [reply, Except.mapError] at same
    | error e' =>
      rw [reply] at same
      cases same
      rfl

theorem runs_powerCall {next : Reply c → Except AwsError Unit} {name status : String}
    {result : Except Exc Result}
    (run : Runs (powerCall (.call c fun r => orRaise (next r)) name status instanceId) trace result) :
    ∃ r x, trace = [⟨c, r⟩] ∧ result = .ok x := by
  rcases runs_bind.mp run with ⟨t, u, a, rfl, first, second⟩ | ⟨e, first, rfl⟩
  · obtain ⟨r, x, rfl, same⟩ := runs_attempt_isAws first
    cases a with
    | ok _ | error e =>
      obtain ⟨rfl, rfl⟩ := runs_pure.mp second
      exact ⟨r, _, rfl, rfl⟩
  · obtain ⟨r, x, rfl, same⟩ := runs_attempt_isAws first
    cases same

end

section

variable {commandId osName : String} {json : Option Json} {trace : Trace}

theorem runs_getCommandResult {result : Except Exc Invocation}
    (run : Runs (getCommandResult commandId instanceId) trace result) :
    ∃ reply : Except AwsError Invocation,
      trace = [⟨.getCommandInvocation commandId instanceId, reply⟩] ∧
      ((∃ found, reply = .ok found ∧ result = .ok found) ∨
        (∃ text, reply = .error (.clientError "InvocationDoesNotExist" text) ∧
          result = .ok { status := .pending, lines := [] }) ∨
        (∃ e, reply = .error e ∧ (∀ text, e ≠ .clientError "InvocationDoesNotExist" text) ∧
          result = .error (.aws e))) := by
  obtain ⟨reply, rest, rfl, after⟩ := runs_call.mp run
  split at after
  · obtain ⟨rfl, rfl⟩ := runs_ret.mp after
    exact ⟨_, rfl, .inl ⟨_, rfl, rfl⟩⟩
  · obtain ⟨rfl, rfl⟩ := runs_ret.mp after
    exact ⟨_, rfl, .inr (.inl ⟨_, rfl, rfl⟩)⟩
  · rename_i e other
    obtain ⟨rfl, rfl⟩ := runs_raise.mp after
    refine ⟨_, rfl, .inr (.inr ⟨e, rfl, ?_, rfl⟩)⟩
    intro text same
    exact other text (by rw [same])

theorem raises_getCommandResult : RaisesIff Fatal (getCommandResult commandId instanceId) := by
  intro trace result run
  obtain ⟨reply, rfl, ⟨found, rfl, rfl⟩ | ⟨text, rfl, rfl⟩ | ⟨e, rfl, other, rfl⟩⟩ :=
    runs_getCommandResult run
  · simp [Fatal]
  · simp only [reduceCtorEq, exists_false, mem_singleton, exists_eq_left, false_iff]
    rintro ⟨e, same, other⟩
    cases same
    exact other text rfl
  · exact ⟨fun _ => ⟨_, mem_singleton_self _, e, rfl, other⟩, fun _ => ⟨_, rfl⟩⟩

theorem harmless_getCommandResult : Calls Harmless (getCommandResult commandId instanceId) := by
  intro trace result run entry member
  obtain ⟨reply, rfl, -⟩ := runs_getCommandResult run
  cases mem_singleton.mp member
  exact fun id => ⟨nofun, nofun⟩

theorem raises_awaitCheck (fuel : Nat) :
    RaisesIff Fatal (awaitCheck commandId instanceId fuel) := by
  induction fuel with
  | zero => exact raisesIff_pure
  | succ fuel ih =>
    refine raisesIff_call (fun _ => id) ?_
    intro early
    cases early with
    | false => exact raisesIff_pure
    | true =>
      refine raises_getCommandResult.bind ?_
      intro res
      obtain ⟨status, lines⟩ := res
      cases status <;> first | exact raisesIff_pure | exact ih

theorem harmless_awaitCheck (fuel : Nat) :
    Calls Harmless (awaitCheck commandId instanceId fuel) := by
  induction fuel with
  | zero => exact calls_pure
  | succ fuel ih =>
    refine calls_call (fun _ id => ⟨nofun, nofun⟩) ?_
    intro early
    cases early with
    | false => exact calls_pure
    | true =>
      refine harmless_getCommandResult.bind ?_
      intro res
      obtain ⟨status, lines⟩ := res
      cases status <;> first | exact calls_pure | exact ih

theorem checked_awaitCheck {fuel : Nat}
    (run : Runs (awaitCheck commandId instanceId fuel) trace (.ok (some []))) (past : Trace) :
    Checked (past ++ trace) instanceId := by
  induction fuel generalizing trace past with
  | zero =>
    obtain ⟨-, impossible⟩ := runs_pure.mp run
    cases impossible
  | succ fuel ih =>
    obtain ⟨early, rest, rfl, after⟩ := runs_call.mp run
    cases early with
    | false =>
      obtain ⟨-, impossible⟩ := runs_pure.mp after
      cases impossible
    | true =>
      obtain ⟨t, u, ⟨status, lines⟩, rfl, first, second⟩ := runs_bind_ok.mp after
      cases status with
      | success =>
        obtain ⟨rfl, same⟩ := runs_pure.mp second
        obtain ⟨reply, rfl, ⟨found, rfl, here⟩ | ⟨_, _, here⟩ | ⟨_, _, _, here⟩⟩ :=
          runs_getCommandResult first
        · cases here
          refine ⟨past ++ [⟨.beforeDeadline, true⟩], commandId, ⟨.success, lines⟩, ?_, rfl, ?_⟩
          · rw [append_nil, List.append_assoc]
            rfl
          · simpa using same
        · cases here
        · cases here
      | failed | cancelled | timedOut =>
        obtain ⟨-, impossible⟩ := runs_pure.mp second
        cases impossible
      | pending | inProgress | delayed | cancelling =>
        have later := ih second (past ++ ⟨.beforeDeadline, true⟩ :: t)
        simpa using later

theorem raises_safeStopBlocked : RaisesIff Fatal (safeStopBlocked instanceId osName json) := by
  unfold safeStopBlocked
  split
  · exact raisesIff_pure
  · refine RaisesIff.bind ?_ fun procs => ?_
    · refine RaisesIff.bind ?_ fun sent => ?_
      · intro trace result run
        obtain ⟨r, x, rfl, rfl⟩ := runs_attempt_isAws run
        simp [Fatal]
      · cases sent with
        | error exc => exact raisesIff_pure
        | ok commandId => exact raises_awaitCheck 10
    · split <;> exact raisesIff_pure

theorem harmless_safeStopBlocked : Calls Harmless (safeStopBlocked instanceId osName json) := by
  unfold safeStopBlocked
  split
  · exact calls_pure
  · refine Calls.bind ?_ fun procs => ?_
    · refine Calls.bind ?_ fun sent => ?_
      · intro trace result run entry member
        obtain ⟨r, x, rfl, rfl⟩ := runs_attempt_isAws run
        cases mem_singleton.mp member
        exact fun id => ⟨nofun, nofun⟩
      · cases sent with
        | error exc => exact calls_pure
        | ok commandId => exact harmless_awaitCheck 10
    · split <;> exact calls_pure

theorem unblocked_safeStopBlocked
    (run : Runs (safeStopBlocked instanceId osName json) trace (.ok none)) (past : Trace) :
    forced json = true ∨ Checked (past ++ trace) instanceId := by
  unfold safeStopBlocked at run
  split at run
  case isTrue force => exact .inl force
  case isFalse =>
    right
    obtain ⟨t, u, procs, rfl, first, second⟩ := runs_bind_ok.mp run
    split at second
    case h_1 | h_3 =>
      obtain ⟨-, impossible⟩ := runs_pure.mp second
      cases impossible
    case h_2 =>
      obtain ⟨rfl, -⟩ := runs_pure.mp second
      obtain ⟨v, w, sent, rfl, sending, waiting⟩ := runs_bind_ok.mp first
      cases sent with
      | error exc =>
        obtain ⟨-, impossible⟩ := runs_pure.mp waiting
        cases impossible
      | ok commandId =>
        have checked := checked_awaitCheck waiting (past ++ v)
        simpa using checked

end

section

variable {osName : String} {json : Option Json} {trace : Trace} {state : InstanceState}

theorem raises_withState (actions : ∀ state, RaisesIff Fatal (action state)) :
    RaisesIff Fatal (withState instanceId action) := by
  intro trace result run
  obtain ⟨reply, rest, rfl, ⟨state, rfl, after⟩ | ⟨rfl, raised⟩⟩ := runs_withState run
  · have harmless : ¬ Fatal ⟨.describeInstances instanceId, .ok (some state)⟩ := by
      rintro ⟨text, impossible⟩
      cases impossible
    simp only [actions state rest result after, mem_cons, exists_eq_or_imp]
    exact (or_iff_right harmless).symm
  · simp [raised]

theorem raises_powerCall {next : Reply c → Except AwsError Unit} {name status : String}
    (harmless : ∀ r, ¬ Fatal ⟨c, r⟩) :
    RaisesIff Fatal (powerCall (.call c fun r => orRaise (next r)) name status instanceId) := by
  intro trace result run
  obtain ⟨r, x, rfl, rfl⟩ := runs_powerCall run
  simp [harmless r]

theorem raises_actionStartEc2 : RaisesIff Fatal (actionStartEc2 instanceId) := by
  apply raises_withState
  intro state
  split
  · exact raisesIff_pure
  · exact raises_powerCall fun _ => id

theorem raises_actionStopEc2 : RaisesIff Fatal (actionStopEc2 instanceId json osName) := by
  apply raises_withState
  intro state
  split
  · exact raisesIff_pure
  · split
    · refine raises_safeStopBlocked.bind ?_
      intro blocked
      cases blocked with
      | some blocked => exact raisesIff_pure
      | none => exact raises_powerCall fun _ => id
    · exact raises_powerCall fun _ => id

theorem observed_described :
    observed (past ++ [⟨.describeInstances instanceId, .ok (some state)⟩]) instanceId =
      some state := by
  simp [observed, described, filterMap_append]

def TakesDown (instanceId : String) (power : Aws Result) : Prop :=
  ∀ trace result, Runs power trace result → ∃ c r, trace = [⟨c, r⟩] ∧
    (c = .stopInstances instanceId ∨ c = .rebootInstances instanceId)

theorem takesDown_stop : TakesDown instanceId (stopInstances instanceId) := by
  intro trace result run
  obtain ⟨r, x, rfl, -⟩ := runs_powerCall run
  exact ⟨_, r, rfl, .inl rfl⟩

theorem takesDown_reboot : TakesDown instanceId (rebootInstances instanceId) := by
  intro trace result run
  obtain ⟨r, x, rfl, -⟩ := runs_powerCall run
  exact ⟨_, r, rfl, .inr rfl⟩

theorem guarded_takesDown {result : Except Exc Result} (down : TakesDown instanceId power)
    (run : Runs power trace result)
    (allowed : observed past instanceId = some .running → force = true ∨ Checked past instanceId) :
    Guarded force past trace := by
  obtain ⟨c, r, rfl, rfl | rfl⟩ := down trace result run
  · exact ⟨allowed, trivial⟩
  · exact ⟨allowed, trivial⟩

theorem guarded_afterCheck {result : Except Exc Result} (down : TakesDown instanceId power)
    (run : Runs (do
      match ← safeStopBlocked instanceId osName json with
      | some blocked => pure blocked
      | none => power) trace result) :
    Guarded (forced json) past trace := by
  rcases runs_bind.mp run with ⟨t, u, blocked, rfl, check, after⟩ | ⟨e, check, -⟩
  · refine guarded_append.mpr ⟨guarded_of_harmless (harmless_safeStopBlocked t _ check), ?_⟩
    cases blocked with
    | some blocked =>
      obtain ⟨rfl, -⟩ := runs_pure.mp after
      trivial
    | none => exact guarded_takesDown down after fun _ => unblocked_safeStopBlocked check past
  · exact guarded_of_harmless (harmless_safeStopBlocked trace _ check)

theorem guarded_withState {result : Except Exc Result}
    (actions : ∀ state past rest, Runs (action state) rest result →
      observed past instanceId = some state → Guarded force past rest)
    (run : Runs (withState instanceId action) trace result) : Guarded force past trace := by
  obtain ⟨reply, rest, rfl, ⟨state, rfl, after⟩ | ⟨rfl, -⟩⟩ := runs_withState run
  · exact ⟨trivial, actions state _ rest after observed_described⟩
  · exact ⟨trivial, trivial⟩

theorem guards_actionStopEc2 : Guards (forced json) (actionStopEc2 instanceId json osName) := by
  intro past trace result run
  refine guarded_withState ?_ run
  intro state past rest after seen
  split at after
  · exact guards_pure past rest result after
  · split at after
    · exact guarded_afterCheck takesDown_stop after
    · rename_i calm
      refine guarded_takesDown takesDown_stop after fun running => ?_
      rw [seen] at running
      exact absurd (Option.some.inj running) calm

theorem guards_actionRestartEc2 :
    Guards (forced json) (actionRestartEc2 instanceId json osName) := by
  intro past trace result run
  refine guarded_withState ?_ run
  intro state past rest after seen
  split at after
  · obtain ⟨r, x, rfl, -⟩ := runs_powerCall after
    exact ⟨trivial, trivial⟩
  · split at after
    · exact guarded_afterCheck takesDown_reboot after
    · exact guards_pure past rest result after

end

section

variable {json : Option Json} {trace : Trace} {name : String} {server : Server}

theorem raises_processServer (stop : Bool) :
    RaisesIff Fatal (processServer stop json name server) := by
  unfold processServer
  split
  · exact raisesIff_pure
  · exact raisesIff_pure
  · refine RaisesIff.bind ?_ fun _ => raisesIff_pure
    cases stop with
    | true => exact raises_actionStopEc2
    | false => exact raises_actionStartEc2

theorem raises_processAll (stop : Bool) (servers : List (String × Server)) :
    RaisesIff Fatal (processAll stop json servers) := by
  induction servers with
  | nil => exact raisesIff_pure
  | cons server servers ih =>
    exact (raises_processServer stop).bind fun _ => ih.bind fun _ => raisesIff_pure

theorem guards_processServer : Guards (forced json) (processServer true json name server) := by
  unfold processServer
  split
  · exact guards_pure
  · exact guards_pure
  · exact guards_actionStopEc2.bind fun _ => guards_pure

theorem guards_processAll (servers : List (String × Server)) :
    Guards (forced json) (processAll true json servers) := by
  induction servers with
  | nil => exact guards_pure
  | cons server servers ih =>
    exact guards_processServer.bind fun _ => ih.bind fun _ => guards_pure

theorem processServer_name {r : Result}
    (run : Runs (processServer true json name server) trace (.ok r)) :
    r.serverName.getD r.serverId = name := by
  unfold processServer at run
  split at run
  · obtain ⟨-, same⟩ := runs_pure.mp run
    cases same
    rfl
  · obtain ⟨-, same⟩ := runs_pure.mp run
    cases same
    rfl
  · obtain ⟨t, u, r, rfl, stopping, after⟩ := runs_bind_ok.mp run
    obtain ⟨-, same⟩ := runs_pure.mp after
    cases same
    rfl

theorem processAll_names {servers : List (String × Server)} {results : List Result}
    (run : Runs (processAll true json servers) trace (.ok results)) :
    results.map (fun r => r.serverName.getD r.serverId) = servers.map Prod.fst := by
  induction servers generalizing trace results with
  | nil =>
    obtain ⟨-, same⟩ := runs_pure.mp run
    cases same
    rfl
  | cons server servers ih =>
    obtain ⟨t, u, r, rfl, one, rest⟩ := runs_bind_ok.mp run
    obtain ⟨v, w, others, rfl, later, last⟩ := runs_bind_ok.mp rest
    obtain ⟨-, same⟩ := runs_pure.mp last
    cases same
    rw [map_cons, map_cons, processServer_name one, ih later]

end

section

variable {json : Option Json} {trace : Trace} {result : Except Exc Response}
  {listed : Except String (List Server)}

theorem guards_actionAllEc2 (configured : Bool) :
    Guards (forced json) (actionAllEc2 configured listed true json) := by
  unfold actionAllEc2
  split
  · split
    · exact guards_pure
    · exact guards_pure
    · exact (guards_processAll _).bind fun _ => guards_pure
  · exact guards_pure

theorem guards_lambdaHandler (env : Env) (event : Event) :
    Guards (forced event.force) (lambdaHandler env listed event) := by
  obtain ⟨action, instanceId, osName, force⟩ := event
  unfold lambdaHandler
  cases action with
  | stopAllEc2 => exact guards_actionAllEc2 env.configured
  | stopEc2 =>
    cases orText instanceId env.instanceId with
    | none => exact guards_pure
    | some id => exact guards_actionStopEc2.bind fun _ => guards_pure
  | restartEc2 =>
    cases orText instanceId env.instanceId with
    | none => exact guards_pure
    | some id => exact guards_actionRestartEc2.bind fun _ => guards_pure

theorem each_actionAllEc2 {configured : Bool}
    (run : Runs (actionAllEc2 configured listed true json) trace result) :
    (∃ servers success results message, listed = .ok servers ∧
      result = .ok (.all success results message) ∧
      results.map (fun r => r.serverName.getD r.serverId) = (registered servers).map Prod.fst) ↔
    configured = true ∧ (∃ servers, listed = .ok servers) ∧ ∀ entry ∈ trace, ¬ Fatal entry := by
  cases configured with
  | false =>
    obtain ⟨-, rfl⟩ := runs_pure.mp run
    simp
  | true =>
    cases listed with
    | error exc =>
      obtain ⟨-, rfl⟩ := runs_pure.mp run
      simp
    | ok servers =>
      cases servers with
      | nil =>
        obtain ⟨rfl, rfl⟩ := runs_pure.mp run
        have empty : registered [] = [] := by simp [registered, serversByName, Dict.empty]
        exact ⟨fun _ => ⟨rfl, ⟨[], rfl⟩, by simp⟩,
          fun _ => ⟨[], true, [], _, rfl, rfl, by simp [empty]⟩⟩
      | cons first others =>
        have raises := ((raises_processAll true (registered (first :: others))).bind
          fun _ => raisesIff_pure) trace result run
        constructor
        · rintro ⟨servers, success, results, message, same, rfl, -⟩
          refine ⟨rfl, ⟨_, rfl⟩, ?_⟩
          intro entry member bad
          obtain ⟨e, impossible⟩ := raises.mpr ⟨entry, member, bad⟩
          cases impossible
        · rintro ⟨-, -, harmless⟩
          rcases runs_bind.mp run with ⟨t, u, results, rfl, all, last⟩ | ⟨e, -, rfl⟩
          · obtain ⟨-, rfl⟩ := runs_pure.mp last
            exact ⟨_, _, results, none, rfl, rfl, processAll_names all⟩
          · obtain ⟨entry, member, bad⟩ := raises.mp ⟨e, rfl⟩
            exact absurd bad (harmless entry member)

end

theorem handled_iff (env : Env) (listed : Except String (List Server)) (event : Event)
    (trace : Trace) (result : Except Exc Response)
    (run : Runs (lambdaHandler env listed event) trace result) :
    Handled listed event trace result ↔
      (event.action = .stopAllEc2 → env.configured = true ∧ (∃ servers, listed = .ok servers) ∧
        ∀ entry ∈ trace, ¬ Fatal entry) := by
  constructor
  · rintro ⟨-, each⟩ all
    have run' : Runs (actionAllEc2 env.configured listed true event.force) trace result := by
      simpa only [lambdaHandler, all] using run
    exact (each_actionAllEc2 run').mp (each all)
  · intro fine
    refine ⟨guards_lambdaHandler env event [] trace result run, fun all => ?_⟩
    have run' : Runs (actionAllEc2 env.configured listed true event.force) trace result := by
      simpa only [lambdaHandler, all] using run
    exact (each_actionAllEc2 run').mpr (fine all)

def alpha : Server := { serverId := "alpha", ec2InstanceId := some "i-1" }
def beta : Server := { serverId := "beta", ec2InstanceId := some "i-2" }

theorem registered_pair : registered [alpha, beta] = [("alpha", alpha), ("beta", beta)] := by
  have entries : (serversByName [alpha, beta]).entries = [("alpha", alpha), ("beta", beta)] := by
    decide
  rw [registered, entries]
  exact mergeSort_of_pairwise (by decide)

def stopAll : Event := { action := .stopAllEc2, force := some (.num 1) }

def checkCalls (instanceId commandId : String) : Trace :=
  [⟨.describeInstances instanceId, .ok (some .running)⟩,
    ⟨.sendCommand instanceId "AWS-RunShellScript" (processCheck "linux"), .ok commandId⟩,
    ⟨.beforeDeadline, true⟩]

def blockedAndStopped : Trace :=
  checkCalls "i-1" "c-1" ++
    [⟨.getCommandInvocation "c-1" "i-1", .ok ⟨.success, ["4242 python trading/algos/x/main.py"]⟩⟩] ++
    checkCalls "i-2" "c-2" ++
    [⟨.getCommandInvocation "c-2" "i-2", .error (.clientError "InvocationDoesNotExist" "")⟩,
      ⟨.beforeDeadline, true⟩,
      ⟨.getCommandInvocation "c-2" "i-2", .ok ⟨.success, [""]⟩⟩,
      ⟨.stopInstances "i-2", .ok ()⟩]

theorem blockedAndStopped_not_fatal : ∀ entry ∈ blockedAndStopped, ¬ Fatal entry := by
  intro entry member
  simp only [blockedAndStopped, checkCalls, mem_append, mem_cons, not_mem_nil, or_false] at member
  rcases member with
    (((rfl | rfl | rfl) | rfl) | (rfl | rfl | rfl)) | (rfl | rfl | rfl | rfl) <;>
    first
    | exact id
    | (rintro ⟨text, impossible⟩; cases impossible; done)
    | (rintro ⟨e, impossible, -⟩; cases impossible; done)
    | (rintro ⟨e, same, other⟩; cases same; exact other "" rfl)

theorem handled_blockedAndStopped :
    ∃ result, Runs (lambdaHandler { configured := true } (.ok [alpha, beta]) stopAll)
        blockedAndStopped result ∧
      Handled (.ok [alpha, beta]) stopAll blockedAndStopped result := by
  have run : ∃ result, Runs (lambdaHandler { configured := true } (.ok [alpha, beta]) stopAll)
      blockedAndStopped result := by
    simp only [lambdaHandler, stopAll, actionAllEc2, registered_pair]
    exact ⟨_, .call _ (.call _ (.call _ (.call _ (.call _ (.call _ (.call _ (.call _ (.call _
      (.call _ (.call _ (.ret _)))))))))))⟩
  obtain ⟨result, run⟩ := run
  refine ⟨result, run, (handled_iff _ _ _ _ _ run).mpr ?_⟩
  intro _
  exact ⟨rfl, ⟨_, rfl⟩, blockedAndStopped_not_fatal⟩

def throttled : Trace :=
  checkCalls "i-1" "c-1" ++
    [⟨.getCommandInvocation "c-1" "i-1", .error (.clientError "ThrottlingException" "")⟩]

theorem throttled_not_handled :
    ∃ result, Runs (lambdaHandler { configured := true } (.ok [alpha, beta]) stopAll)
        throttled result ∧ ¬ Handled (.ok [alpha, beta]) stopAll throttled result := by
  refine ⟨.error (.aws (.clientError "ThrottlingException" "")), ?_, ?_⟩
  · simp only [lambdaHandler, stopAll, actionAllEc2, registered_pair]
    exact .call _ (.call _ (.call _ (.call _ (.raise _))))
  · intro handled
    obtain ⟨_, _, _, _, _, impossible, _⟩ := handled.each rfl
    cases impossible

end AlgoSystem.Proof.Lambda

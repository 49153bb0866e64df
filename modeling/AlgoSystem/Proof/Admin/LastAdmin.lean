import AlgoSystem.Admin.Users

namespace AlgoSystem.Proof.Admin
open AlgoSystem.Admin General List

variable {user : User} {body : UpdateUserIn} {users' : List User} {s : State} {changes : Changes}

def takesAway (role : Option Role) (isActive : Option Bool) : Bool :=
  (role.any fun role => role ≠ .admin) || isActive = some false

def takes (request : Request) : Option Nat :=
  match request.pc with
  | .checkActive user _ role => if takesAway role none then some user.id else none
  | .commit user changes =>
    if takesAway changes.role changes.isActive then some user.id else none
  | .entry | .find | .checkRole _ _ | .checkDeactivate _ | .done | .refused _ | .failed => none

def demotes (user : User) (body : UpdateUserIn) : Bool :=
  body.role.any fun name =>
    name ≠ user.role.name && Role.all.any fun role => role.name = name && role ≠ .admin

def asks (request : Request) : Option (User × Role) :=
  match request.pc with
  | .checkRole user body => if demotes user body then some (user, user.role) else none
  | .checkActive user body role =>
    if body.isActive = some false && user.isActive && user.id ≠ request.adminId then
      some (user, role.getD user.role)
    else none
  | .checkDeactivate user =>
    if user.isActive && user.id ≠ request.adminId then some (user, user.role) else none
  | .entry | .find | .commit _ _ | .done | .refused _ | .failed => none

def spare (s : State) (id : Nat) : Bool :=
  s.shared.any fun user =>
    user.activeAdmin && user.id ≠ id && s.threads.all fun request => takes request ≠ some user.id

/-- When a check lets a request take role or activity from a user, an active admin is left. -/
def spared (s : State) : Event → Bool
  | .act i .proceed => s.threads[i]?.all fun request =>
    (asks request).all fun asked => lastAdmin s.shared asked.1 asked.2 || spare s asked.1.id
  | _ => true

variable {users : List User} {request request' : Request} {choice : Choice}

inductive Move (users : List User) (request : Request) (choice : Choice) (users' : List User)
    (request' : Request) : Prop where
  | keeps (same : users' = users) (taken : takes request' = none ∨ takes request' = takes request)
  | decides (user : User) (role : Role) (same : users' = users) (proceeds : choice = .proceed)
      (asked : asks request = some (user, role)) (passed : lastAdmin users user role = false)
      (taken : takes request' = some user.id)
  | writes (user : User) (changes : Changes) (committing : request.pc = .commit user changes)
      (written : users' = write users user.id changes) (taken : takes request' = none)

theorem takes_collect (request : Request) (user : User) (body : UpdateUserIn) (role : Option Role)
    (isActive : Option Bool) :
    takes (request.goto (collect user body role isActive)) = none ∨
      takesAway role isActive = true ∧
        takes (request.goto (collect user body role isActive)) = some user.id := by
  unfold collect
  dsimp only
  split
  · by_cases away : takesAway role isActive <;> simp [takes, Request.goto, away]
  · split
    · exact .inl rfl
    · by_cases away : takesAway role isActive <;> simp [takes, Request.goto, away]

theorem move_checkRole (before : request.pc = .checkRole user body) :
    Move users request .proceed users (request.goto (checkRole users user body)) := by
  unfold checkRole
  split
  · exact .keeps rfl (.inl rfl)
  · next name given =>
    split_ifs with same
    · exact .keeps rfl (.inl rfl)
    · split
      · exact .keeps rfl (.inl rfl)
      · next role named =>
        split_ifs with last
        · exact .keeps rfl (.inl rfl)
        · by_cases demoted : role = .admin
          · exact .keeps rfl (.inl (by simp [takes, Request.goto, takesAway, demoted]))
          · have present : demotes user body = true := by
              have listed := mem_of_find?_eq_some named
              have name_eq := find?_some named
              simp only [demotes, given, Option.any_some, Bool.and_eq_true, decide_eq_true_eq,
                any_eq_true]
              exact ⟨same, role, listed, of_decide_eq_true name_eq, demoted⟩
            refine .decides user user.role rfl rfl (by simp [asks, before, present]) ?_ ?_
            · simpa [demoted] using last
            · simp [takes, Request.goto, takesAway, demoted]

theorem move_checkActive {role : Option Role} (before : request.pc = .checkActive user body role) :
    Move users request .proceed users
      (request.goto (checkActive users request.adminId user body role)) := by
  -- a request that does not deactivate takes away what it did before
  have keeps : ∀ isActive, isActive ≠ some false →
      Move users request .proceed users (request.goto (collect user body role isActive)) := by
    intro isActive active
    obtain nothing | ⟨away, taken⟩ := takes_collect request user body role isActive
    · exact .keeps rfl (.inl nothing)
    · have demoted : takesAway role none = true := by simpa [takesAway, active] using away
      exact .keeps rfl (.inr (taken.trans (by simp [takes, before, demoted])))
  unfold checkActive
  split
  · exact keeps none nofun
  · next isActive given =>
    split_ifs with same active own last
    · exact keeps none nofun
    · exact keeps (some true) (by simp)
    · exact .keeps rfl (.inl rfl)
    · exact .keeps rfl (.inl rfl)
    · have deactivated : isActive = false := by simpa using active
      subst deactivated
      obtain nothing | ⟨_, taken⟩ := takes_collect request user body role (some false)
      · exact .keeps rfl (.inl nothing)
      · refine .decides user (role.getD user.role) rfl rfl ?_ (by simpa using last) taken
        have present : user.isActive = true := by simpa using same
        simp [asks, before, given, present, own]

theorem move_checkDeactivate (before : request.pc = .checkDeactivate user) :
    Move users request .proceed users
      (request.goto (checkDeactivate users request.adminId user)) := by
  unfold checkDeactivate
  split_ifs with own last
  · exact .keeps rfl (.inl rfl)
  · exact .keeps rfl (.inl rfl)
  · by_cases active : user.isActive = true
    · refine .decides user user.role rfl rfl (by simp [asks, before, active, own])
        (by simpa using last) ?_
      simp [takes, Request.goto, takesAway, changed, active]
    · exact .keeps rfl (.inl (by simp [takes, Request.goto, takesAway, changed, active]))

theorem takes_authorize (users : List User) (request : Request) :
    takes (request.goto (authorize users request.adminId)) = none := by
  unfold authorize
  split
  · rfl
  · split_ifs <;> rfl

theorem takes_findUser (users : List User) (request : Request) :
    takes (request.goto (findUser users request.userId request.body)) = none := by
  unfold findUser
  split
  · rfl
  · split <;> rfl

theorem move_act (acted : act users request choice = some (users', request')) :
    Move users request choice users' request' := by
  cases choice with
  | proceed =>
    cases pc : request.pc <;> simp only [act, pc] at acted <;> cases acted
    case entry.refl => exact .keeps rfl (.inl (takes_authorize _ request))
    case find.refl => exact .keeps rfl (.inl (takes_findUser _ request))
    case checkRole.refl => exact move_checkRole pc
    case checkActive.refl => exact move_checkActive pc
    case checkDeactivate.refl => exact move_checkDeactivate pc
    case commit.refl user changes => exact .writes user changes pc rfl rfl
  | abort =>
    simp only [act] at acted
    split at acted <;> cases acted
    exact .keeps rfl (.inl rfl)

def Safe (s : State) : Prop :=
  ∃ admin ∈ s.shared, admin.activeAdmin = true ∧
    ∀ request ∈ s.threads, takes request ≠ some admin.id

theorem activeAdmin_apply (active : user.activeAdmin = true)
    (harmless : takesAway changes.role changes.isActive = false) :
    (changes.apply user).activeAdmin = true := by
  obtain ⟨role, isActive⟩ : user.role = .admin ∧ user.isActive = true := by
    simpa [User.activeAdmin] using active
  obtain ⟨kept, stays⟩ := by simpa [takesAway] using harmless
  have roleKept : (changes.apply user).role = .admin := by
    cases given : changes.role with
    | none => simp [Changes.apply, given, role]
    | some new =>
      rw [given] at kept
      simpa [Changes.apply, given] using kept
  have activeKept : (changes.apply user).isActive = true := by
    cases given : changes.isActive with
    | none => simp [Changes.apply, given, isActive]
    | some new =>
      cases new with
      | true => simp [Changes.apply, given]
      | false => exact absurd given stays
  simp [User.activeAdmin, roleKept, activeKept]

theorem safe_act {i : Nat} (safe : Safe s) (found : s.threads[i]? = some request)
    (allowed : spared s (.act i choice) = true)
    (move : Move s.shared request choice users' request') :
    Safe { shared := users', threads := s.threads.set i request' } := by
  have own := mem_of_getElem? found
  -- it is enough to name an admin that the request itself leaves alone
  have finish : ∀ admin ∈ users', admin.activeAdmin = true →
      (∀ other ∈ s.threads, takes other ≠ some admin.id) → takes request' ≠ some admin.id →
      Safe { shared := users', threads := s.threads.set i request' } := by
    intro admin present active others untaken
    refine ⟨admin, present, active, ?_⟩
    intro other mem
    obtain old | rfl := mem_or_eq_of_mem_set mem
    · exact others other old
    · exact untaken
  obtain ⟨admin, present, active, untaken⟩ := safe
  cases move with
  | keeps same taken =>
    subst same
    refine finish admin present active untaken ?_
    obtain nothing | kept := taken
    · simp [nothing]
    · exact kept ▸ untaken request own
  | decides user role same proceeds asked passed taken =>
    subst same proceeds
    have left : spare s user.id = true := by
      simpa [spared, found, asked, passed] using allowed
    obtain ⟨other, present, active, different, untaken⟩ := by
      simpa [spare, and_assoc] using left
    refine finish other present active untaken ?_
    rw [taken]
    exact fun same => different (Option.some.inj same).symm
  | writes user changes committing written taken =>
    subst written
    by_cases same : admin.id = user.id
    · have harmless : takesAway changes.role changes.isActive = false := by
        by_contra away
        have taking : takes request = some user.id := by simpa [takes, committing] using away
        exact untaken request own (same ▸ taking)
      refine finish (changes.apply admin) ?_ (activeAdmin_apply active harmless) untaken ?_
      · exact mem_map.mpr ⟨admin, present, by simp [same]⟩
      · simp [taken]
    · refine finish admin ?_ active untaken (by simp [taken])
      exact mem_map.mpr ⟨admin, present, by simp [same]⟩

theorem safe_step (s : State) (event : Event) (t : State) (safe : Safe s)
    (allowed : spared s event = true) (stepped : server.step s event = some t) : Safe t := by
  cases event with
  | enter call =>
    cases stepped
    obtain ⟨admin, present, active, untaken⟩ := safe
    refine ⟨admin, present, active, ?_⟩
    intro request mem
    obtain old | last := mem_append.mp mem
    · exact untaken request old
    · cases mem_singleton.mp last
      exact nofun
  | act i choice =>
    obtain ⟨request, users', request', found, acted, rfl⟩ :=
      ThreadSystem.step_act_eq_some stepped
    exact safe_act safe found allowed (move_act acted)
  | env user =>
    obtain ⟨users', created, rfl⟩ := Option.map_eq_some_iff.mp stepped
    simp only [server, createUser, Option.ite_none_left_eq_some, Option.some.injEq] at created
    obtain ⟨_, rfl⟩ := created
    obtain ⟨admin, present, active, untaken⟩ := safe
    exact ⟨admin, mem_append_left _ present, active, untaken⟩
  | reset =>
    cases stepped
    obtain ⟨admin, present, active, _⟩ := safe
    exact ⟨admin, present, active, by simp⟩

theorem activeAdmin_remains (users : List User) (events : List Event) (t : State)
    (initial : ∃ user ∈ users, user.activeAdmin = true)
    (path : run server.step { shared := users } events = some t)
    (meets : Meets server.step (fun s event => spared s event = true) { shared := users } events) :
    ∃ user ∈ t.shared, user.activeAdmin = true := by
  obtain ⟨admin, present, active⟩ := initial
  have start : Safe { shared := users } := ⟨admin, present, active, by simp⟩
  obtain ⟨user, remains, stays, _⟩ := run_invariant_of_meets safe_step path meets start
  exact ⟨user, remains, stays⟩

def admins : List User := [{ id := 1, role := .admin }, { id := 2, role := .admin }]

def demotion (adminId userId : Nat) : Call :=
  { adminId, userId, body := .update { role := some "viewer" } }

def proceeds (i count : Nat) : List Event := List.replicate count (.act i .proceed)

def inTurn : List Event :=
  [.enter (demotion 1 2)] ++ proceeds 0 5 ++ [.enter (demotion 1 1)] ++ proceeds 1 3 ++
    [.enter { adminId := 1, userId := 1, body := .deactivate }] ++ proceeds 2 3

theorem activeAdmin_inTurn :
    ∃ t, run server.step { shared := admins } inTurn = some t ∧
      t.threads.map Request.pc =
        [.done, .refused .demotesLastAdmin, .refused .ownAccount] ∧
      ∃ user ∈ t.shared, user.activeAdmin = true := by
  have outcome : (run server.step { shared := admins } inTurn).map
      (fun t => t.threads.map Request.pc) =
      some [.done, .refused .demotesLastAdmin, .refused .ownAccount] := by decide +kernel
  obtain ⟨t, path, answers⟩ := Option.map_eq_some_iff.mp outcome
  exact ⟨t, path, answers, activeAdmin_remains admins inTurn t (by decide) path
    (by decide +kernel)⟩

def eachOther : List Event :=
  [.enter (demotion 1 2), .enter (demotion 2 1)] ++ proceeds 0 3 ++ proceeds 1 3 ++
    proceeds 0 2 ++ proceeds 1 2

theorem eachOther_no_activeAdmin :
    ∃ t, run server.step { shared := admins } eachOther = some t ∧
      t.threads.map Request.pc = [.done, .done] ∧
      (∃ user ∈ admins, user.activeAdmin = true) ∧
      ¬ ∃ user ∈ t.shared, user.activeAdmin = true := by
  have outcome : (run server.step { shared := admins } eachOther).map
      (fun t => (t.threads.map Request.pc, t.shared.any User.activeAdmin)) =
      some ([.done, .done], false) := by decide +kernel
  obtain ⟨t, path, seen⟩ := Option.map_eq_some_iff.mp outcome
  obtain ⟨answers, nobody⟩ := Prod.mk.inj seen
  refine ⟨t, path, answers, by decide, ?_⟩
  rintro ⟨user, present, active⟩
  exact any_eq_false.mp nobody user present active

end AlgoSystem.Proof.Admin

import AlgoSystem.RateLimit.Login
import AlgoSystem.Proof.RateLimit.Window

namespace AlgoSystem.Proof.RateLimit.LoginGuard
open AlgoSystem.RateLimit RateLimit.Login General List

def attemptKey (config : Config) (attempt : Attempt) : Key :=
  ⟨config.subjectHash (subject config attempt), windowEpoch config.limits attempt.now⟩

def on (config : Config) (name : String) (attempt : Attempt) : Bool :=
  config.lower attempt.username = name

def reached (config : Config) (name : String) (results : List (Attempt × Answer)) : Nat :=
  results.countP fun result => on config name result.1 && result.2.verified

structure Opens (config : Config) (start : Nat) (table : Table) (attempts : List Attempt) :
    Prop where
  unused : ∀ key : Key, key.windowStart = start → table.counts.get? key = none
  within : ∀ attempt ∈ attempts, windowEpoch config.limits attempt.now = start

variable {config : Config} {accounts : List Account} {table : Table}

theorem verified_verify (config : Config) (accounts : List Account) (attempt : Attempt) :
    (verify config accounts attempt).verified = true := by
  unfold verify
  split
  · rfl
  · split_ifs <;> rfl

theorem consume_cases (limits : Limits) (positive : 1 ≤ limits.maxRequests) (table : Table)
    (call : Call) :
    let key : Key := ⟨call.subjectHash, windowEpoch limits call.now⟩
    (stored table key < limits.maxRequests ∧
        consume limits table call = (table.save key (stored table key + 1), .allowed)) ∨
      limits.maxRequests ≤ stored table key ∧
        consume limits table call = (table, .denied (retryAfter limits call.now)) := by
  intro key
  have same : ∀ pc, (Consume.mk call pc).key limits = key := fun _ => rfl
  cases found : table.counts.get? key with
  | none =>
    refine .inl ⟨?_, ?_⟩
    · have room : 0 < limits.maxRequests := positive
      simpa [stored, found] using room
    · simp [consume, finish, act, same, found, Consume.goto, stored]
  | some count =>
    by_cases full : limits.maxRequests ≤ count
    · refine .inr ⟨?_, ?_⟩
      · simpa [stored, found] using full
      · simp [consume, finish, act, same, found, judge, full, Consume.goto]
    · refine .inl ⟨?_, ?_⟩
      · simpa [stored, found] using full
      · simp [consume, finish, act, same, found, judge, full, Consume.goto, stored]

theorem login_cases (config : Config) (positive : 1 ≤ config.limits.maxRequests)
    (accounts : List Account) (table : Table) (attempt : Attempt) :
    let key := attemptKey config attempt
    (stored table key < config.limits.maxRequests ∧
        (login config accounts table attempt).1 = table.save key (stored table key + 1) ∧
        (login config accounts table attempt).2.verified = true) ∨
      config.limits.maxRequests ≤ stored table key ∧
        (login config accounts table attempt).1 = table ∧
        (login config accounts table attempt).2.verified = false := by
  intro key
  obtain ⟨room, consumed⟩ | ⟨full, consumed⟩ :=
    consume_cases config.limits positive table (call config attempt)
  · refine .inl ⟨room, ?_⟩
    unfold login
    rw [consumed]
    exact ⟨rfl, verified_verify config accounts attempt⟩
  · refine .inr ⟨full, ?_⟩
    unfold login
    rw [consumed]
    exact ⟨rfl, rfl⟩

theorem map_fst_logins (config : Config) (accounts : List Account) (table : Table)
    (attempts : List Attempt) :
    (logins config accounts table attempts).map Prod.fst = attempts := by
  induction attempts generalizing table with
  | nil => rfl
  | cons attempt rest ih => simp [logins, ih]

theorem passed_key (positive : 1 ≤ config.limits.maxRequests) (key : Key)
    (attempts : List Attempt) :
    (logins config accounts table attempts).countP
        (fun result => result.2.verified && attemptKey config result.1 = key) =
      min (config.limits.maxRequests - stored table key)
        (attempts.countP fun attempt => attemptKey config attempt = key) := by
  induction attempts generalizing table with
  | nil => simp [logins]
  | cons attempt rest ih =>
    simp only [logins, countP_cons, ih]
    by_cases own : attemptKey config attempt = key
    · subst own
      obtain ⟨room, saved, passed⟩ | ⟨full, same, denied⟩ :=
        login_cases config positive accounts table attempt
      · rw [saved, passed, stored_save]
        simp
        omega
      · rw [same, denied]
        simp
        omega
    · have kept : stored (login config accounts table attempt).1 key = stored table key := by
        obtain ⟨_, saved, _⟩ | ⟨_, same, _⟩ := login_cases config positive accounts table attempt
        · rw [saved, stored_save, if_neg (Ne.symm own)]
        · rw [same]
      simp [kept, own]

theorem countP_logins (config : Config) (accounts : List Account) (table : Table)
    (attempts : List Attempt) (p : Attempt → Bool) :
    (logins config accounts table attempts).countP (fun result => p result.1) =
      attempts.countP p := by
  have mapped : (logins config accounts table attempts).countP (fun result => p result.1) =
      ((logins config accounts table attempts).map Prod.fst).countP p := countP_map.symm
  rw [mapped, map_fst_logins]

theorem mem_logins {attempts : List Attempt} {result : Attempt × Answer}
    (mem : result ∈ logins config accounts table attempts) : result.1 ∈ attempts := by
  rw [← map_fst_logins config accounts table attempts]
  exact mem_map_of_mem mem

variable {name : String} {start : Nat} {attempts own : List Attempt}

theorem Opens.passed_key (opens : Opens config start table attempts) (accounts : List Account)
    (positive : 1 ≤ config.limits.maxRequests) (key : Key) (here : key.windowStart = start) :
    (logins config accounts table attempts).countP
        (fun result => result.2.verified && attemptKey config result.1 = key) =
      min config.limits.maxRequests
        (attempts.countP fun attempt => attemptKey config attempt = key) := by
  have empty : stored table key = 0 := by
    rw [stored, opens.unused key here]
    rfl
  rw [LoginGuard.passed_key positive, empty, Nat.sub_zero]

theorem reached_le_length (config : Config) (accounts : List Account) (table : Table)
    (name : String) (attempts : List Attempt) :
    reached config name (logins config accounts table attempts) ≤
      (attempts.filter (on config name)).length := by
  rw [← countP_eq_length_filter, ← countP_logins config accounts table]
  exact countP_mono_left fun result _ both => (Bool.and_eq_true_iff.mp both).1

section
variable (opens : Opens config start table attempts) (positive : 1 ≤ config.limits.maxRequests)
include opens positive

theorem Opens.reached_le_of_key (key : Key) (here : key.windowStart = start)
    (shared : ∀ attempt ∈ attempts, on config name attempt = true → attemptKey config attempt = key) :
    reached config name (logins config accounts table attempts) ≤ config.limits.maxRequests := by
  calc reached config name (logins config accounts table attempts)
      ≤ (logins config accounts table attempts).countP
          (fun result => result.2.verified && attemptKey config result.1 = key) := by
        apply countP_mono_left
        intro result mem both
        obtain ⟨named, passed⟩ := Bool.and_eq_true_iff.mp both
        simp [passed, shared result.1 (mem_logins mem) named]
    _ ≤ config.limits.maxRequests := by
        rw [opens.passed_key accounts positive key here]
        exact Nat.min_le_left _ _

theorem Opens.all_verified
    (few : ∀ key, (attempts.countP fun attempt => attemptKey config attempt = key) ≤ config.limits.maxRequests) :
    ∀ result ∈ logins config accounts table attempts, result.2.verified = true := by
  intro result mem
  have here : (attemptKey config result.1).windowStart = start :=
    opens.within result.1 (mem_logins mem)
  have passed := opens.passed_key accounts positive (attemptKey config result.1) here
  rw [Nat.min_eq_right (few _), ← countP_logins config accounts table] at passed
  exact forall_of_countP_and_eq passed result mem (by simp)

end

theorem reached_of_all_verified
    (named : ∀ attempt ∈ attempts, on config name attempt = true)
    (all : ∀ result ∈ logins config accounts table attempts, result.2.verified = true) :
    reached config name (logins config accounts table attempts) = attempts.length := by
  have whole : reached config name (logins config accounts table attempts) =
      (logins config accounts table attempts).length := by
    apply countP_eq_length.mpr
    intro result mem
    simp [all result mem, named result.1 (mem_logins mem)]
  rw [whole, ← length_map Prod.fst, map_fst_logins]

section
variable (opens : Opens config start table attempts) (accounts)
  (positive : 1 ≤ config.limits.maxRequests)
  (named : ∀ attempt ∈ attempts, on config name attempt = true)
include opens positive named

theorem Opens.max_lt_reached (many : config.limits.maxRequests < attempts.length) {a b : Attempt}
    (first : a ∈ attempts) (second : b ∈ attempts)
    (different : attemptKey config a ≠ attemptKey config b) :
    config.limits.maxRequests <
      reached config name (logins config accounts table attempts) := by
  by_cases few : ∀ key, (attempts.countP fun attempt => attemptKey config attempt = key) ≤
      config.limits.maxRequests
  · rw [reached_of_all_verified named (opens.all_verified positive few)]
    exact many
  · -- one row is full, and an attempt under the other key passes as well
    obtain ⟨full, crowded⟩ := Classical.not_forall.mp few
    have crowded := Nat.lt_of_not_le crowded
    have other : ∃ c ∈ attempts, attemptKey config c ≠ full := by
      by_cases same : attemptKey config a = full
      · exact ⟨b, second, fun eq => different (same.trans eq.symm)⟩
      · exact ⟨a, first, same⟩
    obtain ⟨c, third, apart⟩ := other
    have present : ∃ d ∈ attempts, attemptKey config d = full := by
      simpa using countP_pos_iff.mp (Nat.zero_lt_of_lt crowded)
    obtain ⟨d, mem, rfl⟩ := present
    have filled := opens.passed_key accounts positive (attemptKey config d)
      (opens.within d mem)
    have passed := opens.passed_key accounts positive (attemptKey config c)
      (opens.within c third)
    have counted : 0 < attempts.countP fun attempt =>
        attemptKey config attempt = attemptKey config c :=
      countP_pos_iff.mpr ⟨c, third, by simp⟩
    have sum := countP_add_countP_le (l := logins config accounts table attempts)
      (p := fun result => result.2.verified && attemptKey config result.1 = attemptKey config d)
      (q := fun result => result.2.verified && attemptKey config result.1 = attemptKey config c)
      (r := fun result => on config name result.1 && result.2.verified)
      (fun result mem both => by
        simp_all [named result.1 (mem_logins mem)])
      (fun result mem both => by
        simp_all [named result.1 (mem_logins mem)])
      (fun result _ one two => by
        simp only [Bool.and_eq_true, decide_eq_true_eq] at one two
        exact apart (two.2.symm.trans one.2))
    unfold reached
    omega

theorem Opens.reached_eq_of_key {a : Attempt} (first : a ∈ attempts)
    (same : ∀ attempt ∈ attempts, attemptKey config attempt = attemptKey config a) :
    reached config name (logins config accounts table attempts) =
      min config.limits.maxRequests attempts.length := by
  have all : (attempts.countP fun attempt => attemptKey config attempt = attemptKey config a) =
      attempts.length := by
    apply countP_eq_length.mpr
    intro attempt mem
    simp [same attempt mem]
  have passed := opens.passed_key accounts positive (attemptKey config a) (opens.within a first)
  rw [← all, ← passed]
  apply countP_congr
  intro result mem
  have member := mem_logins mem
  simp [named result.1 member, same result.1 member]

end

theorem reached_le_iff (config : Config) (positive : 1 ≤ config.limits.maxRequests)
    (accounts : List Account) (name : String) (start : Nat) (own : List Attempt)
    (named : ∀ attempt ∈ own, on config name attempt = true)
    (within : ∀ attempt ∈ own, windowEpoch config.limits attempt.now = start) :
    ((∀ table attempts, Opens config start table attempts → attempts.filter (on config name) = own →
        reached config name (logins config accounts table attempts) ≤ config.limits.maxRequests) ∧
      ∀ table, Opens config start table own →
        reached config name (logins config accounts table own) =
          min config.limits.maxRequests own.length) ↔
    own.length ≤ config.limits.maxRequests ∨
      ∀ a ∈ own, ∀ b ∈ own,
        config.subjectHash (subject config a) = config.subjectHash (subject config b) := by
  have key_iff : ∀ a ∈ own, ∀ b ∈ own, attemptKey config a = attemptKey config b ↔
      config.subjectHash (subject config a) = config.subjectHash (subject config b) := by
    intro a first b second
    simp [attemptKey, within a first, within b second]
  constructor
  · rintro ⟨bounded, _⟩
    by_contra varied
    obtain ⟨many, varied⟩ := not_or.mp varied
    simp only [Classical.not_forall] at varied
    obtain ⟨a, first, b, second, different⟩ := varied
    have opens : Opens config start {} own := ⟨fun _ _ => rfl, within⟩
    have whole : own.filter (on config name) = own := filter_eq_self.mpr named
    have exceeded := opens.max_lt_reached accounts positive named (Nat.lt_of_not_le many) first
      second ((key_iff a first b second).not.mpr different)
    exact Nat.not_lt.mpr (bounded {} own opens whole) exceeded
  · intro allowed
    constructor
    · rintro table attempts opens rfl
      obtain few | same := allowed
      · exact Nat.le_trans (reached_le_length config accounts table name attempts) few
      · by_cases empty : attempts.filter (on config name) = []
        · have nothing := reached_le_length config accounts table name attempts
          rw [empty] at nothing
          exact Nat.le_trans nothing (Nat.zero_le _)
        · obtain ⟨a, first⟩ := exists_mem_of_ne_nil _ empty
          apply opens.reached_le_of_key positive (attemptKey config a) (within a first)
          intro attempt mem here
          have member := mem_filter.mpr ⟨mem, here⟩
          exact (key_iff attempt member a first).mpr (same attempt member a first)
    · intro table opens
      obtain few | same := allowed
      · rw [Nat.min_eq_right few]
        apply reached_of_all_verified named
        apply opens.all_verified positive
        intro key
        exact Nat.le_trans countP_le_length few
      · by_cases empty : own = []
        · subst empty
          exact (Nat.min_zero _).symm
        · obtain ⟨a, first⟩ := exists_mem_of_ne_nil _ empty
          apply opens.reached_eq_of_key accounts positive named first
          intro attempt mem
          exact (key_iff attempt mem a first).mpr (same attempt mem a first)

def threeAttempts : Config where
  lower := id
  subjectHash := id
  verifyPassword password hash := password = hash
  limits := { maxRequests := 3, windowSeconds := 300 }
  clientHost := some "203.0.113.9"

def bob : List Account := [{ username := "bob", passwordHash := "secret" }]

def guess (password : String) (xForwardedFor : Option String) : Attempt :=
  { username := "bob", password, xForwardedFor, now := 1000000 }

def sameHop : List Attempt :=
  [guess "a" none, guess "b" none, guess "c" none, guess "d" none, guess "secret" none]

theorem reached_sameHop : reached threeAttempts "bob" (logins threeAttempts bob {} sameHop) = 3 := by
  have opens : Opens threeAttempts 0 {} sameHop := ⟨fun _ _ => rfl, by decide +kernel⟩
  have guarded := (reached_le_iff threeAttempts (by decide) bob "bob" 0 sameHop (by decide +kernel)
    (by decide +kernel)).mpr (.inr (by decide +kernel))
  exact guarded.2 {} opens

def changingHop : List Attempt :=
  [guess "a" (some "10.0.0.1"), guess "b" (some "10.0.0.2"), guess "c" (some "10.0.0.3"),
    guess "d" (some "10.0.0.4"), guess "secret" (some "10.0.0.5")]

theorem changingHop_all_reached :
    reached threeAttempts "bob" (logins threeAttempts bob {} changingHop) = 5 ∧
      (logins threeAttempts bob {} changingHop).map Prod.snd =
        [.unauthorized .badCredentials, .unauthorized .badCredentials,
          .unauthorized .badCredentials, .unauthorized .badCredentials, .signedIn] ∧
      (logins threeAttempts bob {} sameHop).map Prod.snd =
        [.unauthorized .badCredentials, .unauthorized .badCredentials,
          .unauthorized .badCredentials, .tooManyRequests 299, .tooManyRequests 299] := by
  decide +kernel

end AlgoSystem.Proof.RateLimit.LoginGuard

import UnifiedApi.Adapters.Http.Error
import UnifiedApi.Domain.Ldap
import UnifiedApi.Lib.Runs
import UnifiedApi.Lib.Slots

/-! # Directory logins beside reloads

A login reads the configuration, waits for the directory and opens a session with
what the rules it read granted. A reload swaps the configuration and then, when
the `ldap` block changed, ends the directory's sessions. Any number of both run
at once. -/

namespace UnifiedApi

variable (ruleNames : List String → List String → String → List String → Bool)

def Grant.permissions : Grant → Permissions
  | .admin => .admin
  | .scoped sources endpoints => .scoped sources endpoints

/-- A session opened by a directory login, with the settings that granted it. -/
structure DirectorySession where
  settings : LdapConfig
  username : String
  memberOf : List String
  permissions : Permissions
  granted : (grantFor ruleNames settings.access username memberOf).map Grant.permissions =
    some permissions
  deriving DecidableEq

inductive Session where
  | apiKey (id : String)
  | directory (session : DirectorySession ruleNames)
  deriving DecidableEq

def Session.isDirectory {ruleNames} : Session ruleNames → Bool
  | .apiKey _ => false
  | .directory _ => true

/-- The store of the browser sessions: what each operation leaves alive. -/
structure SessionStore (Store : Type) where
  live : Store → List (Session ruleNames)
  empty : Store
  openDirectory : Store → DirectorySession ruleNames → Store
  endDirectorySessions : Store → Store
  live_empty : live empty = []
  mem_openDirectory : ∀ store opened session,
    session ∈ live (openDirectory store opened) ↔
      session = .directory opened ∨ session ∈ live store
  mem_endDirectorySessions : ∀ store session,
    session ∈ live (endDirectorySessions store) ↔
      session ∈ live store ∧ session.isDirectory = false

inductive LoginPhase where
  /-- The form was offered with LDAP and has come back. -/
  | submitted
  | asking (ldap : LdapConfig)
  | granted (session : DirectorySession ruleNames)
  | signedIn
  | unavailable (message : String)
  /-- By the directory, the throttle or the rules. -/
  | refused
  deriving DecidableEq

/-- The answer of the directory, judged by the rules the login has read. -/
def LoginPhase.judge (ldap : LdapConfig) (username : String) (memberOf : List String) :
    LoginPhase ruleNames :=
  match h : grantFor ruleNames ldap.access username memberOf with
  | some grant => .granted ⟨ldap, username, memberOf, grant.permissions, by rw [h]; rfl⟩
  | none => .refused

/-- A reload, from its swap on. -/
structure LdapReload where
  previous : Option LdapConfig
  next : Option LdapConfig
  completed : Bool := false
  deriving DecidableEq

/-- The reload is going to end the directory's sessions. -/
def LdapReload.pending (reload : LdapReload) : Bool :=
  !reload.completed && decide (reload.previous ≠ reload.next)

structure LoginState (Store : Type) where
  ldap : Option LdapConfig
  sessions : Store
  logins : List (LoginPhase ruleNames) := []
  reloads : List LdapReload := []
  deriving DecidableEq

inductive LoginLabel (Store : Type) where
  | submit
  | read (login : Nat)
  | answer (login : Nat) (username : String) (memberOf : List String)
  | refuse (login : Nat)
  | openSession (login : Nat)
  /-- Sessions expire or are logged out of; keys sign in or are revoked. -/
  | others (sessions : Store)
  | swap (next : Option LdapConfig)
  | endSessions (reload : Nat)

namespace LoginState

variable {ruleNames} {Store : Type}

def setLogin (s : LoginState ruleNames Store) (i : Nat) (phase : LoginPhase ruleNames) :
    LoginState ruleNames Store :=
  { s with logins := s.logins.set i phase }

/-- What a login finds when it reads the configuration. It is asked only where
LDAP was enabled; a reload in between is the one way to find none. -/
def readPhase (s : LoginState ruleNames Store) : LoginPhase ruleNames :=
  match s.ldap with
  | some ldap => .asking ldap
  | none => .unavailable "LDAP login was turned off by a reload"

variable (store : SessionStore ruleNames Store)

def step (s : LoginState ruleNames Store) : LoginLabel Store → Option (LoginState ruleNames Store)
  | .submit => if s.ldap.isSome then some { s with logins := s.logins ++ [.submitted] } else none
  | .read i => s.logins[i]?.bind fun
    | .submitted => some (s.setLogin i s.readPhase)
    | _ => none
  | .answer i username memberOf => s.logins[i]?.bind fun
    | .asking ldap => some (s.setLogin i (.judge ruleNames ldap username memberOf))
    | _ => none
  | .refuse i => s.logins[i]?.bind fun
    | .asking _ => some (s.setLogin i .refused)
    | _ => none
  | .openSession i => s.logins[i]?.bind fun
    | .granted session => some { s.setLogin i .signedIn with
        sessions := store.openDirectory s.sessions session }
    | _ => none
  | .others sessions =>
    if ∀ session ∈ store.live sessions, session.isDirectory = true →
        session ∈ store.live s.sessions then
      some { s with sessions }
    else none
  | .swap next => some { s with ldap := next, reloads := s.reloads ++ [⟨s.ldap, next, false⟩] }
  | .endSessions i => s.reloads[i]?.bind fun reload =>
    if reload.completed then none
    else some { s with
      sessions :=
        if reload.previous ≠ reload.next then store.endDirectorySessions s.sessions
        else s.sessions
      reloads := s.reloads.set i { reload with completed := true } }

/-- Before any login or reload. -/
def start (ldap : Option LdapConfig) : LoginState ruleNames Store :=
  { ldap, sessions := store.empty }

/-- A reload has changed the settings and has yet to end the sessions. -/
def EndToCome (s : LoginState ruleNames Store) : Prop :=
  ∃ reload ∈ s.reloads, reload.pending = true

/-- A session is opened while the settings that granted it are in force, or the
directory's sessions are still going to be ended. -/
def Timely (s : LoginState ruleNames Store) : LoginLabel Store → Prop
  | .openSession i => ∀ session, s.logins[i]? = some (.granted session) →
      s.ldap = some session.settings ∨ s.EndToCome
  | _ => True

/-- Every live session of the directory was granted by the settings in force. -/
def FollowsRules (s : LoginState ruleNames Store) : Prop :=
  ∀ session, .directory session ∈ store.live s.sessions → s.ldap = some session.settings

/-! ## The invariant -/

/-- The sessions that are not of the settings in force are going to end. -/
def Inv (s : LoginState ruleNames Store) : Prop :=
  ∀ session, .directory session ∈ store.live s.sessions →
    s.ldap = some session.settings ∨ s.EndToCome

variable {store} {s : LoginState ruleNames Store}

theorem Inv.start (ldap : Option LdapConfig) : Inv store (start store ldap) := by
  intro session hlive
  have hnone : .directory session ∈ store.live store.empty := hlive
  rw [store.live_empty] at hnone
  cases hnone

theorem Inv.followsRules (h : Inv store s) (hcompleted : ¬s.EndToCome) : s.FollowsRules store :=
  fun session hlive => (h session hlive).resolve_right hcompleted

/-- Directory sessions that were there before are as they were. -/
theorem Inv.others (h : Inv store s) {sessions : Store}
    (hothers : ∀ session ∈ store.live sessions, session.isDirectory = true →
      session ∈ store.live s.sessions) : Inv store { s with sessions } :=
  fun session hlive => h session (hothers _ hlive rfl)

theorem Inv.openSession {s' : LoginState ruleNames Store} {i : Nat} (h : Inv store s)
    (htimely : s.Timely (.openSession i)) (hstep : s.step store (.openSession i) = some s') :
    Inv store s' := by
  obtain ⟨phase, hphase, hstep⟩ := Option.bind_eq_some_iff.mp hstep
  cases phase with
  | granted opened =>
    obtain rfl := Option.some.inj hstep
    intro session hlive
    obtain heq | hold := (store.mem_openDirectory _ _ _).mp hlive
    · obtain rfl := Session.directory.inj heq
      exact htimely session hphase
    · exact h session hold
  | submitted | asking ldap | signedIn | unavailable message | refused => cases hstep

/-- A swap that changes the settings is followed by the end of the sessions. -/
theorem Inv.swap (h : Inv store s) (next : Option LdapConfig) :
    Inv store { s with ldap := next, reloads := s.reloads ++ [⟨s.ldap, next, false⟩] } := by
  intro session hlive
  obtain hforce | hend := h session hlive
  · by_cases hsame : s.ldap = next
    · exact .inl (hsame ▸ hforce)
    · exact .inr ⟨_, List.mem_append_right _ (List.mem_singleton_self _), by
        simp [LdapReload.pending, hsame]⟩
  · obtain ⟨reload, hmem, hpending⟩ := hend
    exact .inr ⟨reload, List.mem_append_left _ hmem, hpending⟩

theorem Inv.endSessions {s' : LoginState ruleNames Store} {i : Nat} (h : Inv store s)
    (hstep : s.step store (.endSessions i) = some s') : Inv store s' := by
  obtain ⟨reload, hreload, hstep⟩ := Option.bind_eq_some_iff.mp hstep
  obtain ⟨hcompleted, hstep⟩ := Option.ite_none_left_eq_some.mp hstep
  obtain rfl := Option.some.inj hstep
  intro session hlive
  by_cases hchanged : reload.previous ≠ reload.next
  · have hended : .directory session ∈ store.live (store.endDirectorySessions s.sessions) := by
      simpa only [if_pos hchanged] using hlive
    cases ((store.mem_endDirectorySessions _ _).mp hended).2
  · have hkept : .directory session ∈ store.live s.sessions := by
      simpa only [if_neg hchanged] using hlive
    refine (h session hkept).imp_right fun hend => ?_
    -- The reload that completes was not the one to end the sessions.
    obtain ⟨other, hother, hpending⟩ := hend
    obtain hkept | rfl := Slots.mem_set_or hreload hother
    · exact ⟨other, hkept, hpending⟩
    · simp [LdapReload.pending, hchanged] at hpending

theorem Inv.step {s' : LoginState ruleNames Store} {l : LoginLabel Store} (h : Inv store s)
    (htimely : s.Timely l) (hstep : s.step store l = some s') : Inv store s' := by
  cases l with
  | submit =>
    obtain ⟨_, hstep⟩ := Option.ite_none_right_eq_some.mp hstep
    obtain rfl := Option.some.inj hstep
    exact h
  | read i | answer i username memberOf | refuse i =>
    obtain ⟨phase, _, hstep⟩ := Option.bind_eq_some_iff.mp hstep
    split at hstep
    · obtain rfl := Option.some.inj hstep
      exact h
    · cases hstep
  | openSession i => exact h.openSession htimely hstep
  | others sessions =>
    obtain ⟨hothers, hstep⟩ := Option.ite_none_right_eq_some.mp hstep
    obtain rfl := Option.some.inj hstep
    exact h.others hothers
  | swap next =>
    obtain rfl := Option.some.inj hstep
    exact h.swap next
  | endSessions i => exact h.endSessions hstep

theorem reached_inv {ldap : Option LdapConfig}
    (h : Runs.Reach (step store) Timely (start store ldap) s) : Inv store s :=
  h.invariant (Inv.start ldap) fun _ _ _ hinv htimely hstep => hinv.step htimely hstep

/-- A session opened at any other time outlives the rules that granted it. -/
theorem not_followsRules_of_not_timely {s' : LoginState ruleNames Store} {i : Nat}
    (hstep : s.step store (.openSession i) = some s') (hlate : ¬s.Timely (.openSession i)) :
    ¬s'.EndToCome ∧ ¬s'.FollowsRules store := by
  obtain ⟨phase, hphase, hstep⟩ := Option.bind_eq_some_iff.mp hstep
  cases phase with
  | granted opened =>
    obtain rfl := Option.some.inj hstep
    simp only [Timely, not_forall, not_or] at hlate
    obtain ⟨session, hsession, hforce, hend⟩ := hlate
    obtain rfl := LoginPhase.granted.inj (Option.some.inj (hphase.symm.trans hsession))
    refine ⟨hend, fun hfollows => hforce (hfollows opened ?_)⟩
    exact (store.mem_openDirectory _ _ _).mpr (.inl rfl)
  | submitted | asking ldap | signedIn | unavailable message | refused => cases hstep

/-- Rules that name people by account or by group, each spelled the one way. -/
def namedExactly (users groups : List String) (username : String) (memberOf : List String) :
    Bool :=
  users.contains username || groups.any memberOf.contains

/-- Sessions kept in a list. -/
def listStore : SessionStore namedExactly (List (Session namedExactly)) where
  live sessions := sessions
  empty := []
  openDirectory sessions session := .directory session :: sessions
  endDirectorySessions sessions := sessions.filter fun session => !session.isDirectory
  live_empty := rfl
  mem_openDirectory _ _ _ := List.mem_cons
  mem_endDirectorySessions _ _ := by simp

def opsDirectory (role : ApiKeyRole) : LdapConfig where
  url := "ldaps://ldap.example.com"
  bindCredential := "cred-ldap"
  searchBase := "DC=x"
  userFilter := "(sAMAccountName=\x7busername\x7d)"
  groupAttribute := "memberOf"
  usernameAttribute := "sAMAccountName"
  timeoutSeconds := 5
  access := [{ name := "Operations", groups := ["DL-ops"], role }]

/-- The operations group is no longer admin. -/
def restrictOps : List (LoginLabel (List (Session namedExactly))) :=
  [.swap (some (opsDirectory .restricted)), .endSessions 0]

def grantedBy (ldap : LdapConfig) : Session namedExactly → Bool
  | .directory session => session.settings = ldap
  | .apiKey _ => false

/-- What the login has been granted, if anything, it was granted by the settings. -/
def waitsUnder (ldap : LdapConfig) : LoginPhase namedExactly → Bool
  | .granted session => session.settings = ldap
  | _ => true

/-- **Directory sessions follow the rules in force.** In every run in which no
session is opened after the settings that granted it have been replaced and the
sessions ended, every live session of the directory is one that the settings in
force granted, once the reloads that change them have completed. -/
theorem directory_sessions_follow_rules {ldap : Option LdapConfig}
    (h : Runs.Reach (step store) Timely (start store ldap) s)
    (hcompleted : ∀ reload ∈ s.reloads, reload.previous ≠ reload.next → reload.completed = true)
    (session : DirectorySession ruleNames)
    (hlive : .directory session ∈ store.live s.sessions) :
    ∃ inForce, s.ldap = some inForce ∧ session.settings = inForce ∧
      (grantFor ruleNames inForce.access session.username session.memberOf).map
        Grant.permissions = some session.permissions := by
  refine ⟨session.settings, (reached_inv h).followsRules ?_ session hlive, rfl, session.granted⟩
  rintro ⟨reload, hmem, hpending⟩
  simp only [LdapReload.pending, Bool.and_eq_true, Bool.not_eq_true', decide_eq_true_eq]
    at hpending
  exact absurd (hcompleted reload hmem hpending.2) (by simp [hpending.1])

theorem loginAfterReload_follows_rules : ∃ s session,
    Runs.exec (step listStore) (start listStore (some (opsDirectory .admin))) (restrictOps ++
      [.submit, .read 0, .answer 0 "jdoe" ["DL-ops"]] ++ [.openSession 0]) = some s ∧
    .directory session ∈ s.sessions ∧ s.ldap = some session.settings := by
  have hrun : (Runs.exec (step listStore) (start listStore (some (opsDirectory .admin)))
      (restrictOps ++ [.submit, .read 0, .answer 0 "jdoe" ["DL-ops"]] ++ [.openSession 0])).any
        (fun s => s.reloads.all (·.completed) && s.sessions.any (·.isDirectory)) = true := by
    decide
  obtain ⟨s, hexec, hends⟩ := (Option.any_eq_true _ _).mp hrun
  obtain ⟨hcompleted, hsessions⟩ := Bool.and_eq_true_iff.mp hends
  have hready : (Runs.exec (step listStore) (start listStore (some (opsDirectory .admin)))
      (restrictOps ++ [.submit, .read 0, .answer 0 "jdoe" ["DL-ops"]])).any
        (fun s => s.ldap = some (opsDirectory .restricted) &&
          s.logins.all (waitsUnder (opsDirectory .restricted))) = true := by decide
  have hsplit := hexec
  rw [Runs.exec_append] at hsplit
  obtain ⟨ready, hfirst, hlast⟩ := Option.bind_eq_some_iff.mp hsplit
  rw [hfirst] at hready
  simp only [Option.any_some, Bool.and_eq_true, decide_eq_true_eq, List.all_eq_true] at hready
  have hquiet : Runs.Meets (step listStore) Timely (start listStore (some (opsDirectory .admin)))
      (restrictOps ++ [.submit, .read 0, .answer 0 "jdoe" ["DL-ops"]]) :=
    Runs.meets_of_forall (by simp [restrictOps, Timely]) _
  have htimely : Runs.Meets (step listStore) Timely ready [.openSession 0] := by
    refine ⟨fun session hlogin => .inl ?_, ?_⟩
    · have hsettings : session.settings = opsDirectory .restricted :=
        of_decide_eq_true (hready.2 _ (List.mem_of_getElem? hlogin))
      rw [hready.1, hsettings]
    · split <;> trivial
  have hreached := (Runs.Reach.start.of_meets hquiet hfirst).of_meets htimely hlast
  obtain ⟨session, hlive, hdirectory⟩ := List.any_eq_true.mp hsessions
  cases session with
  | directory session =>
    obtain ⟨inForce, hforce, rfl, _⟩ := directory_sessions_follow_rules hreached
      (fun reload hmem _ => List.all_eq_true.mp hcompleted reload hmem) session hlive
    exact ⟨s, session, hexec, hlive, hforce⟩
  | apiKey id => cases hdirectory

/-- The login has read the old rules when the reload ends the sessions. -/
theorem loginDuringReload_keeps_old_rules : ¬ ∀ (ldap : Option LdapConfig)
    (s : LoginState namedExactly (List (Session namedExactly))),
    Runs.Reach (step listStore) Runs.Any (start listStore ldap) s →
    (∀ reload ∈ s.reloads, reload.previous ≠ reload.next → reload.completed = true) →
    s.FollowsRules listStore := by
  intro h
  have hrun : (Runs.exec (step listStore) (start listStore (some (opsDirectory .admin)))
      ([.submit, .read 0] ++ restrictOps ++ [.answer 0 "jdoe" ["DL-ops"], .openSession 0])).any
        (fun s => s.reloads.all (·.completed) && s.ldap = some (opsDirectory .restricted) &&
          s.sessions.any (grantedBy (opsDirectory .admin))) = true := by decide
  obtain ⟨s, hexec, hends⟩ := (Option.any_eq_true _ _).mp hrun
  simp only [Bool.and_eq_true, decide_eq_true_eq] at hends
  obtain ⟨⟨hcompleted, hldap⟩, hsessions⟩ := hends
  have hfollows := h _ s (Runs.Reach.start.of_exec hexec)
    fun reload hmem _ => List.all_eq_true.mp hcompleted reload hmem
  obtain ⟨session, hlive, hgranted⟩ := List.any_eq_true.mp hsessions
  cases session with
  | directory session =>
    have hadmin : session.settings = opsDirectory .admin := of_decide_eq_true hgranted
    have hforce := hfollows session hlive
    rw [hldap, hadmin] at hforce
    exact absurd (Option.some.inj hforce) (by decide)
  | apiKey id => cases hgranted

end LoginState

end UnifiedApi

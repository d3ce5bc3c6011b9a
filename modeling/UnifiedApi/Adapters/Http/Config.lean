import UnifiedApi.Adapters.Http.Error
import UnifiedApi.Application.Config
import UnifiedApi.Lib.Results
import UnifiedApi.Lib.Runs

/-! # The configuration directory beside the running process

What a reload would do is reported from one comparison; the API keys are resolved
and swapped beside it. -/

namespace UnifiedApi

/-- A configured key with its secret read from the environment. -/
structure ResolvedApiKey where
  id : String
  name : String
  secret : String
  permissions : Permissions
  deriving DecidableEq

def ApiKeyDef.permissions (key : ApiKeyDef) : Permissions :=
  match key.role with
  | .admin => .admin
  | .restricted => .scoped key.sources.toFinset key.endpoints.toFinset

section
variable (env : String → Option String)

def ApiKeyDef.resolve (id : String) (key : ApiKeyDef) : Except String ResolvedApiKey :=
  match env key.envVar with
  | none => .error ("API key '" ++ id ++ "' expects the secret in env var '" ++ key.envVar ++
      "', which is not set")
  | some secret =>
    if secret.isEmpty then
      .error ("API key '" ++ id ++ "': env var '" ++ key.envVar ++ "' is set but empty")
    else .ok ⟨id, key.name, secret, key.permissions⟩

/-- The legacy single key, which joins as an admin key. -/
def legacyApiKey : List ResolvedApiKey :=
  match env "UNIFIED_API_KEY" with
  | some secret => if secret.isEmpty then [] else [⟨"default", "default", secret, .admin⟩]
  | none => []

variable {Item : ItemSection → Type} {Secrets : Type}

def resolveApiKeys (cfg : AppConfig Item Secrets) : Except String (List ResolvedApiKey) := do
  let keys ← cfg.apiKeys.toList.mapM fun key => key.2.resolve env key.1
  return keys ++ legacyApiKey env

/-- With no keys the API runs open, and LDAP would protect nothing. -/
def ldapRequiresKeys (cfg : AppConfig Item Secrets) (keys : List ResolvedApiKey) :
    Except String Unit :=
  if cfg.server.ui.ldap.isSome && keys.isEmpty then
    .error ("server.ui.ldap is configured but no API key is: without one the API runs with " ++
      "no authentication at all, and the LDAP sign-in would protect nothing. Declare at " ++
      "least one key in api_keys.yaml (an admin key also stays the way in when the " ++
      "directory is down)")
  else .ok ()

/-- What a reload has to be sure of before anything is committed. -/
def keysFor (cfg : AppConfig Item Secrets) (current : List ResolvedApiKey) :
    Except ApiError (List ResolvedApiKey) := do
  let keys ← (resolveApiKeys env cfg).mapError fun e =>
    ⟨409, "the configuration cannot be applied: " ++ e⟩
  (ldapRequiresKeys cfg keys).mapError fun e => (⟨409, "refusing to reload: " ++ e⟩ : ApiError)
  if keys.isEmpty && !current.isEmpty then
    throw ⟨409, "refusing to reload: this configuration declares no API keys, which would " ++
      "leave the running API without authentication. Write the file and restart the " ++
      "instance if that is really the intent"⟩
  return keys

end

/-- The process, as far as its configuration goes. -/
structure ConfigHost (Item : ItemSection → Type) (Secrets : Type) where
  config : RuntimeConfig Item Secrets
  /-- What the process was built from, of the settings that it cannot adopt. -/
  liveSettings : Option RestartOnlySettings
  apiKeys : List ResolvedApiKey
  restartPending : List String := []
  generation : Nat := 0

structure Pending where
  changed : Bool
  restartRequired : List String
  deriving DecidableEq

namespace ConfigHost

variable {Item : ItemSection → Type} {Secrets : Type}

/-- Boot fills the runtime configuration as a reload does. -/
def boot (env : String → Option String) (cfg : AppConfig Item Secrets) :
    Except String (ConfigHost Item Secrets) := do
  let keys ← resolveApiKeys env cfg
  ldapRequiresKeys cfg keys
  return {
    config := runtimeConfig cfg
    liveSettings := some (.fromConfig cfg)
    apiKeys := keys }

variable [∀ kind, DecidableEq (Item kind)] [DecidableEq Secrets]
  (s : ConfigHost Item Secrets) (cfg : AppConfig Item Secrets)

/-- What a reload would do, without doing any of it. -/
def pendingReport : ReloadReport := diff s.config (runtimeConfig cfg) cfg s.liveSettings

def pending : Pending where
  changed := (s.pendingReport cfg).changedAnything
  restartRequired := (s.pendingReport cfg).restartRequired

/-- Swap in what can be, then the keys. -/
def apply (keys : List ResolvedApiKey) : ConfigHost Item Secrets × ReloadReport :=
  let report := diff s.config (runtimeConfig cfg) cfg s.liveSettings
  ({ s with
      config := runtimeConfig cfg
      apiKeys := keys
      restartPending := report.restartRequired
      generation := s.generation + 1 },
    { report with generation := s.generation + 1 })

/-- A configuration whose keys cannot be adopted is refused whole. -/
def reload (env : String → Option String) :
    Except ApiError (ConfigHost Item Secrets × ReloadReport) :=
  (keysFor env cfg s.apiKeys).map (s.apply cfg)

/-- The process goes on with what it had where a reload is refused. -/
def step (env : String → Option String) (s : ConfigHost Item Secrets)
    (cfg : AppConfig Item Secrets) : Option (ConfigHost Item Secrets) :=
  (s.reload cfg env).toOption.map (·.1)

/-! ## What is promised -/

/-- Where nothing is reported, reloading changes nothing. -/
def Honest (env : String → Option String) : Prop :=
  s.pending cfg = ⟨false, []⟩ →
    (∀ s' report, s.reload cfg env = .ok (s', report) →
      s'.config = s.config ∧ s'.apiKeys = s.apiKeys) ∧
    s.liveSettings = some (.fromConfig cfg)

/-- The process serves the settings already, the API keys apart. -/
structure Serves : Prop where
  items : s.config.items = cfg.items
  secrets : s.config.secrets = cfg.secretsConfig
  readyz : s.config.readyzRequireAllSources = cfg.server.readyzRequireAllSources
  metrics : s.config.metricsRequireAuth = cfg.server.metricsRequireAuth
  cors : s.config.corsAllowedOrigins = cfg.server.corsAllowedOrigins
  body : s.config.maxBodyBytes = cfg.server.maxBodyBytes
  grace : s.config.shutdownGraceSeconds = cfg.server.shutdownGraceSeconds
  timeout : s.config.refreshTimeoutSeconds = cfg.server.refreshTimeoutSeconds
  concurrent : s.config.refreshMaxConcurrent = cfg.server.refreshMaxConcurrent
  ldap : s.config.ldap = cfg.server.ui.ldap
  home : some s.config.uiHome = cfg.server.ui.home
  url : s.config.url = cfg.server.url.map shownUrl
  name : s.config.name = cfg.server.name
  restart : s.liveSettings = some (.fromConfig cfg)

end ConfigHost

/-- Two configurations that differ at most in what a reload does not apply to the
runtime configuration: the settings reported as needing a restart, and the API
keys. -/
structure SameReloadable {Item : ItemSection → Type} {Secrets : Type}
    (cfg cfg' : AppConfig Item Secrets) : Prop where
  items : cfg.items = cfg'.items
  secrets : cfg.secretsConfig = cfg'.secretsConfig
  readyz : cfg.server.readyzRequireAllSources = cfg'.server.readyzRequireAllSources
  metrics : cfg.server.metricsRequireAuth = cfg'.server.metricsRequireAuth
  cors : cfg.server.corsAllowedOrigins = cfg'.server.corsAllowedOrigins
  body : cfg.server.maxBodyBytes = cfg'.server.maxBodyBytes
  grace : cfg.server.shutdownGraceSeconds = cfg'.server.shutdownGraceSeconds
  timeout : cfg.server.refreshTimeoutSeconds = cfg'.server.refreshTimeoutSeconds
  concurrent : cfg.server.refreshMaxConcurrent = cfg'.server.refreshMaxConcurrent
  ldap : cfg.server.ui.ldap = cfg'.server.ui.ldap
  home : cfg.server.ui.home = cfg'.server.ui.home
  url : cfg.server.url = cfg'.server.url
  name : cfg.server.name = cfg'.server.name

/-- What is installed does not depend on what needs a restart. -/
def InstallsReloadable {Item : ItemSection → Type} {Secrets : Type}
    (cfg : AppConfig Item Secrets) : Prop :=
  ∀ cfg', SameReloadable cfg cfg' → runtimeConfig cfg' = runtimeConfig cfg

namespace ConfigHost

variable {Item : ItemSection → Type} {Secrets : Type}

theorem homePage_of_home {ui : UiConfig} {home : String} (h : ui.home = some home) :
    ui.homePage = home := by
  simp only [UiConfig.homePage, h]

/-- An unwritten home is read off `assets_dir`, which needs a restart. -/
theorem installsReloadable_iff {cfg : AppConfig Item Secrets} :
    InstallsReloadable cfg ↔ cfg.server.ui.home ≠ none := by
  constructor
  · intro h hnone
    let toggled : AppConfig Item Secrets := { cfg with
      server.ui.enabled := true
      server.ui.assetsDir := match cfg.server.ui.assetsDir with
        | some _ => none
        | none => some "ui" }
    have hsame := h toggled ⟨rfl, rfl, rfl, rfl, rfl, rfl, rfl, rfl, rfl, rfl, rfl, rfl, rfl⟩
    have hhome : toggled.server.ui.homePage = cfg.server.ui.homePage :=
      congrArg RuntimeConfig.uiHome hsame
    cases hassets : cfg.server.ui.assetsDir <;>
      simp [toggled, UiConfig.homePage, hnone, hassets] at hhome
  · intro hsome cfg' h
    obtain ⟨home, hhome⟩ := Option.ne_none_iff_exists'.mp hsome
    have hpage : cfg'.server.ui.homePage = cfg.server.ui.homePage := by
      rw [homePage_of_home hhome, homePage_of_home (h.home ▸ hhome)]
    simp only [runtimeConfig, h.items, h.secrets, h.readyz, h.metrics, h.cors, h.body, h.grace,
      h.timeout, h.concurrent, h.ldap, hpage, h.url, h.name]

section
variable [∀ kind, DecidableEq (Item kind)] [DecidableEq Secrets]
  {s : ConfigHost Item Secrets} {cfg : AppConfig Item Secrets} {env : String → Option String}

theorem pending_eq_nothing {live : RestartOnlySettings} (hlive : s.liveSettings = some live) :
    s.pending cfg = ⟨false, []⟩ ↔ s.config = runtimeConfig cfg ∧ live = .fromConfig cfg := by
  rw [pending, Pending.mk.injEq, pendingReport, diff_changedAnything]
  refine and_congr_right fun _ => ?_
  simp only [diff, hlive]
  exact RestartOnlySettings.changedKeys_eq_nil

omit [∀ kind, DecidableEq (Item kind)] [DecidableEq Secrets] in
theorem serves_iff (hwritten : cfg.server.ui.home ≠ none) :
    s.Serves cfg ↔ s.config = runtimeConfig cfg ∧ s.liveSettings = some (.fromConfig cfg) := by
  obtain ⟨home, hhome⟩ := Option.ne_none_iff_exists'.mp hwritten
  have hpage := homePage_of_home hhome
  constructor
  · intro h
    have hserved : s.config.uiHome = cfg.server.ui.homePage := by
      rw [hpage, ← Option.some_inj, h.home, hhome]
    exact ⟨RuntimeConfig.ext h.items h.secrets h.readyz h.metrics h.cors h.body h.grace
      h.timeout h.concurrent h.ldap hserved h.url h.name, h.restart⟩
  · rintro ⟨hconfig, hlive⟩
    refine ⟨?_, ?_, ?_, ?_, ?_, ?_, ?_, ?_, ?_, ?_, ?_, ?_, ?_, hlive⟩ <;> rw [hconfig] <;>
      simp [runtimeConfig, hhome, hpage]

omit [∀ kind, DecidableEq (Item kind)] [DecidableEq Secrets] in
theorem boot_eq_ok {booted : ConfigHost Item Secrets} (h : boot env cfg = .ok booted) :
    booted.config = runtimeConfig cfg ∧ booted.liveSettings = some (.fromConfig cfg) := by
  obtain ⟨keys, -, h⟩ := Results.ok_of_bind h
  obtain ⟨-, -, h⟩ := Results.ok_of_bind h
  obtain rfl := Except.ok.inj h
  exact ⟨rfl, rfl⟩

theorem reload_eq_ok {result : ConfigHost Item Secrets × ReloadReport} :
    s.reload cfg env = .ok result ↔
      ∃ keys, keysFor env cfg s.apiKeys = .ok keys ∧ s.apply cfg keys = result := by
  rw [reload]
  cases keysFor env cfg s.apiKeys with
  | error e => simp [Except.map]
  | ok keys => simp [Except.map]

/-- What the process was built from is kept from its start on. -/
theorem reached_live {booted : ConfigHost Item Secrets} {first : AppConfig Item Secrets}
    (hboot : boot env first = .ok booted) (h : Runs.Reach (step env) Runs.Any booted s) :
    s.liveSettings = some (.fromConfig first) := by
  refine h.invariant (P := fun s => s.liveSettings = some (.fromConfig first))
    (boot_eq_ok hboot).2 ?_
  intro s cfg s' hlive _ hstep
  obtain ⟨result, hreload, rfl⟩ := Results.ok_of_toOption_map hstep
  obtain ⟨keys, _, happly⟩ := reload_eq_ok.mp hreload
  rw [← happly]
  exact hlive

theorem honest_iff (hwritten : cfg.server.ui.home ≠ none) {live : RestartOnlySettings}
    (hlive : s.liveSettings = some live) :
    s.Honest cfg env ↔
      (∀ keys, keysFor env cfg s.apiKeys = .ok keys → keys = s.apiKeys) ∨ ¬s.Serves cfg := by
  have hpending : s.pending cfg = ⟨false, []⟩ ↔ s.Serves cfg := by
    rw [pending_eq_nothing hlive, serves_iff hwritten, hlive, Option.some_inj]
  rw [Honest, hpending, or_comm, ← imp_iff_not_or]
  refine imp_congr_right fun hserves => ?_
  obtain ⟨hconfig, hrestart⟩ := (serves_iff hwritten).mp hserves
  constructor
  · rintro ⟨hreload, _⟩ keys hkeys
    exact (hreload _ _ (reload_eq_ok.mpr ⟨keys, hkeys, rfl⟩)).2
  · refine fun hkeys => ⟨fun s' report hreload => ?_, hrestart⟩
    obtain ⟨keys, hresolved, happly⟩ := reload_eq_ok.mp hreload
    obtain rfl : (s.apply cfg keys).1 = s' := congrArg Prod.fst happly
    exact ⟨hconfig.symm, hkeys keys hresolved⟩

end

/-- A directory with one key and no items. -/
def oneKey (port : Nat) (role : ApiKeyRole) (home : Option String) :
    AppConfig (fun _ => Unit) Unit where
  server := { host := "127.0.0.1", port, ui := { home } }
  secretsConfig := ()
  items _ := ∅
  apiKeys := (∅ : StrMap ApiKeyDef).insert "awx"
    { name := "AWX", envVars := (∅ : StrMap String).insert "key" "AWX_KEY", role }

def oneSecret (name : String) : Option String :=
  if name = "AWX_KEY" then some "s3cret" else none

/-- The process that `oneKey` boots. -/
def oneKeyHost (port : Nat) (role : ApiKeyRole) (home : Option String) :
    ConfigHost (fun _ => Unit) Unit where
  config := runtimeConfig (oneKey port role home)
  liveSettings := some (.fromConfig (oneKey port role home))
  apiKeys := [⟨"awx", "AWX", "s3cret", match role with
    | .admin => .admin
    | .restricted => .scoped ∅ ∅⟩]

theorem resolveApiKeys_oneKey (port : Nat) (role : ApiKeyRole) (home : Option String) :
    resolveApiKeys oneSecret (oneKey port role home) = .ok (oneKeyHost port role home).apiKeys := by
  have hkeys : (oneKey port role home).apiKeys.toList = [("awx",
      { name := "AWX", envVars := (∅ : StrMap String).insert "key" "AWX_KEY", role })] := rfl
  rw [resolveApiKeys, hkeys]
  cases role <;> rfl

theorem boot_oneKey (port : Nat) (role : ApiKeyRole) (home : Option String) :
    boot oneSecret (oneKey port role home) = .ok (oneKeyHost port role home) := by
  rw [boot, resolveApiKeys_oneKey]
  rfl

theorem keysFor_oneKey (port : Nat) (role : ApiKeyRole) (home : Option String)
    (current : List ResolvedApiKey) :
    keysFor oneSecret (oneKey port role home) current =
      .ok (oneKeyHost port role home).apiKeys := by
  rw [keysFor, resolveApiKeys_oneKey]
  rfl

/-- **What a reload would do is reported as it is**, and what it installs is of
settings reported as reloadable, just when the keys stay the same where nothing
else is new and the home page is written out. -/
theorem reload_honest_iff [∀ kind, DecidableEq (Item kind)] [DecidableEq Secrets]
    {s booted : ConfigHost Item Secrets} {env : String → Option String}
    {first : AppConfig Item Secrets}
    (hboot : boot env first = .ok booted) (h : Runs.Reach (step env) Runs.Any booted s)
    (cfg : AppConfig Item Secrets) :
    s.Honest cfg env ∧ InstallsReloadable cfg ↔
      ((∀ keys, keysFor env cfg s.apiKeys = .ok keys → keys = s.apiKeys) ∨ ¬s.Serves cfg) ∧
        cfg.server.ui.home ≠ none := by
  rw [installsReloadable_iff]
  exact and_congr_left fun hwritten => honest_iff hwritten (reached_live hboot h)

theorem keyAndPortChange_honest :
    (oneKeyHost 8080 .admin (some "/")).Honest (oneKey 9090 .restricted (some "/")) oneSecret ∧
      InstallsReloadable (oneKey 9090 .restricted (some "/")) := by
  refine (reload_honest_iff (boot_oneKey 8080 .admin (some "/")) .start _).mpr
    ⟨.inr fun hserves => ?_, Option.some_ne_none _⟩
  have hport : 8080 = 9090 := congrArg RestartOnlySettings.port (Option.some.inj hserves.restart)
  cases hport

/-- A key that is restricted goes unreported, and the home page of this directory
hangs on a setting that needs a restart. -/
theorem keyChange_unreported :
    boot oneSecret (oneKey 8080 .admin none) = .ok (oneKeyHost 8080 .admin none) ∧
      ¬(oneKeyHost 8080 .admin none).Honest (oneKey 8080 .restricted none) oneSecret ∧
      ¬InstallsReloadable (oneKey 8080 .restricted none) := by
  refine ⟨boot_oneKey 8080 .admin none, fun hhonest => ?_, fun hinstalls =>
    installsReloadable_iff.mp hinstalls rfl⟩
  have hpending : (oneKeyHost 8080 .admin none).pending (oneKey 8080 .restricted none) =
      ⟨false, []⟩ := (pending_eq_nothing rfl).mpr ⟨rfl, rfl⟩
  have hkeys := ((hhonest hpending).1 _ _
    (reload_eq_ok.mpr ⟨_, keysFor_oneKey 8080 .restricted none _, rfl⟩)).2
  have hsame : [ResolvedApiKey.mk "awx" "AWX" "s3cret" (.scoped ∅ ∅)] =
    [⟨"awx", "AWX", "s3cret", .admin⟩] := hkeys
  simp at hsame

end ConfigHost

end UnifiedApi

import UnifiedApi.Domain.Ldap
import UnifiedApi.Domain.Topology

/-! # Adopting a configuration without restarting

What is read per request or per tick is swapped by a reload. What was consumed
once, at construction, is compared and reported instead. -/

namespace UnifiedApi

/-- The sections of the configuration whose items are known by id. -/
inductive ItemSection where
  | sources | connectors | views | enrichers | endpoints | projects | credentials
  deriving DecidableEq

namespace ItemSection

def name : ItemSection → String
  | sources => "sources"
  | connectors => "connectors"
  | views => "views"
  | enrichers => "enrichers"
  | endpoints => "endpoints"
  | projects => "projects"
  | credentials => "credentials"

def all : List ItemSection :=
  [sources, connectors, views, enrichers, endpoints, projects, credentials]

theorem mem_all (kind : ItemSection) : kind ∈ all := by
  cases kind <;> decide

end ItemSection

structure UiConfig where
  enabled : Bool := false
  sessionTtlSeconds : Nat := 3600
  ldap : Option LdapConfig := none
  home : Option String := none
  assetsDir : Option String := none

/-- Where a sign-in lands that asked for no page. -/
def UiConfig.homePage (ui : UiConfig) : String :=
  match ui.home, ui.assetsDir with
  | some home, _ => home
  | none, some _ => "/"
  | none, none => "/api/v1/"

structure ServerConfig where
  host : String
  port : Nat
  ui : UiConfig := {}
  corsAllowedOrigins : List String := []
  readyzRequireAllSources : Bool := false
  metricsRequireAuth : Bool := false
  refreshTimeoutSeconds : Nat := 15
  refreshMaxConcurrent : Nat := 8
  shutdownGraceSeconds : Nat := 20
  maxBodyBytes : Nat := 2 * 1024 * 1024
  url : Option String := none
  name : Option String := none

structure PersistenceConfig where
  path : String
  intervalSeconds : Nat := 60

/-- A loaded directory. The items are those of the section, already resolved;
`Secrets` is the deprecated block of config.yaml. -/
structure AppConfig (Item : ItemSection → Type) (Secrets : Type) where
  server : ServerConfig
  persistence : Option PersistenceConfig := none
  projectsDir : String := "projects"
  configApiEnabled : Bool := false
  secretsConfig : Secrets
  items : ∀ kind, StrMap (Item kind)
  apiKeys : StrMap ApiKeyDef := ∅

/-- The reloadable configuration, as the process reads it. -/
@[ext]
structure RuntimeConfig (Item : ItemSection → Type) (Secrets : Type) where
  items : ∀ kind, StrMap (Item kind)
  secrets : Secrets
  readyzRequireAllSources : Bool
  metricsRequireAuth : Bool
  corsAllowedOrigins : List String
  maxBodyBytes : Nat
  shutdownGraceSeconds : Nat
  refreshTimeoutSeconds : Nat
  refreshMaxConcurrent : Nat
  ldap : Option LdapConfig
  uiHome : String
  url : Option String
  name : Option String

/-- The settings a running process cannot adopt. -/
@[ext]
structure RestartOnlySettings where
  host : String
  port : Nat
  persistencePath : Option String
  persistenceIntervalSeconds : Option Nat
  projectsDir : String
  configApiEnabled : Bool
  uiEnabled : Bool
  sessionTtlSeconds : Nat
  uiAssetsDir : Option String

/-- The names of what differs, in the order it is checked. -/
def differing (checks : List (Bool × String)) : List String :=
  (checks.filter (·.1)).map (·.2)

theorem differing_eq_nil {checks : List (Bool × String)} :
    differing checks = [] ↔ ∀ check ∈ checks, check.1 = false := by
  rw [differing, List.map_eq_nil_iff, List.filter_eq_nil_iff]
  simp only [Bool.not_eq_true]

section
variable {Item : ItemSection → Type} {Secrets : Type}

def runtimeConfig (cfg : AppConfig Item Secrets) : RuntimeConfig Item Secrets where
  items := cfg.items
  secrets := cfg.secretsConfig
  readyzRequireAllSources := cfg.server.readyzRequireAllSources
  metricsRequireAuth := cfg.server.metricsRequireAuth
  corsAllowedOrigins := cfg.server.corsAllowedOrigins
  maxBodyBytes := cfg.server.maxBodyBytes
  shutdownGraceSeconds := cfg.server.shutdownGraceSeconds
  refreshTimeoutSeconds := cfg.server.refreshTimeoutSeconds
  refreshMaxConcurrent := cfg.server.refreshMaxConcurrent
  ldap := cfg.server.ui.ldap
  uiHome := cfg.server.ui.homePage
  url := cfg.server.url.map shownUrl
  name := cfg.server.name

namespace RestartOnlySettings

def fromConfig (cfg : AppConfig Item Secrets) : RestartOnlySettings where
  host := cfg.server.host
  port := cfg.server.port
  persistencePath := cfg.persistence.map (·.path)
  persistenceIntervalSeconds := cfg.persistence.map (·.intervalSeconds)
  projectsDir := cfg.projectsDir
  configApiEnabled := cfg.configApiEnabled
  uiEnabled := cfg.server.ui.enabled
  sessionTtlSeconds := cfg.server.ui.sessionTtlSeconds
  uiAssetsDir := cfg.server.ui.assetsDir

/-- The keys that differ, named as they are written in the file. -/
def changedKeys (live other : RestartOnlySettings) : List String :=
  differing
   [ (decide (live.host ≠ other.host), "server.host"),
     (decide (live.port ≠ other.port), "server.port"),
     (decide (live.persistencePath ≠ other.persistencePath ∨
        live.persistenceIntervalSeconds ≠ other.persistenceIntervalSeconds), "cache.persistence"),
     (decide (live.projectsDir ≠ other.projectsDir), "projects.dir"),
     (decide (live.configApiEnabled ≠ other.configApiEnabled), "config_api.enabled"),
     (decide (live.uiEnabled ≠ other.uiEnabled), "server.ui.enabled"),
     (decide (live.sessionTtlSeconds ≠ other.sessionTtlSeconds),
        "server.ui.session_ttl_seconds"),
     (decide (live.uiAssetsDir ≠ other.uiAssetsDir), "server.ui.assets_dir")
   ]

/-- Nothing is left out of the comparison. -/
theorem changedKeys_eq_nil {live other : RestartOnlySettings} :
    live.changedKeys other = [] ↔ live = other := by
  rw [changedKeys, differing_eq_nil, RestartOnlySettings.ext_iff]
  simp [and_assoc]

end RestartOnlySettings

/-! ## What changed -/

/-- What changed in one section, by id. -/
structure SectionDelta where
  added : List String := []
  removed : List String := []
  changed : List String := []
  deriving DecidableEq

namespace SectionDelta

variable {α : Type} [DecidableEq α]

/-- The ids come in the order of the maps, which is the order they are sorted
in. -/
def between (old new : StrMap α) : SectionDelta where
  added := new.keys.filter fun id => !old.contains id
  removed := old.keys.filter fun id => !new.contains id
  changed := new.keys.filter fun id => old.contains id && decide (old[id]? ≠ new[id]?)

def isEmpty (delta : SectionDelta) : Bool :=
  delta.added.isEmpty && delta.removed.isEmpty && delta.changed.isEmpty

theorem isEmpty_between {old new : StrMap α} :
    (between old new).isEmpty = true ↔ old = new := by
  simp only [isEmpty, between, Bool.and_eq_true, List.isEmpty_iff, List.filter_eq_nil_iff,
    Std.ExtTreeMap.mem_keys, Bool.not_eq_true', Bool.not_eq_false, decide_eq_true_eq,
    Std.ExtTreeMap.contains_iff_mem]
  constructor
  · rintro ⟨⟨hadded, hremoved⟩, hchanged⟩
    refine Std.ExtTreeMap.ext_getElem? fun id => ?_
    by_cases hold : id ∈ old
    · exact not_not.mp fun hdiffers => hchanged id (hremoved id hold) ⟨hold, hdiffers⟩
    · have hnew : id ∉ new := fun hnew => hold (hadded id hnew)
      rw [Std.ExtTreeMap.getElem?_eq_none hold, Std.ExtTreeMap.getElem?_eq_none hnew]
  · rintro rfl
    simp

end SectionDelta

structure ReloadReport where
  generation : Nat := 0
  /-- The sections that changed. -/
  applied : List String := []
  /-- Keys that need a restart to take effect. -/
  restartRequired : List String := []
  deltas : ItemSection → SectionDelta

def ReloadReport.changedAnything (report : ReloadReport) : Bool :=
  !report.applied.isEmpty

variable [∀ kind, DecidableEq (Item kind)] [DecidableEq Secrets]

/-- What changed between two configurations besides the items. -/
def changedSettings (previous next : RuntimeConfig Item Secrets) : List String :=
  differing
   [ (decide (previous.secrets ≠ next.secrets), "secrets"),
     (decide (previous.readyzRequireAllSources ≠ next.readyzRequireAllSources),
        "server.readyz_require_all_sources"),
     (decide (previous.metricsRequireAuth ≠ next.metricsRequireAuth),
        "server.metrics_require_auth"),
     (decide (previous.corsAllowedOrigins ≠ next.corsAllowedOrigins),
        "server.cors_allowed_origins"),
     (decide (previous.maxBodyBytes ≠ next.maxBodyBytes), "server.max_body_bytes"),
     (decide (previous.shutdownGraceSeconds ≠ next.shutdownGraceSeconds),
        "server.shutdown_grace_seconds"),
     (decide (previous.url ≠ next.url), "server.url"),
     (decide (previous.name ≠ next.name), "server.name"),
     (decide (previous.refreshTimeoutSeconds ≠ next.refreshTimeoutSeconds),
        "server.refresh_timeout_seconds"),
     (decide (previous.refreshMaxConcurrent ≠ next.refreshMaxConcurrent),
        "server.refresh_max_concurrent"),
     (decide (previous.ldap ≠ next.ldap), "server.ui.ldap"),
     (decide (previous.uiHome ≠ next.uiHome), "server.ui.home")
   ]

/-- What a reload would change and what it did change are this one comparison. -/
def diff (previous next : RuntimeConfig Item Secrets) (cfg : AppConfig Item Secrets)
    (live : Option RestartOnlySettings) : ReloadReport :=
  let deltas := fun kind => SectionDelta.between (previous.items kind) (next.items kind)
  let changed := (ItemSection.all.filter fun kind => !(deltas kind).isEmpty).map ItemSection.name
  { deltas
    applied := (changed ++ changedSettings previous next).mergeSort
    restartRequired := match live with
      | some live => live.changedKeys (.fromConfig cfg)
      | none => [] }

variable {previous next : RuntimeConfig Item Secrets} {cfg : AppConfig Item Secrets}
  {live : Option RestartOnlySettings}

omit [∀ kind, DecidableEq (Item kind)] in
theorem changedSettings_eq_nil : changedSettings previous next = [] ↔
    previous.secrets = next.secrets ∧
    previous.readyzRequireAllSources = next.readyzRequireAllSources ∧
    previous.metricsRequireAuth = next.metricsRequireAuth ∧
    previous.corsAllowedOrigins = next.corsAllowedOrigins ∧
    previous.maxBodyBytes = next.maxBodyBytes ∧
    previous.shutdownGraceSeconds = next.shutdownGraceSeconds ∧
    previous.url = next.url ∧ previous.name = next.name ∧
    previous.refreshTimeoutSeconds = next.refreshTimeoutSeconds ∧
    previous.refreshMaxConcurrent = next.refreshMaxConcurrent ∧
    previous.ldap = next.ldap ∧ previous.uiHome = next.uiHome := by
  rw [changedSettings, differing_eq_nil]
  simp

/-- Nothing that is swapped is left out of the comparison. -/
theorem diff_changedAnything :
    (diff previous next cfg live).changedAnything = false ↔ previous = next := by
  have happlied : (diff previous next cfg live).applied = [] ↔
      (∀ kind, previous.items kind = next.items kind) ∧ changedSettings previous next = [] := by
    simp only [diff, ← List.length_eq_zero_iff, List.length_mergeSort]
    simp [SectionDelta.isEmpty_between, ItemSection.mem_all]
  rw [ReloadReport.changedAnything, Bool.not_eq_false', List.isEmpty_iff, happlied,
    changedSettings_eq_nil, RuntimeConfig.ext_iff, ← funext_iff]
  constructor
  · rintro ⟨hitems, hsecrets, hreadyz, hmetrics, hcors, hbody, hgrace, hurl, hname, htimeout,
      hconcurrent, hldap, hhome⟩
    exact ⟨hitems, hsecrets, hreadyz, hmetrics, hcors, hbody, hgrace, htimeout, hconcurrent,
      hldap, hhome, hurl, hname⟩
  · rintro ⟨hitems, hsecrets, hreadyz, hmetrics, hcors, hbody, hgrace, htimeout, hconcurrent,
      hldap, hhome, hurl, hname⟩
    exact ⟨hitems, hsecrets, hreadyz, hmetrics, hcors, hbody, hgrace, hurl, hname, htimeout,
      hconcurrent, hldap, hhome⟩

end

end UnifiedApi

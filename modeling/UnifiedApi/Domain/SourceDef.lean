import UnifiedApi.Domain.Connector
import UnifiedApi.Domain.Source

/-! # Sources as written, and as they run

A source item says which instance of a system; how to talk to it is its
connector's. The two are put together once, when the configuration is loaded. -/

namespace UnifiedApi

structure SourceDef where
  name : String
  connector : String
  credentials : List String := []
  project : Option String := none
  path : Option String := none
  timeoutSeconds : Option Nat := none
  hostSyncUpdatesGroupVars : Bool := false
  syncMode : SyncMode := .replace
  schedule : Option String := none
  syncIntervalSeconds : Option Nat := none
  ttlSeconds : Nat
  ttlOverrides : TtlOverrides := {}
  hostsFromSource : Option HostsFromSource := none
  allowOnDemandRefresh : Bool := false
  advertiseScope : Option AdvertisedScope := none
  config : StrMap String := ∅
  deriving DecidableEq

/-- A source with what its connector adds. -/
structure ResolvedSource extends Source where
  name : String
  connector : String
  sshLocation : Option Location
  projectId : Option String
  scriptArgs : List String
  hostArgs : List String
  timeoutSeconds : Nat
  schedule : Option String
  syncIntervalSeconds : Option Nat
  allowOnDemandRefresh : Bool
  deriving DecidableEq

namespace SourceDef

def defaultTimeoutSeconds : Nat := 300

/-- What comes of the connector. -/
structure Handed where
  connectorType : ConnectorType
  projectId : Option String
  scriptPath : String
  scriptArgs : List String := []
  hostArgs : List String := []
  timeoutSeconds : Nat := defaultTimeoutSeconds

section
variable (item : SourceDef) (id : String) (connectors : StrMap Connector)

def sentence (what : String) : String := "Source '" ++ id ++ "' " ++ what

/-- `project` and `path` are the static inventory's. -/
def refuseLocation (connector : String) : List String :=
  [("project", item.project.isSome), ("path", item.path.isSome)].flatMap fun (key, set) =>
    Connector.errorIf set (sentence id ("sets " ++ key ++ ", which only a static_inventory " ++
      "source uses — the '" ++ connector ++ "' connector decides what runs"))

/-- What runs, and what is wrong. -/
def handed : Option Handed × List String :=
  if item.connector = Connector.remote then
    (some { connectorType := .remote, projectId := none,
            scriptPath := item.config["source"]?.getD "" },
      (["url", "source"].flatMap fun key => Connector.errorIf (!item.config.contains key)
        (sentence id ("uses the remote connector but has no '" ++ key ++ "' in config — set " ++
          "config.url to the other instance and config.source to the source id there"))) ++
      item.refuseLocation id Connector.remote)
  else if item.connector = Connector.staticInventory then
    let path := item.path.filter fun path => !Connector.isBlank path
    (some { connectorType := .staticInventory, projectId := item.project,
            scriptPath := path.getD "" },
      Connector.errorIf item.project.isNone (sentence id ("uses the static_inventory connector " ++
        "but sets no project — name the project whose checkout holds the inventory")) ++
      Connector.errorIf path.isNone (sentence id ("uses the static_inventory connector but sets " ++
        "no path — the inventory file inside the project checkout")))
  else match connectors[item.connector]? with
    | none => (none, [sentence id ("references unknown connector '" ++ item.connector ++ "'")])
    | some c =>
      (some { connectorType := match c.kind with
                | .script => .script
                | .ssh => .ssh
              projectId := c.project, scriptPath := c.script.getD c.path,
              scriptArgs := c.scriptArgs, hostArgs := c.hostArgs,
              timeoutSeconds := c.timeoutSeconds },
        item.refuseLocation id item.connector)

/-- The connector it names, if that is an item for ssh. -/
def sshConnector : Option Connector := connectors[item.connector]?.filter fun c => c.kind = .ssh

/-- What runs is the connector's. -/
def sshKeyErrors : List String :=
  Connector.errorIf (item.config.contains Connector.sshLocationConfigKey) (sentence id ("sets " ++
    "config." ++ Connector.sshLocationConfigKey ++ ", a key unified-api sets itself for its ssh " ++
    "connector — remove it: the connector's location decides")) ++
  ["gather_mode", "fact_path"].flatMap fun key => Connector.errorIf (item.config.contains key)
    (sentence id ("sets config." ++ key ++ ", which is no longer read — its connector '" ++
      item.connector ++ "' decides what runs (its path, or its script): remove it"))

/-- The runtime source, or every problem that can be known of the two. -/
def resolve : Except (List String) ResolvedSource :=
  let (handed, errors) := item.handed id connectors
  let ssh := item.sshConnector connectors
  let errors := errors ++ if ssh.isSome then item.sshKeyErrors id else []
  match handed, errors with
  | some handed, [] => .ok
      { name := item.name
        connector := item.connector
        connectorType := handed.connectorType
        sshLocation := ssh.bind (·.sshLocation)
        projectId := handed.projectId
        scriptPath := handed.scriptPath
        scriptArgs := handed.scriptArgs
        hostArgs := handed.hostArgs
        timeoutSeconds := item.timeoutSeconds.getD handed.timeoutSeconds
        hostSyncUpdatesGroupVars := item.hostSyncUpdatesGroupVars
        syncMode := item.syncMode
        credentialIds := item.credentials
        schedule := item.schedule
        syncIntervalSeconds := item.syncIntervalSeconds
        ttlSeconds := item.ttlSeconds
        ttlOverrides := item.ttlOverrides
        hostsFromSource := item.hostsFromSource
        allowOnDemandRefresh := item.allowOnDemandRefresh
        advertiseScope := item.advertiseScope
        config := item.config }
  | _, errors => .error errors

end

variable {item : SourceDef} {id : String} {connectors : StrMap Connector}

/-- An ssh source runs what its connector says. -/
structure RunsAs (c : Connector) (source : ResolvedSource) : Prop where
  connectorType : source.connectorType = .ssh
  sshLocation : source.sshLocation = c.sshLocation
  projectId : source.projectId = c.project
  scriptPath : source.scriptPath = c.script.getD c.path
  scriptArgs : source.scriptArgs = c.scriptArgs
  hostArgs : source.hostArgs = c.hostArgs

theorem RunsAs.withOverrides {c : Connector} {source : ResolvedSource} (h : RunsAs c source)
    (overrides : TtlOverrides) : RunsAs c { source with ttlOverrides := overrides } :=
  ⟨h.connectorType, h.sshLocation, h.projectId, h.scriptPath, h.scriptArgs, h.hostArgs⟩

theorem resolve_runsAs {c : Connector} {source : ResolvedSource}
    (hc : connectors[item.connector]? = some c) (hssh : c.kind = .ssh)
    (hbuiltIn : Connector.builtIn.contains item.connector = false)
    (h : item.resolve id connectors = .ok source) : RunsAs c source := by
  have hother : item.connector ≠ Connector.remote ∧ item.connector ≠ Connector.staticInventory := by
    simpa [Connector.builtIn] using hbuiltIn
  have hitem : item.sshConnector connectors = some c := by simp [sshConnector, hc, hssh]
  simp only [resolve, handed, if_neg hother.1, if_neg hother.2, hc, hitem] at h
  split at h
  · rename_i hhanded _
    obtain rfl := Option.some.inj hhanded
    obtain rfl := Except.ok.inj h
    constructor <;> simp [hssh]
  · cases h

/-- What does not resolve says why. -/
theorem resolve_error {found : List String} (h : item.resolve id connectors = .error found) :
    found ≠ [] := by
  rintro rfl
  simp only [resolve] at h
  split at h
  · cases h
  · rename_i hnone
    have herrors := Except.error.inj h
    rw [List.append_eq_nil_iff] at herrors
    have hhanded : (item.handed id connectors).1 = none := by
      cases hhanded : (item.handed id connectors).1 with
      | none => rfl
      | some handed => exact (hnone handed hhanded (List.append_eq_nil_iff.mpr herrors)).elim
    unfold handed at hhanded herrors
    split at hhanded
    · cases hhanded
    · split at hhanded
      · cases hhanded
      · split at hhanded
        · simp_all
        · cases hhanded

end SourceDef

end UnifiedApi

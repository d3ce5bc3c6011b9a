import UnifiedApi.Application.SyncRequest
import UnifiedApi.Domain.HostsFromSource
import UnifiedApi.Domain.SourceDef
import UnifiedApi.Domain.SyncHealth
import UnifiedApi.Lib.Results

/-! # What a sync hands to its connector

The source as it is executed now: its script in the project's checkout, if it is
there, and its configuration with the keys that a run adds. -/

namespace UnifiedApi

/-- The files on this machine. -/
structure Disk where
  isFile : String → Bool
  isDir : String → Bool
  read : String → Except String (List UInt8)

/-- `Path::join` -/
def joinPath (dir path : String) : String :=
  if Connector.isAbsolute path || dir.isEmpty then path
  else if dir.toList.getLast? == some '/' then dir ++ path
  else dir ++ "/" ++ path

section
variable (disk : Disk) (projectsDir : String)

def resolveScriptPath (projectId scriptPath : String) : String :=
  if Connector.isAbsolute scriptPath then scriptPath
  else
    let candidate := joinPath (joinPath projectsDir projectId) scriptPath
    if disk.isFile candidate then candidate else scriptPath

def venvBinDir (projectId : String) : Option String :=
  let bin := joinPath (joinPath (joinPath projectsDir ".venvs") projectId) "bin"
  if disk.isDir bin then some bin else none

/-- Whether its script is a file here. -/
def ResolvedSource.readsHere (source : ResolvedSource) : Bool :=
  match source.connectorType with
  | .remote => false
  | .ssh => source.sshLocation == some .inst
  | .script | .staticInventory => true

/-- The source as a sync should execute it. -/
def ResolvedSource.forSync (source : ResolvedSource) : ResolvedSource :=
  match source.projectId with
  | none => source
  | some projectId =>
    if source.readsHere then
      let source := { source with
        scriptPath := resolveScriptPath disk projectsDir projectId source.scriptPath }
      if source.connectorType = .ssh then source
      else match venvBinDir disk projectsDir projectId with
        | some bin => { source with config := source.config.insert "python_venv_bin" bin }
        | none => source
    else source

end

/-- A request as `run_sync` sees it. -/
structure RunRequest extends SyncRequest where
  trigger : Option String := none
  runTrigger : RunTrigger

section
variable (specsToString : List HostSpec → Except String String)

/-- The hosts of another source, as it is in the cache. -/
def hostsSpec (cached : Option Dataset) (hfs : HostsFromSource) : Except String String :=
  match cached with
  | none => .error ("hosts_from_source '" ++ hfs.source ++ "' is not in the cache yet — sync it " ++
      "first")
  | some dataset =>
    let specs := (hfs.resolve dataset).items
    if specs.isEmpty then
      .error ("hosts_from_source '" ++ hfs.source ++ "' resolved to zero hosts (pattern too " ++
        "narrow, or empty source?)")
    else match specsToString specs with
      | .ok json => .ok json
      | .error e => .error ("failed to serialize hosts_spec: " ++ e)

def SyncScope.addTo (scope : SyncScope) (config : StrMap String) : StrMap String :=
  match scope with
  | .hosts names => (config.insert "scope" "host").insert "target" (",".intercalate names)
  | .group name => (config.insert "scope" "group").insert "target" name
  | .full => config

/-- Who asked, and whether the origin is to be asked. -/
def RunRequest.addTo (request : RunRequest) (config : StrMap String) : StrMap String :=
  let config := match request.trigger with
    | some trigger => config.insert "trigger" trigger
    | none => config
  if request.refreshOrigin then
    let config := (config.insert "refresh_origin" "true").insert "refresh_depth"
      (toString request.refreshDepth.toNat)
    if request.runTrigger = .refresh then config.insert "refresh_on_read" "true" else config
  else config

/-- Set or removed for every ssh source, so that nothing in its own
configuration can stand in for it. -/
def ResolvedSource.addLocation (source : ResolvedSource) (config : StrMap String) : StrMap String :=
  if source.connectorType = .ssh then
    match source.sshLocation with
    | some location => config.insert Connector.sshLocationConfigKey location.name
    | none => config.erase Connector.sshLocationConfigKey
  else config

/-- The source's own configuration, with the hosts it takes from another. -/
def hostsConfig (cached : String → Option Dataset) (source : ResolvedSource) :
    Except String (StrMap String) :=
  match source.hostsFromSource with
  | some hfs => (hostsSpec specsToString (cached hfs.source) hfs).map fun json =>
      source.config.insert "hosts_spec" json
  | none => .ok source.config

/-- The configuration that the connector runs with. -/
def runConfig (cached : String → Option Dataset) (source : ResolvedSource)
    (request : RunRequest) : Except String (StrMap String) :=
  (hostsConfig specsToString cached source).map fun config =>
    source.addLocation (request.addTo (request.scope.addTo config))

end

/-- Every `\x7btarget\x7d` becomes the hosts. -/
def substituteTarget (target : List Char) : List Char → List Char
  | '\x7b' :: 't' :: 'a' :: 'r' :: 'g' :: 'e' :: 't' :: '\x7d' :: rest =>
    target ++ substituteTarget target rest
  | c :: rest => c :: substituteTarget target rest
  | [] => []

/-- The arguments of this run: a host scope has its own, if there are any. -/
def argsForScope (source : ResolvedSource) : SyncScope → List String
  | .hosts hosts =>
    if source.hostArgs.isEmpty then source.scriptArgs
    else source.hostArgs.map fun arg =>
      String.ofList (substituteTarget (",".intercalate hosts).toList arg.toList)
  | _ => source.scriptArgs

/-! ## What a run adds -/

section
variable {specsToString : List HostSpec → Except String String}

/-- A key that no run adds keeps what it has. -/
theorem addTo_other {request : RunRequest} {config : StrMap String} {key : String}
    (h : key ∉ ["trigger", "refresh_origin", "refresh_depth", "refresh_on_read"]) :
    (request.addTo config)[key]? = config[key]? := by
  simp only [List.mem_cons, List.not_mem_nil, or_false, not_or] at h
  obtain ⟨htrigger, horigin, hdepth, hread⟩ := h
  unfold RunRequest.addTo
  cases request.trigger <;> simp only <;> (repeat' split) <;>
    simp [StrMap.getElem?_insert, Ne.symm htrigger, Ne.symm horigin, Ne.symm hdepth, Ne.symm hread]

/-- What an ssh adapter finds in the configuration of a run. -/
structure SshConfig (specsToString : List HostSpec → Except String String)
    (source : ResolvedSource) (request : RunRequest) (cached : String → Option Dataset)
    (config : StrMap String) : Prop where
  location : config[Connector.sshLocationConfigKey]? = source.sshLocation.map Location.name
  scope : config["scope"]? = match request.scope with
    | .hosts _ => some "host"
    | .group _ => some "group"
    | .full => source.config["scope"]?
  target : config["target"]? = match request.scope with
    | .hosts hosts => some (",".intercalate hosts)
    | .group group => some group
    | .full => source.config["target"]?
  hosts : config["hosts"]? = source.config["hosts"]?
  hostsSpec : match source.hostsFromSource with
    | none => config["hosts_spec"]? = source.config["hosts_spec"]?
    | some hfs => ∃ dataset json, cached hfs.source = some dataset ∧
        (hfs.resolve dataset).items ≠ [] ∧
          specsToString (hfs.resolve dataset).items = .ok json ∧ config["hosts_spec"]? = some json

theorem hostsSpec_ok {cached : Option Dataset} {hfs : HostsFromSource} {json : String}
    (h : hostsSpec specsToString cached hfs = .ok json) :
    ∃ dataset, cached = some dataset ∧ (hfs.resolve dataset).items ≠ [] ∧
      specsToString (hfs.resolve dataset).items = .ok json := by
  unfold hostsSpec at h
  cases cached with
  | none => cases h
  | some dataset =>
    dsimp only at h
    split at h
    · cases h
    · rename_i hsome
      refine ⟨dataset, rfl, by simpa using hsome, ?_⟩
      split at h
      · rename_i hjson
        rw [hjson, Except.ok.inj h]
      · cases h

theorem addScope_getElem? (scope : SyncScope) (config : StrMap String) (key : String) :
    (scope.addTo config)[key]? = if key = "scope" then
        match scope with
        | .hosts _ => some "host"
        | .group _ => some "group"
        | .full => config["scope"]?
      else if key = "target" then
        match scope with
        | .hosts hosts => some (",".intercalate hosts)
        | .group group => some group
        | .full => config["target"]?
      else config[key]? := by
  unfold SyncScope.addTo
  by_cases hscope : key = "scope"
  · subst hscope
    cases scope <;> simp only [StrMap.getElem?_insert] <;> simp
  · by_cases htarget : key = "target"
    · subst htarget
      cases scope <;> simp only [StrMap.getElem?_insert] <;> simp
    · cases scope <;> simp only [StrMap.getElem?_insert] <;>
        simp [hscope, htarget, Ne.symm hscope, Ne.symm htarget]

theorem addLocation_getElem? {source : ResolvedSource} (hssh : source.connectorType = .ssh)
    (config : StrMap String) (key : String) : (source.addLocation config)[key]? =
      if key = Connector.sshLocationConfigKey then source.sshLocation.map Location.name
      else config[key]? := by
  rw [ResolvedSource.addLocation, if_pos hssh]
  simp only [eq_comm (a := key)]
  cases source.sshLocation with
  | none => exact StrMap.getElem?_erase config _ key
  | some location => exact StrMap.getElem?_insert config _ key location.name

theorem sshConfig_of_runConfig {source : ResolvedSource} {request : RunRequest}
    {cached : String → Option Dataset} {config : StrMap String}
    (hssh : source.connectorType = .ssh)
    (h : runConfig specsToString cached source request = .ok config) :
    SshConfig specsToString source request cached config := by
  obtain ⟨own, hown, rfl⟩ := Results.ok_of_map h
  -- the scope is added to the configuration of the source, and nothing after it
  -- touches what the adapter reads
  have hkeeps : ∀ key, key ∉ ["trigger", "refresh_origin", "refresh_depth", "refresh_on_read",
      Connector.sshLocationConfigKey] →
      (source.addLocation (request.addTo (request.scope.addTo own)))[key]? =
        (request.scope.addTo own)[key]? := by
    intro key hkey
    have hne : key ≠ Connector.sshLocationConfigKey := fun heq => hkey (by simp [heq])
    rw [addLocation_getElem? hssh, if_neg hne]
    exact addTo_other fun hmem => hkey (by simp_all)
  have hsource : ∀ key, key ≠ "hosts_spec" → own[key]? = source.config[key]? := by
    intro key hkey
    unfold hostsConfig at hown
    cases hhfs : source.hostsFromSource with
    | none =>
      rw [hhfs] at hown
      rw [← Except.ok.inj hown]
    | some hfs =>
      rw [hhfs] at hown
      obtain ⟨json, _, rfl⟩ := Results.ok_of_map hown
      rw [StrMap.getElem?_insert, if_neg (Ne.symm hkey)]
  constructor
  · rw [addLocation_getElem? hssh, if_pos rfl]
  · rw [hkeeps _ (by decide), addScope_getElem?, if_pos rfl, hsource _ (by decide)]
  · rw [hkeeps _ (by decide), addScope_getElem?, if_neg (by decide), if_pos rfl,
      hsource _ (by decide)]
  · rw [hkeeps _ (by decide), addScope_getElem?, if_neg (by decide), if_neg (by decide),
      hsource _ (by decide)]
  · rw [hkeeps _ (by decide), addScope_getElem?, if_neg (by decide), if_neg (by decide)]
    unfold hostsConfig at hown
    cases hhfs : source.hostsFromSource with
    | none =>
      rw [hhfs] at hown
      rw [← Except.ok.inj hown]
    | some hfs =>
      rw [hhfs] at hown
      obtain ⟨json, hspec, rfl⟩ := Results.ok_of_map hown
      obtain ⟨dataset, hcached, hsome, hstring⟩ := hostsSpec_ok hspec
      refine ⟨dataset, json, hcached, hsome, hstring, ?_⟩
      rw [StrMap.getElem?_insert, if_pos rfl]

end

end UnifiedApi

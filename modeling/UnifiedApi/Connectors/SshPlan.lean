import UnifiedApi.Application.RunSync
import UnifiedApi.Connectors.SshFanOut
import UnifiedApi.Lib.Sorted

/-! # What a sync runs on the hosts, and on which

From a connector and a source as they are written to the command line that every
session sends, through the resolved source, the run's configuration and the
adapter's reading of it. -/

namespace UnifiedApi

namespace Ssh

/-- What one sync runs on every host. -/
structure Plan where
  command : String
  /-- Written to the command's standard input. -/
  stdin : Option (List UInt8)
  /-- Whether the output is a stream of facts. -/
  facts : Bool
  what : String
  deriving DecidableEq

def streamPlan (args : List String) (whose what : String) (script : List UInt8) :
    Except String Plan :=
  match streamCommand script args with
  | .ok command => .ok ⟨command, some script, false, what⟩
  | .error e => .error (whose ++ ": " ++ e)

section
variable (disk : Disk)

def filesPlan (path : String) (args : List String) : Plan :=
  ⟨factsCommand path args, none, true, "files on each host"⟩

/-- Read at every sync. -/
def filePlan (path : String) (args : List String) : Except String Plan :=
  match disk.read path with
  | .error e => .error ("Cannot read ssh script '" ++ path ++ "': " ++ e)
  | .ok script => streamPlan args ("ssh script '" ++ path ++ "'") "a script streamed to each host"
      script

def inlinePlan (script : String) (args : List String) : Except String Plan :=
  streamPlan args "the connector's script" "the connector's script, streamed to each host"
    (FormUrl.utf8 script.toList)

/-- Decided once, from the location. -/
def plan (scriptPath : String) (args : List String) (config : StrMap String) : Except String Plan :=
  match config[Connector.sshLocationConfigKey]? with
  | some "host" => .ok (filesPlan scriptPath args)
  | some "instance" => filePlan disk scriptPath args
  | _ => inlinePlan scriptPath args

/-- The sessions of a sync: on which hosts, and what runs there. -/
structure Sessions where
  hosts : List HostSpec
  plan : Plan

def execute (specsFromStr : String → Except String (List HostSpec)) (scriptPath : String)
    (args : List String) (config : StrMap String) : Except String Sessions :=
  match hostsToGather specsFromStr config with
  | .error e => .error e
  | .ok hosts => (plan disk scriptPath args config).map fun plan => ⟨hosts, plan⟩

/-- A sync of an ssh source, up to its sessions. -/
def syncSessions (projectsDir : String) (specsToString : List HostSpec → Except String String)
    (specsFromStr : String → Except String (List HostSpec)) (cached : String → Option Dataset)
    (source : ResolvedSource) (request : RunRequest) : Except String Sessions :=
  let source := source.forSync disk projectsDir
  match runConfig specsToString cached source request with
  | .error e => .error e
  | .ok config => execute disk specsFromStr source.scriptPath
      (argsForScope source request.scope) config

end

end Ssh

/-! ## What runs is the connector's -/

namespace Connector

/-- What a connector stands for, with the files of this machine. -/
def sshPlan (c : Connector) (disk : Disk) (projectsDir : String) : Except String Ssh.Plan :=
  match c.sshLocation with
  | some .host => .ok (Ssh.filesPlan c.path c.scriptArgs)
  | some .inst =>
    let path := match c.project with
      | some project => resolveScriptPath disk projectsDir project c.path
      | none => c.path
    Ssh.filePlan disk path c.scriptArgs
  | none => Ssh.inlinePlan (c.script.getD c.path) c.scriptArgs

end Connector

namespace Ssh

variable {disk : Disk} {projectsDir : String}
  {specsToString : List HostSpec → Except String String}
  {specsFromStr : String → Except String (List HostSpec)} {cached : String → Option Dataset}

/-- For an ssh source only the path of a script here changes. -/
theorem forSync_ssh (disk : Disk) (projectsDir : String) {source : ResolvedSource}
    (hssh : source.connectorType = .ssh) :
    source.forSync disk projectsDir = { source with
      scriptPath := match source.projectId with
        | some projectId => if source.sshLocation = some .inst then
            resolveScriptPath disk projectsDir projectId source.scriptPath
          else source.scriptPath
        | none => source.scriptPath } := by
  obtain ⟨⟨_, _, _, _, _, _, _, _, _, _⟩, _, _, sshLocation, projectId, _⟩ := source
  obtain rfl := hssh
  cases projectId with
  | none => rfl
  | some projectId =>
    simp only [ResolvedSource.forSync, ResolvedSource.readsHere, beq_iff_eq, if_true]
    split <;> rfl

theorem syncSessions_ok {source : ResolvedSource} {request : RunRequest} {sessions : Sessions}
    (h : syncSessions disk projectsDir specsToString specsFromStr cached source request =
      .ok sessions) :
    ∃ config,
      runConfig specsToString cached (source.forSync disk projectsDir) request = .ok config ∧
      hostsToGather specsFromStr config = .ok sessions.hosts ∧
        plan disk (source.forSync disk projectsDir).scriptPath
          (argsForScope (source.forSync disk projectsDir) request.scope) config =
            .ok sessions.plan := by
  simp only [syncSessions] at h
  split at h
  · cases h
  · rename_i config hconfig
    unfold execute at h
    split at h
    · cases h
    · rename_i hosts hhosts
      obtain ⟨found, hplan, rfl⟩ := Results.ok_of_map h
      exact ⟨config, hconfig, hhosts, hplan⟩

/-- Only what is sent can be planned. -/
theorem sent_of_sshPlan {c : Connector} {run : Connector.SshRun} (hform : Connector.SshForm c run)
    {found : Plan} (h : c.sshPlan disk projectsDir = .ok found) :
    ∃ inner, Sent inner c.scriptArgs found.command := by
  have hstream : ∀ {whose what : String} {script : List UInt8},
      streamPlan c.scriptArgs whose what script = .ok found →
        ∃ inner, Sent inner c.scriptArgs found.command := by
    intro whose what script h
    unfold streamPlan at h
    split at h
    · rename_i command hcommand
      obtain ⟨run, hrun, _⟩ := Results.ok_of_map hcommand
      obtain rfl := Except.ok.inj h
      exact ⟨_, .stream hrun hcommand⟩
    · cases h
  unfold Connector.sshPlan at h
  cases hform with
  | files hlocation _ _ hpath =>
    rw [hlocation] at h
    obtain rfl := Except.ok.inj h
    exact ⟨_, .facts hpath⟩
  | file hlocation _ _ =>
    rw [hlocation] at h
    simp only [filePlan] at h
    split at h
    · cases h
    · exact hstream h
  | inline hlocation _ _ =>
    rw [hlocation] at h
    exact hstream h

/-- What a sync runs is what the connector of its source stands for, whatever the
source's own configuration, the request and the cache hold. -/
theorem plan_of_runsAs {c : Connector} {run : Connector.SshRun} {source : ResolvedSource}
    {request : RunRequest} {sessions : Sessions} (hruns : SourceDef.RunsAs c source)
    (hform : Connector.SshForm c run) (hhostArgs : c.hostArgs = [])
    (hsessions : syncSessions disk projectsDir specsToString specsFromStr cached source request =
      .ok sessions) : c.sshPlan disk projectsDir = .ok sessions.plan := by
  obtain ⟨config, hconfig, _, hplan⟩ := syncSessions_ok hsessions
  have hsync := forSync_ssh disk projectsDir hruns.connectorType
  have hlocation : config[Connector.sshLocationConfigKey]? = c.sshLocation.map Location.name := by
    rw [(sshConfig_of_runConfig (by rw [hsync]; exact hruns.connectorType) hconfig).location, hsync]
    exact congrArg _ hruns.sshLocation
  have hargs : argsForScope (source.forSync disk projectsDir) request.scope = c.scriptArgs := by
    have hnone : (source.forSync disk projectsDir).hostArgs = [] := by
      rw [hsync]
      exact hruns.hostArgs.trans hhostArgs
    have hscript : (source.forSync disk projectsDir).scriptArgs = c.scriptArgs := by
      rw [hsync]
      exact hruns.scriptArgs
    unfold argsForScope
    cases request.scope <;> simp [hnone, hscript]
  rw [← hplan, hargs, hsync]
  unfold plan Connector.sshPlan
  rw [hlocation]
  cases hform with
  | files hlocation hscript hproject _ =>
    simp [hlocation, Location.name, hruns.projectId, hproject, hruns.scriptPath, hscript]
  | file hlocation hscript _ =>
    simp only [hlocation, Option.map_some, Location.name, hruns.projectId, hruns.sshLocation,
      hruns.scriptPath, hscript, Option.getD_none, if_true]
  | inline hlocation hscript hproject =>
    simp [hlocation, hruns.projectId, hproject, hruns.scriptPath]

/-! ## On which hosts -/

/-- Joined with commas and read back, every name gives what is between its own. -/
theorem commaNames_append (text more : String) :
    Text.commaNames (text ++ "," ++ more) = Text.commaNames text ++ Text.commaNames more := by
  have hlist : (text ++ "," ++ more).toList = text.toList ++ ',' :: more.toList := by
    simp [String.toList_append]
  simp only [Text.commaNames, hlist, List.splitOn_append_cons_self, List.map_append,
    List.filter_append]

theorem mem_commaNames_intercalate {names : List String} {name : String} :
    name ∈ Text.commaNames (",".intercalate names) ↔
      ∃ part ∈ names, name ∈ Text.commaNames part := by
  induction names with
  | nil =>
    have hempty : Text.commaNames (",".intercalate []) = [] := by decide
    rw [hempty]
    simp
  | cons first rest ih =>
    cases rest with
    | nil => simp
    | cons second rest =>
      rw [String.intercalate_cons_cons, commaNames_append, List.mem_append, ih]
      simp only [List.mem_cons, exists_eq_or_imp]

end Ssh

theorem pairwise_dedup {names : List String} (h : names.Pairwise (· ≤ ·)) :
    (dedup names).Pairwise (· < ·) := by
  induction names with
  | nil => exact .nil
  | cons first rest ih =>
    obtain ⟨hfirst, hrest⟩ := List.pairwise_cons.mp h
    have hsorted := ih hrest
    rw [dedup]
    split
    · exact List.pairwise_singleton ..
    · rename_i next others hdedup
      rw [hdedup] at hsorted
      have hle : first ≤ next := hfirst next (mem_dedup.mp (hdedup ▸ List.mem_cons_self))
      split
      · exact hsorted
      · rename_i hne
        have hlt : first < next := String.not_le.mp fun hge => hne (String.le_antisymm hle hge)
        refine List.pairwise_cons.mpr ⟨fun name hname => ?_, hsorted⟩
        rcases List.mem_cons.mp hname with rfl | hname
        · exact hlt
        · exact String.lt_trans hlt ((List.pairwise_cons.mp hsorted).1 name hname)

namespace HostsFromSource
variable {hfs : HostsFromSource} {dataset : Dataset}

theorem addSpecs_items (hosts : List String) (specs : Selected HostSpec) :
    (hosts.foldl (hfs.addSpec dataset) specs).items = specs.items ++ hosts.filterMap fun host =>
      (hfs.addresses dataset host).map fun addresses => ⟨host, dedup addresses⟩ := by
  induction hosts generalizing specs with
  | nil => simp
  | cons host rest ih =>
    rw [List.foldl_cons, ih, addSpec]
    cases haddresses : hfs.addresses dataset host <;> simp [haddresses]

theorem resolve_items : (hfs.resolve dataset).items =
    (dedup (hfs.pick dataset).items.mergeSort).filterMap fun host =>
      (hfs.addresses dataset host).map fun addresses => ⟨host, dedup addresses⟩ := by
  rw [resolve, addSpecs_items]
  rfl

/-- Those that are picked and have an address, with the addresses to try. -/
theorem mem_resolve_items {spec : HostSpec} : spec ∈ (hfs.resolve dataset).items ↔
    spec.name ∈ (hfs.pick dataset).items ∧ ∃ addresses,
      hfs.addresses dataset spec.name = some addresses ∧ spec.addresses = dedup addresses := by
  rw [resolve_items, List.mem_filterMap]
  constructor
  · rintro ⟨host, hhost, hspec⟩
    obtain ⟨addresses, haddresses, rfl⟩ := Option.map_eq_some_iff.mp hspec
    exact ⟨by simpa [mem_dedup] using hhost, addresses, haddresses, rfl⟩
  · rintro ⟨hpicked, addresses, haddresses, hspec⟩
    refine ⟨spec.name, by simpa [mem_dedup] using hpicked, ?_⟩
    rw [haddresses, Option.map_some, ← hspec]

theorem nodup_resolve_names : ((hfs.resolve dataset).items.map (·.name)).Nodup := by
  have hsorted : (hfs.pick dataset).items.mergeSort.Pairwise (· ≤ ·) :=
    Sorted.pairwise_mergeSort (fun name => name) _
  have hnodup : (dedup (hfs.pick dataset).items.mergeSort).Nodup :=
    (pairwise_dedup hsorted).imp fun {a b} (h : a < b) (heq : a = b) =>
      String.lt_irrefl b (heq ▸ h)
  rw [resolve_items, List.map_filterMap]
  refine hnodup.filterMap fun host other name hname hother => ?_
  simp only [Option.mem_def, Option.map_map, Option.map_eq_some_iff,
    Function.comp_apply] at hname hother
  obtain ⟨_, _, rfl⟩ := hname
  obtain ⟨_, _, rfl⟩ := hother
  rfl

end HostsFromSource

namespace Ssh

/-- Which hosts a request is about; a full one leaves the keys of the scope to
the source's own configuration. -/
def Wants (source : ResolvedSource) (request : RunRequest) (host : String) : Prop :=
  match request.scope with
  | .hosts names => ∃ name ∈ names, host ∈ Text.commaNames name
  | .group _ => True
  | .full => source.config["scope"]? = some "host" →
      host ∈ Text.commaNames (source.config["target"]?.getD "")

/-- The hosts a sync opens sessions on, where they are taken from another source:
those of the pattern that the request is about and that have an address, each
once, with the addresses in the order asked for. -/
theorem sessions_exact {disk : Disk} {projectsDir : String}
    {specsToString : List HostSpec → Except String String}
    {specsFromStr : String → Except String (List HostSpec)} {cached : String → Option Dataset}
    (hserde : ∀ specs json, specsToString specs = .ok json → specsFromStr json = .ok specs)
    {source : ResolvedSource} {hfs : HostsFromSource} {request : RunRequest} {sessions : Sessions}
    (hssh : source.connectorType = .ssh) (hhfs : source.hostsFromSource = some hfs)
    (hsessions : syncSessions disk projectsDir specsToString specsFromStr cached source request =
      .ok sessions) :
    ∃ dataset, cached hfs.source = some dataset ∧ (sessions.hosts.map (·.name)).Nodup ∧
      ∀ spec, spec ∈ sessions.hosts ↔ Wants source request spec.name ∧
        spec.name ∈ (hfs.pick dataset).items ∧ ∃ addresses,
          hfs.addresses dataset spec.name = some addresses ∧ spec.addresses = dedup addresses := by
  obtain ⟨config, hconfig, hhosts, _⟩ := syncSessions_ok hsessions
  have hsync := forSync_ssh disk projectsDir hssh
  have hfound := sshConfig_of_runConfig (by rw [hsync]; exact hssh) hconfig
  rw [hsync] at hfound
  have hspec := hfound.hostsSpec
  rw [show ({ source with scriptPath := _ } : ResolvedSource).hostsFromSource = some hfs from hhfs]
    at hspec
  obtain ⟨dataset, json, hcached, hsome, hjson, hkey⟩ := hspec
  have hparsed : parseHosts specsFromStr config = .ok (hfs.resolve dataset).items := by
    simp [parseHosts, hkey, hserde _ _ hjson, hsome]
  have hnarrowed : narrowToScope (hfs.resolve dataset).items config = .ok sessions.hosts := by
    rwa [hostsToGather, hparsed] at hhosts
  have hwants : sessions.hosts = (hfs.resolve dataset).items.filter fun spec =>
      decide (config["scope"]? = some "host" →
        spec.name ∈ Text.commaNames (config["target"]?.getD "")) := by
    unfold narrowToScope at hnarrowed
    split at hnarrowed
    · rename_i hscope
      rw [← Except.ok.inj hnarrowed, List.filter_eq_self.mpr fun spec _ => ?_]
      exact decide_eq_true fun h => absurd h hscope
    · rename_i hscope
      rw [ne_eq, Decidable.not_not] at hscope
      dsimp only at hnarrowed
      split at hnarrowed
      · cases hnarrowed
      · rw [← Except.ok.inj hnarrowed]
        refine List.filter_congr fun spec _ => ?_
        simp [hscope]
  have hiff : ∀ host, (config["scope"]? = some "host" →
      host ∈ Text.commaNames (config["target"]?.getD "")) ↔ Wants source request host := by
    intro host
    rw [hfound.scope, hfound.target]
    unfold Wants
    cases request.scope with
    | full => exact Iff.rfl
    | group _ => simp
    | hosts names => simp [mem_commaNames_intercalate]
  refine ⟨dataset, hcached, ?_, fun spec => ?_⟩
  · rw [hwants]
    exact HostsFromSource.nodup_resolve_names.sublist (List.filter_sublist.map _)
  · rw [hwants, List.mem_filter, decide_eq_true_eq, hiff, HostsFromSource.mem_resolve_items]
    exact and_comm

/-- Two web servers and a database, by the address if there is one. -/
def webAndDb : HostsFromSource where
  source := "inventory"
  matchPattern := { groups := ["web"], hosts := ["db01"] }
  connectVia := .ansibleHostThenHostname

def inventorySource : ResolvedSource where
  name := "Web"
  connector := "facts"
  connectorType := .ssh
  sshLocation := some .host
  projectId := none
  scriptPath := "/etc/ansible/facts.d/*.fact"
  scriptArgs := []
  hostArgs := []
  timeoutSeconds := 300
  schedule := none
  syncIntervalSeconds := none
  ttlSeconds := 60
  allowOnDemandRefresh := false
  hostsFromSource := some webAndDb

def emptyDisk : Disk := ⟨fun _ => false, fun _ => false, fun _ => .error "no such file"⟩

def webSpecs : List HostSpec := [⟨"web01", ["10.0.0.1", "web01"]⟩, ⟨"web02", ["web02"]⟩]

def dbSpec : HostSpec := ⟨"db01", ["db01"]⟩

/-- What serde writes and reads of the three. -/
def specsText : String :=
  "[\x7b\"name\":\"db01\",\"addresses\":[\"db01\"]\x7d," ++
    "\x7b\"name\":\"web01\",\"addresses\":[\"10.0.0.1\",\"web01\"]\x7d," ++
    "\x7b\"name\":\"web02\",\"addresses\":[\"web02\"]\x7d]"

def specsToText (specs : List HostSpec) : Except String String :=
  if specs = dbSpec :: webSpecs then .ok specsText else .error "unexpected"

def specsOfText (text : String) : Except String (List HostSpec) :=
  if text = specsText then .ok (dbSpec :: webSpecs) else .error "unexpected"

def inventoryOfWeb : Dataset where
  hostvars := ((((∅ : StrMap HostVars).insert "web01" ((∅ : HostVars).insert "ansible_host"
    (.string "10.0.0.1"))).insert "web02" ∅).insert "db01" ∅).insert "mail01" ∅
  groups := (∅ : StrMap Group).insert "web" { hosts := ["web01", "web02"] }

/-- A sync of the web servers, named in one parameter, and of the host that the
pattern leaves out. -/
def inventorySync : Except String Sessions :=
  syncSessions emptyDisk "projects" specsToText specsOfText (fun _ => some inventoryOfWeb)
    inventorySource ⟨.new (.hosts ["web01,web02", "mail01"]), none, .manual⟩

theorem resolve_webAndDb : (webAndDb.resolve inventoryOfWeb).items = dbSpec :: webSpecs := by
  have hpicked : (webAndDb.pick inventoryOfWeb).items = ["web01", "web02", "db01"] := by
    decide +kernel
  have hsorted : ["web01", "web02", "db01"].mergeSort = ["db01", "web01", "web02"] :=
    (Sorted.mergeSort_eq_of_perm (by decide)).trans (List.mergeSort_of_pairwise (by decide))
  rw [HostsFromSource.resolve_items, hpicked, hsorted]
  decide +kernel

theorem inventorySync_ok : ∃ sessions, inventorySync = .ok sessions := by
  have hsource : inventorySource.forSync emptyDisk "projects" = inventorySource := rfl
  have hconfig : hostsConfig specsToText (fun _ => some inventoryOfWeb) inventorySource =
      .ok ((∅ : StrMap String).insert "hosts_spec" specsText) := by
    show (hostsSpec specsToText (some inventoryOfWeb) webAndDb).map _ = _
    rw [hostsSpec]
    simp only [resolve_webAndDb]
    rfl
  simp only [inventorySync, syncSessions, hsource, runConfig, hconfig]
  exact Results.ok_of_isSome (by decide +kernel)

/-- The sessions are those on the web servers. -/
theorem inventorySync_exact : ∃ sessions, inventorySync = .ok sessions ∧
    (sessions.hosts.map (·.name)).Nodup ∧ ∀ spec, spec ∈ sessions.hosts ↔ spec ∈ webSpecs := by
  have hserde : ∀ specs json, specsToText specs = .ok json → specsOfText json = .ok specs := by
    intro specs json h
    unfold specsToText at h
    split at h
    · rename_i hspecs
      rw [← Except.ok.inj h, hspecs]
      rfl
    · cases h
  obtain ⟨sessions, hsessions⟩ := inventorySync_ok
  obtain ⟨dataset, hcached, hnodup, hexact⟩ := sessions_exact hserde rfl rfl hsessions
  obtain rfl := Option.some.inj hcached
  have htogether : Text.commaNames "web01,web02" = ["web01", "web02"] := by decide +kernel
  have halone : Text.commaNames "mail01" = ["mail01"] := by decide +kernel
  refine ⟨sessions, hsessions, hnodup, fun spec => (hexact spec).trans ?_⟩
  rw [← HostsFromSource.mem_resolve_items, resolve_webAndDb]
  constructor
  · rintro ⟨⟨name, hname, hnamed⟩, hspec⟩
    refine (List.mem_cons.mp hspec).resolve_left ?_
    rintro rfl
    simp only [List.mem_cons, List.not_mem_nil, or_false] at hname
    obtain rfl | rfl := hname <;> simp [htogether, halone, dbSpec] at hnamed
  · intro hspec
    refine ⟨⟨"web01,web02", by simp, ?_⟩, List.mem_cons_of_mem _ hspec⟩
    rw [htogether]
    simp only [webSpecs, List.mem_cons, List.not_mem_nil, or_false] at hspec
    obtain rfl | rfl := hspec <;> simp

end Ssh

end UnifiedApi

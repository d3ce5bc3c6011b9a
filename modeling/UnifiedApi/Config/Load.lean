import UnifiedApi.Config.ItemFiles
import UnifiedApi.Connectors.SshPlan
import UnifiedApi.Domain.HostItems

/-! # Loading a configuration directory

The items of its files, each source with its connector's settings resolved into
it, and the host and group items folded into the sources: up to the checks of
the whole. The maps are gone through in whatever order they have in a process. -/

namespace UnifiedApi

/-- The sections whose items the loader reads; those of the others are of any
type. -/
def ConfigItem (Other : ConfigSection → Type) : ConfigSection → Type
  | .connectors => Connector
  | .sources => SourceDef
  | .hosts => HostDef
  | .groups => GroupDef
  | kind => Other kind

section
variable {Other : ConfigSection → Type} (items : ∀ kind, StrMap (ConfigItem Other kind))

def connectorsOf : StrMap Connector := items .connectors
def sourceDefsOf : StrMap SourceDef := items .sources
def hostDefsOf : StrMap HostDef := items .hosts
def groupDefsOf : StrMap GroupDef := items .groups
def viewIdsOf : List String := (items .views).keys

end

/-- The order in which a process goes through its maps. -/
structure Iteration where
  order : ∀ {α : Type}, StrMap α → List (String × α)
  perm : ∀ {α : Type} (m : StrMap α), (order m).Perm m.toList

namespace Iteration

def sorted : Iteration := ⟨fun m => m.toList, fun _ => .refl _⟩

def reversed : Iteration := ⟨fun m => m.toList.reverse, fun m => m.toList.reverse_perm⟩

variable (it : Iteration)

def settingsOf (kind : ItemKind) (items : StrMap (StrMap PerSource)) : List Setting :=
  (it.order items).flatMap fun (id, perSource) => (it.order perSource).map fun (sourceId, per) =>
    ⟨kind, id, sourceId, per.ttlSeconds⟩

def itemSettings (hosts : StrMap HostDef) (groups : StrMap GroupDef) : List Setting :=
  it.settingsOf .host (hosts.map fun _ item => item.sources) ++
    it.settingsOf .group (groups.map fun _ item => item.sources)

theorem nodup_order {α : Type} (m : StrMap α) : ((it.order m).map Prod.fst).Nodup := by
  rw [((it.perm m).map Prod.fst).nodup_iff, Std.ExtTreeMap.map_fst_toList_eq_keys]
  exact Std.ExtTreeMap.nodup_keys

theorem mem_order {α : Type} {m : StrMap α} {id : String} {a : α} :
    (id, a) ∈ it.order m ↔ m[id]? = some a := by
  rw [(it.perm m).mem_iff, Std.ExtTreeMap.mem_toList_iff_getElem?_eq_some]

theorem lookup_order {α : Type} (m : StrMap α) (id : String) : (it.order m).lookup id = m[id]? :=
  Option.ext fun _ => (StrMap.lookup_eq_some_iff_mem (it.nodup_order m)).trans it.mem_order

theorem settingsOf_perm (kind : ItemKind) (items : StrMap (StrMap PerSource)) :
    (it.settingsOf kind items).Perm (UnifiedApi.settingsOf kind items) := by
  refine ((it.perm items).flatMap_right _).trans ?_
  exact List.Perm.flatMap_left _ fun (_, perSource) _ => (it.perm perSource).map _

theorem itemSettings_perm (hosts : StrMap HostDef) (groups : StrMap GroupDef) :
    (it.itemSettings hosts groups).Perm (UnifiedApi.itemSettings hosts groups) :=
  (it.settingsOf_perm ..).append (it.settingsOf_perm ..)

end Iteration

/-- The sources that resolve, and what is wrong with the others. -/
structure ResolvedAll where
  sources : StrMap ResolvedSource := ∅
  errors : List String := []

def resolveNext (connectors : StrMap Connector) (resolved : ResolvedAll)
    (entry : String × SourceDef) : ResolvedAll :=
  match entry.2.resolve entry.1 connectors with
  | .ok source => { resolved with sources := resolved.sources.insert entry.1 source }
  | .error found => { resolved with errors := resolved.errors ++ found }

def resolveAll (connectors : StrMap Connector) (defs : List (String × SourceDef)) : ResolvedAll :=
  defs.foldl (resolveNext connectors) {}

/-- What is checked next, as a whole. -/
structure LoadedConfig (Other : ConfigSection → Type) where
  items : ∀ kind, StrMap (ConfigItem Other kind)
  sources : StrMap ResolvedSource

section
variable (ops : TextOps) (isConfigPath isSafeId : String → Bool) {Other : ConfigSection → Type}
  (parse : ∀ kind, Json → Json → Except String (ConfigItem Other kind))

def loadConfigDetailed (it : Iteration) (files : List ItemFile) :
    Except (List String) (LoadedConfig Other) :=
  let loaded := loadItems ops isConfigPath isSafeId parse files
  let connectors := connectorsOf loaded.items
  -- a source cannot be resolved against a connector that is itself wrong
  match loaded.errors ++ (it.order connectors).flatMap fun (id, c) => c.errors id with
  | [] =>
    let resolved := resolveAll connectors (it.order (sourceDefsOf loaded.items))
    let folded := foldIntoSources (viewIdsOf loaded.items)
      (it.itemSettings (hostDefsOf loaded.items) (groupDefsOf loaded.items)) resolved.sources
    match resolved.errors ++ folded.errors with
    | [] => .ok ⟨loaded.items, folded.sources⟩
    | errors => .error errors.mergeSort
  | errors => .error errors

end

/-! ## The sources -/

section
variable {connectors : StrMap Connector}

theorem resolveNext_getElem? (resolved : ResolvedAll) (entry : String × SourceDef) (id : String) :
    (resolveNext connectors resolved entry).sources[id]? =
      if entry.1 = id then ((entry.2.resolve entry.1 connectors).toOption).or resolved.sources[id]?
      else resolved.sources[id]? := by
  unfold resolveNext
  cases entry.2.resolve entry.1 connectors with
  | ok source =>
    dsimp only
    rw [StrMap.getElem?_insert]
    split <;> simp [Except.toOption]
  | error _ => simp [Except.toOption]

theorem resolveAll_getElem? {defs : List (String × SourceDef)} (hids : (defs.map Prod.fst).Nodup)
    (id : String) : (resolveAll connectors defs).sources[id]? =
      (defs.lookup id).bind fun item => (item.resolve id connectors).toOption := by
  have hfold : ∀ resolved : ResolvedAll,
      (defs.foldl (resolveNext connectors) resolved).sources[id]? =
      ((defs.lookup id).bind fun item => (item.resolve id connectors).toOption).or
        resolved.sources[id]? := by
    induction defs with
    | nil => simp
    | cons entry rest ih =>
      obtain ⟨hfresh, hrest⟩ := List.nodup_cons.mp hids
      intro resolved
      rw [List.foldl_cons, ih hrest, resolveNext_getElem?]
      obtain ⟨other, item⟩ := entry
      by_cases hid : other = id
      · subst hid
        have hnone : rest.lookup other = none :=
          StrMap.lookup_eq_none_iff.mpr hfresh
        simp [hnone]
      · have hne : (id == other) = false := by simpa using Ne.symm hid
        simp [List.lookup_cons, hne, hid]
  rw [resolveAll, hfold]
  simp

theorem resolveAll_errors (defs : List (String × SourceDef)) :
    (resolveAll connectors defs).errors = defs.flatMap fun entry =>
      match entry.2.resolve entry.1 connectors with
      | .ok _ => []
      | .error found => found := by
  have hfold : ∀ resolved : ResolvedAll, (defs.foldl (resolveNext connectors) resolved).errors =
      resolved.errors ++ defs.flatMap fun entry =>
        match entry.2.resolve entry.1 connectors with
        | .ok _ => []
        | .error found => found := by
    induction defs with
    | nil => simp
    | cons entry rest ih =>
      intro resolved
      rw [List.foldl_cons, ih, List.flatMap_cons, ← List.append_assoc]
      congr 1
      unfold resolveNext
      cases entry.2.resolve entry.1 connectors <;> simp
  rw [resolveAll, hfold, List.nil_append]

end

/-- The sources that resolve. -/
def resolvedSources (connectors : StrMap Connector) (defs : StrMap SourceDef) :
    StrMap ResolvedSource :=
  (resolveAll connectors (Iteration.sorted.order defs)).sources

section
variable {connectors : StrMap Connector} {defs : StrMap SourceDef} (it : Iteration)

theorem resolveAll_order : (resolveAll connectors (it.order defs)).sources =
    resolvedSources connectors defs := by
  refine Std.ExtTreeMap.ext_getElem? fun id => ?_
  rw [resolvedSources, resolveAll_getElem? (it.nodup_order defs),
    resolveAll_getElem? (Iteration.sorted.nodup_order defs), it.lookup_order,
    Iteration.sorted.lookup_order]

theorem resolvedSources_getElem? (id : String) : (resolvedSources connectors defs)[id]? =
    defs[id]?.bind fun item => (item.resolve id connectors).toOption := by
  rw [resolvedSources, resolveAll_getElem? (Iteration.sorted.nodup_order defs),
    Iteration.sorted.lookup_order]

theorem resolveAll_errors_eq_nil : (resolveAll connectors (it.order defs)).errors = [] ↔
    ∀ (id : String) (item : SourceDef), defs[id]? = some item →
      ∃ source, item.resolve id connectors = .ok source := by
  rw [resolveAll_errors, List.flatMap_eq_nil_iff, Prod.forall]
  refine forall₂_congr fun id item => ?_
  rw [it.mem_order]
  refine forall_congr' fun _ => ?_
  cases hresolve : item.resolve id connectors with
  | ok source => simp
  | error found => simp [SourceDef.resolve_error hresolve]

end

/-! ## What is loaded -/

/-- The sources as they run. -/
def foldedSources {Other : ConfigSection → Type} (items : ∀ kind, StrMap (ConfigItem Other kind)) :
    Folded :=
  foldIntoSources (viewIdsOf items) (itemSettings (hostDefsOf items) (groupDefsOf items))
    (resolvedSources (connectorsOf items) (sourceDefsOf items))

theorem foldedSources_getElem? {Other : ConfigSection → Type}
    (items : ∀ kind, StrMap (ConfigItem Other kind)) (id : String) :
    (foldedSources items).sources[id]? = ((sourceDefsOf items)[id]?.bind fun item =>
      (item.resolve id (connectorsOf items)).toOption).map fun source =>
        (itemSettings (hostDefsOf items) (groupDefsOf items)).foldl (addSetting id) source := by
  rw [foldedSources, folded_sources, resolvedSources_getElem?]

/-- What the items come to, if nothing is wrong with them. -/
structure Accepts {Other : ConfigSection → Type} (loaded : LoadedItems (ConfigItem Other))
    (config : LoadedConfig Other) : Prop where
  read : loaded.errors = []
  connectors (id : String) (c : Connector) :
    (connectorsOf loaded.items)[id]? = some c → c.errors id = []
  resolves (id : String) (item : SourceDef) : (sourceDefsOf loaded.items)[id]? = some item →
    ∃ source, item.resolve id (connectorsOf loaded.items) = .ok source
  folds : (foldedSources loaded.items).errors = []
  config : config = ⟨loaded.items, (foldedSources loaded.items).sources⟩

section
variable {ops : TextOps} {isConfigPath isSafeId : String → Bool} {Other : ConfigSection → Type}
  {parse : ∀ kind, Json → Json → Except String (ConfigItem Other kind)} {it : Iteration}

theorem loadConfigDetailed_ok_iff {files : List ItemFile} {config : LoadedConfig Other} :
    loadConfigDetailed ops isConfigPath isSafeId parse it files = .ok config ↔
      Accepts (loadItems ops isConfigPath isSafeId parse files) config := by
  unfold loadConfigDetailed
  generalize loadItems ops isConfigPath isSafeId parse files = loaded
  have hconnectors : ((it.order (connectorsOf loaded.items)).flatMap fun (id, c) => c.errors id) =
      [] ↔ ∀ (id : String) (c : Connector), (connectorsOf loaded.items)[id]? = some c →
        c.errors id = [] := by
    rw [List.flatMap_eq_nil_iff, Prod.forall]
    exact forall₂_congr fun id c => by rw [it.mem_order]
  have hfold : foldIntoSources (viewIdsOf loaded.items)
      (it.itemSettings (hostDefsOf loaded.items) (groupDefsOf loaded.items))
      (resolveAll (connectorsOf loaded.items) (it.order (sourceDefsOf loaded.items))).sources =
      foldedSources loaded.items := by
    rw [resolveAll_order it]
    exact foldIntoSources_perm (it.itemSettings_perm _ _) _
  constructor
  · intro h
    dsimp only at h
    split at h
    · rename_i hnone
      obtain ⟨hread, hfine⟩ := List.append_eq_nil_iff.mp hnone
      split at h
      · rename_i hnone
        obtain ⟨hresolved, hfolded⟩ := List.append_eq_nil_iff.mp hnone
        rw [hfold] at hfolded
        refine ⟨hread, hconnectors.mp hfine, (resolveAll_errors_eq_nil it).mp hresolved, hfolded,
          ?_⟩
        rw [← Except.ok.inj h, ← hfold]
      · cases h
    · cases h
  · rintro ⟨hread, hfine, hresolves, hfolds, rfl⟩
    have hfirst := List.append_eq_nil_iff.mpr ⟨hread, hconnectors.mpr hfine⟩
    have hsecond := List.append_eq_nil_iff.mpr ⟨(resolveAll_errors_eq_nil it).mpr hresolves, hfolds⟩
    simp only [hfirst, hfold, hsecond]

/-- **What a directory means does not depend on where its items stand**, nor on
the order in which a process goes through its maps: the same items in other files,
read in another order and by another process, are accepted if these are, and mean
the same. -/
theorem load_order_free {files files' : List ItemFile} (it' : Iteration)
    (hread : (∃ outcome ∈ readFiles ops isConfigPath isSafeId files, ∃ e, outcome = .error e) ↔
      ∃ outcome ∈ readFiles ops isConfigPath isSafeId files', ∃ e, outcome = .error e)
    (hsame : ∀ kind,
      ((entriesOf (readFiles ops isConfigPath isSafeId files) kind).map Entry.content).Perm
        ((entriesOf (readFiles ops isConfigPath isSafeId files') kind).map Entry.content)) :
    (loadConfigDetailed ops isConfigPath isSafeId parse it files).toOption =
      (loadConfigDetailed ops isConfigPath isSafeId parse it' files').toOption := by
  have hloaded : (loadItems ops isConfigPath isSafeId parse files).errors = [] ↔
      (loadItems ops isConfigPath isSafeId parse files').errors = [] :=
    (loadItems_rearranged hread hsame).1
  refine Option.ext fun config => ?_
  rw [Results.toOption_eq_some_iff, Results.toOption_eq_some_iff, loadConfigDetailed_ok_iff,
    loadConfigDetailed_ok_iff]
  have htransfer : ∀ {files files' : List ItemFile},
      ((loadItems ops isConfigPath isSafeId parse files).errors = [] →
        (loadItems ops isConfigPath isSafeId parse files').errors = [] ∧
          (loadItems ops isConfigPath isSafeId parse files).items =
            (loadItems ops isConfigPath isSafeId parse files').items) →
      Accepts (loadItems ops isConfigPath isSafeId parse files) config →
        Accepts (loadItems ops isConfigPath isSafeId parse files') config := by
    intro files files' hsame h
    obtain ⟨hnone, hitems⟩ := hsame h.read
    refine ⟨hnone, ?_, ?_, ?_, ?_⟩
    all_goals rw [← hitems]
    · exact h.connectors
    · exact h.resolves
    · exact h.folds
    · exact h.config
  constructor
  · exact htransfer fun hnone => ⟨hloaded.mp hnone, (loadItems_rearranged hread hsame).2 hnone⟩
  · exact htransfer fun hnone => ⟨hloaded.mpr hnone,
      ((loadItems_rearranged hread hsame).2 (hloaded.mpr hnone)).symm⟩

def textEvents (text : String) : List Yaml.Event := [.scalar text .plain 0 none]

def mapEvents (fields : List (String × List Yaml.Event)) : List Yaml.Event :=
  .mappingStart 0 :: fields.flatMap (fun (key, value) => textEvents key ++ value) ++ [.mappingEnd]

/-- What a section with these items parses to. -/
def sectionEvents (items : List (List (String × List Yaml.Event))) : List Yaml.Event :=
  .sequenceStart 0 :: items.flatMap mapEvents ++ [.sequenceEnd]

def fileOf (path : String) (sections : List (String × List Yaml.Event)) : ItemFile :=
  let events : List Yaml.Event :=
    .streamStart :: .documentStart :: mapEvents sections ++ [.documentEnd, .streamEnd]
  ⟨path, .ok (events.map .ok)⟩

/-- Reads hosts without settings. -/
def parseHost : ∀ kind, Json → Json → Except String (ConfigItem (fun _ => Json) kind)
  | .hosts, typed, _ => match typed.field? "name" with
    | some (.string name) => .ok { name }
    | _ => .error "missing field `name`"
  | _, _, _ => .error "unexpected"

def loadHosts : Iteration → List ItemFile →
    Except (List String) (LoadedConfig fun _ => Json) :=
  loadConfigDetailed .wordsOnly (fun _ => true) (fun _ => true) parseHost

def oneFile : List ItemFile :=
  [fileOf "all.yaml"
    [("hosts", sectionEvents [[("name", textEvents "web")], [("name", textEvents "db")]])]]

def twoFiles : List ItemFile :=
  [fileOf "db.yaml" [("hosts", sectionEvents [[("name", textEvents "db")]])],
    fileOf "web.yaml" [("hosts", sectionEvents [[("name", textEvents "web")]])]]

theorem twoFiles_load :
    (loadHosts .sorted oneFile).toOption = (loadHosts .reversed twoFiles).toOption := by
  have hone : readFiles .wordsOnly (fun _ => true) (fun _ => true) oneFile =
      [.ok (.hosts, ⟨"all.yaml", "web", [], []⟩), .ok (.hosts, ⟨"all.yaml", "db", [], []⟩)] := by
    decide +kernel
  have htwo : readFiles .wordsOnly (fun _ => true) (fun _ => true) twoFiles =
      [.ok (.hosts, ⟨"db.yaml", "db", [], []⟩), .ok (.hosts, ⟨"web.yaml", "web", [], []⟩)] := by
    decide +kernel
  refine load_order_free .reversed ?_ fun kind => ?_
  · simp [hone, htwo]
  · rw [hone, htwo]
    cases kind <;> first | exact .swap .. | exact .refl _

/-- **What runs on the hosts of an ssh source is what its connector says**: in a
configuration that is loaded, whatever the source's own configuration, the request
and the cache hold, a sync that comes to open sessions runs the plan of the
connector that the source names. A POSIX login shell reads the command line as
that program with the connector's arguments, and fish does so exactly if no
argument has a backslash before another, before a single quote or at its end. -/
theorem ssh_runs_connector {files : List ItemFile} {config : LoadedConfig Other}
    (hload : loadConfigDetailed ops isConfigPath isSafeId parse it files = .ok config)
    {id : String} {item : SourceDef} {c : Connector} {source : ResolvedSource}
    (hitem : (sourceDefsOf config.items)[id]? = some item)
    (hc : (connectorsOf config.items)[item.connector]? = some c) (hssh : c.kind = .ssh)
    (hsource : config.sources[id]? = some source) {disk : Disk} {projectsDir : String}
    {specsToString : List HostSpec → Except String String}
    {specsFromStr : String → Except String (List HostSpec)} {cached : String → Option Dataset}
    {request : RunRequest} {sessions : Ssh.Sessions}
    (hsessions : Ssh.syncSessions disk projectsDir specsToString specsFromStr cached source
      request = .ok sessions) :
    c.sshPlan disk projectsDir = .ok sessions.plan ∧
      ∃ inner, '\'' ∉ inner.toList ∧
        Shell.posix.tokens sessions.plan.command.toList =
          some (Ssh.remoteWords inner c.scriptArgs) ∧
        (Shell.fish.tokens sessions.plan.command.toList =
          some (Ssh.remoteWords inner c.scriptArgs) ↔
            ∀ arg ∈ c.scriptArgs, Shell.fish.keeps arg.toList = true) := by
  have haccepts := loadConfigDetailed_ok_iff.mp hload
  generalize loadItems ops isConfigPath isSafeId parse files = loaded at haccepts
  obtain rfl := haccepts.config
  have herrors := haccepts.connectors item.connector c hc
  obtain ⟨resolved, hresolved⟩ := haccepts.resolves id item hitem
  have hruns := SourceDef.resolve_runsAs hc hssh (Connector.builtIn_of_errors herrors) hresolved
  -- the items only add to the overrides
  have hfolded := foldedSources_getElem? loaded.items id
  rw [hitem, Option.bind_some, Results.toOption_eq_some_iff.mpr hresolved, Option.map_some,
    addSettings_rest] at hfolded
  obtain rfl := Option.some.inj (hfolded.symm.trans hsource)
  obtain ⟨run, hform⟩ := Connector.sshForm_of_errors hssh herrors
  have hmeant := Ssh.plan_of_runsAs (hruns.withOverrides _) hform
    (Connector.hostArgs_of_errors hssh herrors) hsessions
  obtain ⟨inner, hsent⟩ := Ssh.sent_of_sshPlan hform hmeant
  exact ⟨hmeant, inner, Ssh.sent_words_iff hsent⟩

end

/-- Reads the facts on each host. -/
def factsConnector : Connector where
  name := "facts"
  kind := .ssh
  location := some .host
  path := "/etc/ansible/facts.d/*.fact"

def webItem : SourceDef where
  name := "web"
  connector := "facts"
  ttlSeconds := 60
  config := (∅ : StrMap String).insert "hosts" "web01"

def resolvedWeb : ResolvedSource where
  name := "web"
  connector := "facts"
  connectorType := .ssh
  sshLocation := some .host
  projectId := none
  scriptPath := "/etc/ansible/facts.d/*.fact"
  scriptArgs := []
  hostArgs := []
  timeoutSeconds := 300
  schedule := none
  syncIntervalSeconds := none
  ttlSeconds := 60
  allowOnDemandRefresh := false
  config := (∅ : StrMap String).insert "hosts" "web01"

/-- Reads the two items of the file below. -/
def parseFacts : ∀ kind, Json → Json → Except String (ConfigItem (fun _ => Json) kind)
  | .connectors, _, _ => .ok factsConnector
  | .sources, _, _ => .ok webItem
  | _, _, _ => .error "unexpected"

def factsFile : ItemFile := fileOf "facts.yaml"
  [("connectors", sectionEvents [[("name", textEvents "facts"), ("type", textEvents "ssh"),
      ("location", textEvents "host"), ("path", textEvents "/etc/ansible/facts.d/*.fact")]]),
    ("sources", sectionEvents [[("name", textEvents "web"), ("connector", textEvents "facts"),
      ("ttl_seconds", textEvents "60"), ("config", mapEvents [("hosts", textEvents "web01")])]])]

def loadFacts : Except (List String) (LoadedConfig fun _ => Json) :=
  loadConfigDetailed .wordsOnly (fun _ => true) (fun _ => true) parseFacts .sorted [factsFile]

def emptyDisk : Disk := ⟨fun _ => false, fun _ => false, fun _ => .error "no such file"⟩

def syncWeb : Except String Ssh.Sessions :=
  Ssh.syncSessions emptyDisk "projects" (fun _ => .error "") (fun _ => .error "") (fun _ => none)
    resolvedWeb ⟨.new (.hosts ["web01"]), some "x", .manual⟩

theorem factsFile_runs_facts : ∃ config sessions, loadFacts = .ok config ∧
    config.sources["web"]? = some resolvedWeb ∧ syncWeb = .ok sessions ∧
      factsConnector.sshPlan emptyDisk "projects" = .ok sessions.plan := by
  have hloaded : loadFacts.toOption.map (fun config => ((sourceDefsOf config.items)["web"]?,
      (connectorsOf config.items)["facts"]?, config.sources["web"]?)) =
      some (some webItem, some factsConnector, some resolvedWeb) := by decide +kernel
  obtain ⟨config, hload, hfound⟩ := Results.ok_of_toOption_map hloaded
  obtain ⟨hitem, hc, hsource⟩ : _ ∧ _ ∧ _ := by simpa using hfound
  obtain ⟨sessions, hsessions⟩ := Results.ok_of_isSome (show syncWeb.toOption.isSome = true by rfl)
  exact ⟨config, sessions, hload, hsource, hsessions,
    (ssh_runs_connector hload hitem hc rfl hsource hsessions).1⟩

end UnifiedApi

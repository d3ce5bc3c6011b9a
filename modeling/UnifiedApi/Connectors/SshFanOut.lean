import Mathlib.Data.List.Nodup
import UnifiedApi.Application.ReplaceKeeping
import UnifiedApi.Connectors.SshFacts
import UnifiedApi.Domain.HostsFromSource

/-! # One session for each host

The hosts of a source are gathered at the same time, each by a task of its own,
and the results are sorted into containers as the tasks complete. -/

namespace UnifiedApi.Ssh

/-! ## The hosts -/

/-- The JSON form comes from another source's hosts, the other one from the
configuration; `specsFromStr` is what serde reads. -/
def parseHosts (specsFromStr : String → Except String (List HostSpec)) (config : StrMap String) :
    Except String (List HostSpec) :=
  match config["hosts_spec"]? with
  | some specJson => match specsFromStr specJson with
    | .error e => .error ("invalid hosts_spec JSON: " ++ e)
    | .ok specs => if specs.isEmpty then .error "hosts_spec resolved to zero hosts" else .ok specs
  | none => match config["hosts"]? with
    | none => .error "SSH connector requires 'hosts' in config"
    | some hosts =>
      let specs := (Text.commaNames hosts).map fun name => { name, addresses := [name] : HostSpec }
      if specs.isEmpty then .error "No hosts provided in config" else .ok specs

/-- Only a host scope is narrowed: a spec does not know its groups. -/
def narrowToScope (hosts : List HostSpec) (config : StrMap String) :
    Except String (List HostSpec) :=
  if config["scope"]? ≠ some "host" then .ok hosts
  else
    let target := config["target"]?.getD ""
    let narrowed := hosts.filter fun spec => (Text.commaNames target).contains spec.name
    if narrowed.isEmpty then
      .error ("host scope '" ++ target ++ "' matched none of this source's hosts")
    else .ok narrowed

def hostsToGather (specsFromStr : String → Except String (List HostSpec))
    (config : StrMap String) : Except String (List HostSpec) := do
  narrowToScope (← parseHosts specsFromStr config) config

/-! ## The tasks -/

/-- What a session at one address comes to. -/
inductive Attempt where
  | output (text : List Char)
  | connectFailed | timedOut
  /-- An error of a server that answered. -/
  | otherFailed
  /-- The task panics. -/
  | died
  deriving DecidableEq

inductive Ended where
  | gathered (output : List Char)
  | failed
  /-- A `JoinError`. -/
  | died
  deriving DecidableEq

/-- Only where no server answers, the next address is tried. -/
def gatherHost : List Attempt → Ended
  | [] => .failed
  | .output text :: _ => .gathered text
  | .connectFailed :: rest => gatherHost rest
  | .timedOut :: rest => gatherHost rest
  | .otherFailed :: _ => .failed
  | .died :: _ => .died

structure Finished where
  host : String
  ended : Ended
  deriving DecidableEq

/-- The tasks that are spawned, each with what it will come to. -/
def tasks (hosts : List HostSpec) (attempt : Nat → String → Attempt) : List Finished :=
  hosts.mapIdx fun i spec => ⟨spec.name, gatherHost (spec.addresses.map (attempt i))⟩

/-- A fan-out: what every session comes to, and the order in which the tasks
complete. -/
structure FanOut (hosts : List HostSpec) where
  attempt : Nat → String → Attempt
  finished : List Finished
  completes : finished.Perm (tasks hosts attempt)

/-! ## The results -/

/-- What is not JSON is kept raw. -/
def parseHostOutput (varsFromStr : List Char → Except String HostVars) (output : List Char) :
    HostVars :=
  match varsFromStr output with
  | .ok vars => vars
  | .error e => ((∅ : HostVars).insert "raw_output" (.string (String.ofList output))).insert
      "parse_error" (.string e)

structure Collected where
  hostvars : StrMap HostVars := ∅
  reachable : List String := []
  failed : List String := []

section
variable (parse : List Char → HostVars)

/-- A task that died is logged. -/
def Collected.join (collected : Collected) (finished : Finished) : Collected :=
  match finished.ended with
  | .gathered output => { collected with
      reachable := collected.reachable ++ [finished.host]
      hostvars := collected.hostvars.insert finished.host (parse output) }
  | .failed => { collected with failed := collected.failed ++ [finished.host] }
  | .died => collected

/-- One host's part of the groups by key. -/
def addKeys (groups : StrMap (List String)) (host : String) (vars : HostVars) :
    StrMap (List String) :=
  vars.foldl (fun groups key _ => groups.alter key fun hosts => some (hosts.getD [] ++ [host]))
    groups

def keyGroups (hostvars : StrMap HostVars) : StrMap (List String) := hostvars.foldl addKeys ∅

/-- A group for each key takes the place of the one for all if it has its name. -/
def Collected.output (collected : Collected) : ConnectorOutput where
  dataset :=
    { hostvars := collected.hostvars
      groups := (keyGroups collected.hostvars).foldl (fun groups name hosts =>
          groups.insert name { hosts := hosts.mergeSort })
        ((∅ : StrMap Group).insert "ssh_gathered" { hosts := collected.reachable.mergeSort }) }
  unreachable := collected.failed.mergeSort

def fanOutput (finished : List Finished) : ConnectorOutput :=
  (finished.foldl (Collected.join parse) {}).output

end

/-! ## Where a host ends -/

namespace Finished

def output? (finished : Finished) : Option (List Char) :=
  match finished.ended with
  | .gathered output => some output
  | .failed | .died => none

/-- The host, if its task gathered. -/
def gathered? (finished : Finished) : Option String := finished.output?.map fun _ => finished.host

/-- The host, if its task found out that it cannot be gathered. -/
def failed? (finished : Finished) : Option String :=
  if finished.ended = .failed then some finished.host else none

/-- The last output of a host, in the order in which the tasks completed. -/
def lastOutput (host : String) : List Finished → Option (List Char)
  | [] => none
  | first :: rest => (lastOutput host rest).or (if first.host = host then first.output? else none)

theorem mem_gathered {finished : List Finished} {host : String} :
    host ∈ finished.filterMap gathered? ↔
      ∃ task ∈ finished, task.host = host ∧ ∃ output, task.ended = .gathered output := by
  simp only [List.mem_filterMap, gathered?, output?, Option.map_eq_some_iff]
  refine exists_congr fun task => and_congr_right fun _ => ?_
  cases task.ended <;> simp

theorem mem_failed {finished : List Finished} {host : String} :
    host ∈ finished.filterMap failed? ↔
      ∃ task ∈ finished, task.host = host ∧ task.ended = .failed := by
  simp only [List.mem_filterMap, failed?]
  refine exists_congr fun task => and_congr_right fun _ => ?_
  by_cases hended : task.ended = .failed <;> simp [hended]

theorem gathered_sublist (finished : List Finished) :
    (finished.filterMap gathered?).Sublist (finished.map (·.host)) := by
  induction finished with
  | nil => exact .slnil
  | cons first rest ih =>
    rw [List.filterMap_cons, List.map_cons]
    cases houtput : first.output? with
    | none => simpa [gathered?, houtput] using ih.cons first.host
    | some output => simpa [gathered?, houtput] using ih

theorem lastOutput_isSome_iff {host : String} {finished : List Finished} :
    lastOutput host finished ≠ none ↔ host ∈ finished.filterMap gathered? := by
  induction finished with
  | nil => simp [lastOutput]
  | cons first rest ih =>
    rw [lastOutput, ne_eq, Option.or_eq_none_iff, not_and_or, ← ne_eq, ih, List.filterMap_cons]
    by_cases hhost : first.host = host
    · cases houtput : first.output? <;> simp [gathered?, houtput, hhost]
    · cases houtput : first.output? <;> simp [gathered?, houtput, hhost, Ne.symm hhost]

end Finished

section
variable {parse : List Char → HostVars}

theorem foldl_join_reachable (finished : List Finished) (collected : Collected) :
    (finished.foldl (Collected.join parse) collected).reachable =
      collected.reachable ++ finished.filterMap Finished.gathered? := by
  induction finished generalizing collected with
  | nil => simp
  | cons first rest ih =>
    rw [List.foldl_cons, ih, List.filterMap_cons]
    cases hended : first.ended <;>
      simp [Collected.join, Finished.gathered?, Finished.output?, hended]

theorem foldl_join_failed (finished : List Finished) (collected : Collected) :
    (finished.foldl (Collected.join parse) collected).failed =
      collected.failed ++ finished.filterMap Finished.failed? := by
  induction finished generalizing collected with
  | nil => simp
  | cons first rest ih =>
    rw [List.foldl_cons, ih, List.filterMap_cons]
    cases hended : first.ended <;> simp [Collected.join, Finished.failed?, hended]

theorem foldl_join_hostvars (finished : List Finished) (collected : Collected) (host : String) :
    (finished.foldl (Collected.join parse) collected).hostvars[host]? =
      ((Finished.lastOutput host finished).map parse).or collected.hostvars[host]? := by
  induction finished generalizing collected with
  | nil => simp [Finished.lastOutput]
  | cons first rest ih =>
    rw [List.foldl_cons, ih, Finished.lastOutput]
    have hfirst : (collected.join parse first).hostvars[host]? =
        ((if first.host = host then first.output? else none).map parse).or
          collected.hostvars[host]? := by
      cases hended : first.ended with
      | gathered output =>
        by_cases hhost : first.host = host <;>
          simp [Collected.join, Finished.output?, hended, hhost, Std.ExtTreeMap.getElem?_insert]
      | failed => by_cases hhost : first.host = host <;>
          simp [Collected.join, Finished.output?, hended, hhost]
      | died => by_cases hhost : first.host = host <;>
          simp [Collected.join, Finished.output?, hended, hhost]
    rw [hfirst]
    cases Finished.lastOutput host rest <;> simp

variable (parse)

theorem fanOutput_hostvars (finished : List Finished) (host : String) :
    (fanOutput parse finished).dataset.hostvars[host]? =
      (Finished.lastOutput host finished).map parse := by
  rw [fanOutput, Collected.output, foldl_join_hostvars]
  simp

theorem mem_fanOutput_hostvars (finished : List Finished) (host : String) :
    host ∈ (fanOutput parse finished).dataset.hostvars ↔
      host ∈ finished.filterMap Finished.gathered? := by
  rw [StrMap.mem_iff, fanOutput_hostvars, ne_eq, Option.map_eq_none_iff, ← ne_eq,
    Finished.lastOutput_isSome_iff]

theorem mem_fanOutput_unreachable (finished : List Finished) (host : String) :
    host ∈ (fanOutput parse finished).unreachable ↔
      host ∈ finished.filterMap Finished.failed? := by
  rw [fanOutput, Collected.output, foldl_join_failed]
  simp

end

/-! ## The groups -/

theorem addKeys_getElem? (groups : StrMap (List String)) (host : String) (vars : HostVars)
    (key : String) : (addKeys groups host vars)[key]? =
      if vars.contains key then some (groups[key]?.getD [] ++ [host]) else groups[key]? := by
  have hstep : StrMap.KeyStep (fun (groups : StrMap (List String)) key (_ : Json) =>
      groups.alter key fun hosts => some (hosts.getD [] ++ [host]))
      fun _ _ old => some (old.getD [] ++ [host]) := by
    intro groups name value a
    exact StrMap.getElem?_alter groups name a _
  rw [addKeys, StrMap.getElem?_foldl hstep]
  cases hvar : vars[key]? with
  | none => simp [StrMap.not_mem_of_none hvar]
  | some value => simp [StrMap.mem_of_some hvar]

/-- The hosts among these that have the key. -/
def keyHosts (hosts : List (String × HostVars)) (key : String) : List String :=
  (hosts.filter fun host => host.2.contains key).map Prod.fst

theorem foldl_addKeys (hosts : List (String × HostVars)) (groups : StrMap (List String))
    (key : String) :
    (hosts.foldl (fun groups host => addKeys groups host.1 host.2) groups)[key]? =
      if keyHosts hosts key = [] then groups[key]?
      else some (groups[key]?.getD [] ++ keyHosts hosts key) := by
  induction hosts generalizing groups with
  | nil => simp [keyHosts]
  | cons host rest ih =>
    rw [List.foldl_cons, ih, addKeys_getElem?]
    have hcons : keyHosts (host :: rest) key =
        (if host.2.contains key then [host.1] else []) ++ keyHosts rest key := by
      unfold keyHosts
      rw [List.filter_cons]
      split <;> simp
    rw [hcons]
    cases host.2.contains key with
    | false => simp
    | true =>
      by_cases hrest : keyHosts rest key = []
      · simp [hrest]
      · simp [hrest]

theorem keyGroups_getElem? (hostvars : StrMap HostVars) (key : String) :
    (keyGroups hostvars)[key]? =
      if keyHosts hostvars.toList key = [] then none else some (keyHosts hostvars.toList key) := by
  rw [keyGroups, Std.ExtTreeMap.foldl_eq_foldl_toList, foldl_addKeys]
  simp

theorem nodup_keyHosts (hostvars : StrMap HostVars) (key : String) :
    (keyHosts hostvars.toList key).Nodup := by
  refine (List.filter_sublist.map Prod.fst).nodup ?_
  rw [Std.ExtTreeMap.map_fst_toList_eq_keys]
  exact Std.ExtTreeMap.nodup_keys

theorem keyHosts_ne_nil_iff {hostvars : StrMap HostVars} {key : String} :
    keyHosts hostvars.toList key ≠ [] ↔
      ∃ (host : String) (vars : HostVars), hostvars[host]? = some vars ∧ key ∈ vars := by
  simp only [keyHosts, ne_eq, List.map_eq_nil_iff, List.filter_eq_nil_iff, not_forall,
    Std.ExtTreeMap.contains_iff_mem, not_not, exists_prop, Prod.exists,
    Std.ExtTreeMap.mem_toList_iff_getElem?_eq_some]

theorem fanOutput_groups (parse : List Char → HostVars) (finished : List Finished) (name : String) :
    (fanOutput parse finished).dataset.groups[name]? =
      let keyed := keyHosts (fanOutput parse finished).dataset.hostvars.toList name
      if keyed ≠ [] then some { hosts := keyed.mergeSort }
      else if name = "ssh_gathered" then
        some { hosts := (finished.filterMap Finished.gathered?).mergeSort }
      else none := by
  have hstep : StrMap.KeyStep (fun (groups : StrMap Group) name (hosts : List String) =>
      groups.insert name { hosts := hosts.mergeSort })
      fun _ hosts _ => some { hosts := hosts.mergeSort } :=
    fun groups name hosts a => StrMap.getElem?_insert groups name a _
  simp only [fanOutput, Collected.output]
  rw [StrMap.getElem?_foldl hstep, keyGroups_getElem?, foldl_join_reachable]
  by_cases hkeyed : keyHosts (finished.foldl (Collected.join parse) {}).hostvars.toList name = []
  · simp [hkeyed, StrMap.getElem?_insert, eq_comm]
  · simp [hkeyed]

/-! ## Conservation -/

/-- Every host that was attempted ends in one container, no group lists a host
twice, and a replace of what the source held before keeps each of them. -/
structure Conserves (hosts : List HostSpec) (output : ConnectorOutput) : Prop where
  one : ∀ spec ∈ hosts,
    Xor (spec.name ∈ output.dataset.hostvars) (spec.name ∈ output.unreachable)
  groups : ∀ (name : String) (group : Group),
    output.dataset.groups[name]? = some group → group.hosts.Nodup
  kept : ∀ (cache : MemoryCache) (sourceId : String) (source : Source) (now : Nat)
    (old entry : CacheEntry), source.syncMode = .replace → cache.get sourceId = some old →
    (applyToCache cache sourceId source .full output now).get sourceId = some entry →
    ∀ spec ∈ hosts, spec.name ∈ old.dataset.hostvars → spec.name ∈ entry.dataset.hostvars

/-- A replace keeps what is in one of the two containers. -/
theorem replace_keeps {output : ConnectorOutput} {host : String}
    (hhost : host ∈ output.dataset.hostvars ∨ host ∈ output.unreachable)
    {cache : MemoryCache} {sourceId : String} {source : Source} {now : Nat}
    {old entry : CacheEntry} (hmode : source.syncMode = .replace)
    (hold : cache.get sourceId = some old)
    (hentry : (applyToCache cache sourceId source .full output now).get sourceId = some entry)
    (hheld : host ∈ old.dataset.hostvars) : host ∈ entry.dataset.hostvars := by
  rw [get_applyToCache, if_pos rfl, hold, syncedEntry_replace hmode] at hentry
  obtain rfl := Option.some.inj hentry
  rw [replaceKeeping_hosts]
  by_cases hgathered : host ∈ output.dataset.hostvars
  · exact .inl hgathered
  · exact .inr ⟨hhost.resolve_left hgathered, hgathered, hheld⟩

section
variable (parse : List Char → HostVars)

/-- The group of the gathered hosts is a fact's just when some host's last
output has that fact. -/
theorem keyed_gathered_iff (finished : List Finished) :
    keyHosts (fanOutput parse finished).dataset.hostvars.toList "ssh_gathered" ≠ [] ↔
      ∃ host output, Finished.lastOutput host finished = some output ∧
        "ssh_gathered" ∈ parse output := by
  rw [keyHosts_ne_nil_iff]
  simp only [fanOutput_hostvars, Option.map_eq_some_iff]
  constructor
  · intro h
    obtain ⟨host, _, ⟨output, hlast, rfl⟩, hkey⟩ := h
    exact ⟨host, output, hlast, hkey⟩
  · intro h
    obtain ⟨host, output, hlast, hkey⟩ := h
    exact ⟨host, _, ⟨output, hlast, rfl⟩, hkey⟩

theorem groups_nodup_iff (finished : List Finished) :
    (∀ (name : String) (group : Group),
      (fanOutput parse finished).dataset.groups[name]? = some group → group.hosts.Nodup) ↔
      (finished.filterMap Finished.gathered?).Nodup ∨
        ∃ host output, Finished.lastOutput host finished = some output ∧
          "ssh_gathered" ∈ parse output := by
  rw [← keyed_gathered_iff]
  constructor
  · intro h
    by_cases hkeyed :
        keyHosts (fanOutput parse finished).dataset.hostvars.toList "ssh_gathered" = []
    · have hgroup : (fanOutput parse finished).dataset.groups["ssh_gathered"]? =
          some { hosts := (finished.filterMap Finished.gathered?).mergeSort } := by
        rw [fanOutput_groups]
        simp [hkeyed]
      exact .inl ((List.mergeSort_perm _ _).nodup_iff.mp (h _ _ hgroup))
    · exact .inr hkeyed
  · intro h name group hgroup
    rw [fanOutput_groups] at hgroup
    dsimp only at hgroup
    split at hgroup
    · cases hgroup
      exact (List.mergeSort_perm _ _).nodup_iff.mpr (nodup_keyHosts _ name)
    · rename_i hkeyed
      split at hgroup
      · rename_i hname
        subst hname
        cases hgroup
        exact (List.mergeSort_perm _ _).nodup_iff.mpr (h.resolve_right hkeyed)
      · cases hgroup

theorem conserves_iff (hosts : List HostSpec) (finished : List Finished) :
    Conserves hosts (fanOutput parse finished) ↔
      (∀ spec ∈ hosts, Xor (spec.name ∈ finished.filterMap Finished.gathered?)
        (spec.name ∈ finished.filterMap Finished.failed?)) ∧
      ((finished.filterMap Finished.gathered?).Nodup ∨
        ∃ host output, Finished.lastOutput host finished = some output ∧
          "ssh_gathered" ∈ parse output) := by
  simp only [← mem_fanOutput_hostvars parse, ← mem_fanOutput_unreachable parse,
    ← groups_nodup_iff]
  constructor
  · intro h
    exact ⟨h.one, h.groups⟩
  · intro h
    obtain ⟨hone, hgroups⟩ := h
    refine ⟨hone, hgroups, ?_⟩
    intro cache sourceId source now old entry hmode hold hentry spec hspec hheld
    exact replace_keeps (hone spec hspec).or hmode hold hentry hheld

end

/-! ## Distinct names -/

section
variable {hosts : List HostSpec} (run : FanOut hosts)

theorem FanOut.names_perm : (run.finished.map (·.host)).Perm (hosts.map (·.name)) := by
  have hnames : (tasks hosts run.attempt).map (·.host) = hosts.map (·.name) := by
    apply List.ext_getElem?
    intro i
    rw [List.getElem?_map, tasks, List.getElem?_mapIdx, List.getElem?_map]
    cases hosts[i]? <;> rfl
  exact hnames ▸ run.completes.map _

theorem ends_once_iff_of_nodup (hnodup : (hosts.map (·.name)).Nodup) :
    (∀ spec ∈ hosts, Xor (spec.name ∈ run.finished.filterMap Finished.gathered?)
        (spec.name ∈ run.finished.filterMap Finished.failed?)) ↔
      ∀ task ∈ run.finished, task.ended ≠ .died := by
  have hfinished : (run.finished.map (·.host)).Nodup := run.names_perm.nodup_iff.mpr hnodup
  have hsame {task other : Finished} (htask : task ∈ run.finished) (hother : other ∈ run.finished)
      (hhost : task.host = other.host) : task = other :=
    List.inj_on_of_nodup_map hfinished htask hother hhost
  constructor
  · intro h task htask hdied
    have hhost : task.host ∈ hosts.map (·.name) :=
      run.names_perm.mem_iff.mp (List.mem_map.mpr ⟨task, htask, rfl⟩)
    obtain ⟨spec, hspec, hname⟩ := List.mem_map.mp hhost
    rcases (h spec hspec).or with hgathered | hfailed
    · obtain ⟨other, hother, hotherHost, output, hended⟩ := Finished.mem_gathered.mp hgathered
      rw [hsame hother htask (hotherHost.trans hname), hdied] at hended
      cases hended
    · obtain ⟨other, hother, hotherHost, hended⟩ := Finished.mem_failed.mp hfailed
      rw [hsame hother htask (hotherHost.trans hname), hdied] at hended
      cases hended
  · intro h spec hspec
    have hname : spec.name ∈ run.finished.map (·.host) :=
      run.names_perm.mem_iff.mpr (List.mem_map.mpr ⟨spec, hspec, rfl⟩)
    obtain ⟨task, htask, hhost⟩ := List.mem_map.mp hname
    cases hended : task.ended with
    | gathered output =>
      refine .inl ⟨Finished.mem_gathered.mpr ⟨task, htask, hhost, output, hended⟩, ?_⟩
      rw [Finished.mem_failed]
      intro h
      obtain ⟨other, hother, hotherHost, hotherEnded⟩ := h
      rw [hsame hother htask (hotherHost.trans hhost.symm), hended] at hotherEnded
      cases hotherEnded
    | failed =>
      refine .inr ⟨Finished.mem_failed.mpr ⟨task, htask, hhost, hended⟩, ?_⟩
      rw [Finished.mem_gathered]
      intro h
      obtain ⟨other, hother, hotherHost, output, hotherEnded⟩ := h
      rw [hsame hother htask (hotherHost.trans hhost.symm), hended] at hotherEnded
      cases hotherEnded
    | died => exact absurd hended (h task htask)

/-- **A fan-out conserves its hosts** just when each name has a task that
gathered or one that failed, and not both, and no name gathered twice, unless a
host has a fact called as the group of all. Where no name stands twice, that is
when no task died. -/
theorem fanOut_conserves_iff (parse : List Char → HostVars) :
    (Conserves hosts (fanOutput parse run.finished) ↔
      (∀ spec ∈ hosts, Xor (spec.name ∈ run.finished.filterMap Finished.gathered?)
        (spec.name ∈ run.finished.filterMap Finished.failed?)) ∧
      ((run.finished.filterMap Finished.gathered?).Nodup ∨
        ∃ host output, Finished.lastOutput host run.finished = some output ∧
          "ssh_gathered" ∈ parse output)) ∧
    ((hosts.map (·.name)).Nodup →
      (Conserves hosts (fanOutput parse run.finished) ↔
        ∀ task ∈ run.finished, task.ended ≠ .died)) := by
  refine ⟨conserves_iff parse hosts run.finished, fun hnodup => ?_⟩
  have hgathered : (run.finished.filterMap Finished.gathered?).Nodup :=
    (Finished.gathered_sublist run.finished).nodup (run.names_perm.nodup_iff.mpr hnodup)
  rw [conserves_iff, ends_once_iff_of_nodup run hnodup]
  exact and_iff_left (.inl hgathered)

end

/-- A script that prints an empty object. -/
def parseEmpty : List Char → HostVars := parseHostOutput fun _ => .ok ∅

/-- Two hosts: the session of the second times out, and is done first. -/
def oneFails : FanOut [⟨"web1", ["web1"]⟩, ⟨"web2", ["10.0.0.2", "web2"]⟩] where
  attempt i _ := if i = 0 then .output [] else .timedOut
  finished := [⟨"web2", .failed⟩, ⟨"web1", .gathered []⟩]
  completes := List.Perm.swap _ _ _

theorem oneFails_conserves :
    ([⟨"web1", ["web1"]⟩, ⟨"web2", ["10.0.0.2", "web2"]⟩].map HostSpec.name).Nodup ∧
    Conserves [⟨"web1", ["web1"]⟩, ⟨"web2", ["10.0.0.2", "web2"]⟩]
      (fanOutput parseEmpty oneFails.finished) :=
  ⟨by decide, ((fanOut_conserves_iff oneFails parseEmpty).2 (by decide)).mpr (by decide)⟩

/-! ## Two hosts that are lost -/

/-- One host, whose task panics. -/
def panics : FanOut [⟨"web1", ["web1"]⟩] where
  attempt _ _ := .died
  finished := [⟨"web1", .died⟩]
  completes := List.Perm.refl _

/-- One host that is configured twice: one of its sessions ends well. -/
def configuredTwice : FanOut [⟨"web1", ["web1"]⟩, ⟨"web1", ["web1"]⟩] where
  attempt i _ := if i = 0 then .output [] else .timedOut
  finished := [⟨"web1", .gathered []⟩, ⟨"web1", .failed⟩]
  completes := List.Perm.refl _

theorem not_conserved :
    (hostsToGather (fun _ => .error "") ((∅ : StrMap String).insert "hosts" "web1") =
        .ok [⟨"web1", ["web1"]⟩] ∧
      ¬Conserves [⟨"web1", ["web1"]⟩] (fanOutput parseEmpty panics.finished)) ∧
    hostsToGather (fun _ => .error "") ((∅ : StrMap String).insert "hosts" "web1,web1") =
        .ok [⟨"web1", ["web1"]⟩, ⟨"web1", ["web1"]⟩] ∧
      ¬Conserves [⟨"web1", ["web1"]⟩, ⟨"web1", ["web1"]⟩]
        (fanOutput parseEmpty configuredTwice.finished) := by
  refine ⟨⟨by decide, fun h => ?_⟩, by decide, fun h => ?_⟩
  · have hone := h.one ⟨"web1", ["web1"]⟩ (by simp)
    rw [mem_fanOutput_hostvars, mem_fanOutput_unreachable] at hone
    revert hone
    decide
  · have hone := h.one ⟨"web1", ["web1"]⟩ (by simp)
    rw [mem_fanOutput_hostvars, mem_fanOutput_unreachable] at hone
    revert hone
    decide

end UnifiedApi.Ssh

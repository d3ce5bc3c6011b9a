import UnifiedApi.Domain.AnsibleInventory
import UnifiedApi.Domain.JsonPaths

/-! # The hosts of an imported inventory

Hosts come in with their variables under `_meta.hostvars`, by name in `all` and
`ungrouped` while the groups are read, and by name in the other groups when a
full sync adds what they list. -/

namespace UnifiedApi

namespace Json

/-- The variables that `_meta.hostvars` has for `host`. -/
def metaVars (value : Json) (host : String) : Option HostVars :=
  (value.field? "_meta").bind fun metadata => (metadata.field? "hostvars").bind fun hostvars =>
    (hostvars.field? host).bind asMap?

/-- A group, an object or a plain list, that lists `host`. -/
def ListsHost (host : String) : Json → Prop
  | array items => string host ∈ items
  | object fields => ∃ items, fields.lookup "hosts" = some (array items) ∧ string host ∈ items
  | _ => False

/-- Some top-level group lists `host`. -/
def NamesHost (value : Json) (host : String) : Prop :=
  ∃ (name : String) (group : Json),
    value.field? name = some group ∧ name ≠ "_meta" ∧ group.ListsHost host

/-! ## Objects whose keys are unique -/

theorem getElem?_ofFields {β : Type} {fields : List (String × β)}
    (hnodup : (fields.map Prod.fst).Nodup) (key : String) :
    (ofFields fields)[key]? = fields.lookup key := by
  have hfold : ∀ map : StrMap β, (fields.foldl (fun (map : StrMap β) field =>
      map.insert field.1 field.2) map)[key]? = (fields.lookup key).or map[key]? := by
    induction fields with
    | nil => exact fun map => rfl
    | cons field rest ih =>
      intro map
      obtain ⟨name, old⟩ := field
      obtain ⟨hname, hrest⟩ := List.nodup_cons.mp hnodup
      rw [List.foldl_cons, ih hrest, StrMap.getElem?_insert, List.lookup_cons]
      by_cases heq : name = key
      · subst heq
        simp [StrMap.lookup_eq_none_iff.mpr hname]
      · simp [heq, beq_false_of_ne (Ne.symm heq)]
  exact (hfold ∅).trans (by simp)

end Json

/-! ## Hostvars that only gain hosts without variables -/

/-- Every entry stays, and what is new has no variables. -/
def Extends (before after : StrMap HostVars) : Prop :=
  ∀ host : String, after[host]? = before[host]? ∨ before[host]? = none ∧ after[host]? = some ∅

theorem Extends.refl (hostvars : StrMap HostVars) : Extends hostvars hostvars := fun _ => .inl rfl

theorem Extends.trans {first second third : StrMap HostVars} (h : Extends first second)
    (h' : Extends second third) : Extends first third := by
  intro host
  obtain heq | ⟨hnone, hnew⟩ := h host <;> obtain heq' | ⟨hnone', hnew'⟩ := h' host
  · exact .inl (heq'.trans heq)
  · exact .inr ⟨heq ▸ hnone', hnew'⟩
  · exact .inr ⟨hnone, heq'.trans hnew⟩
  · rw [hnone'] at hnew
    cases hnew

theorem extends_addHosts (hostvars : StrMap HostVars) (hosts : List String) :
    Extends hostvars (addHosts hostvars hosts) := by
  unfold addHosts
  induction hosts generalizing hostvars with
  | nil => exact .refl hostvars
  | cons host rest ih =>
    refine Extends.trans (fun other => ?_) (ih _)
    dsimp only
    split
    · exact .inl rfl
    · rename_i hnew
      rw [StrMap.getElem?_insert]
      split
      · rename_i heq
        subst heq
        refine .inr ⟨?_, rfl⟩
        cases hvars : hostvars[host]? with
        | none => rfl
        | some vars => exact absurd (StrMap.mem_of_some hvars) (by simpa using hnew)
      · exact .inl rfl

theorem extends_addMembers (hostvars : StrMap HostVars) (groups : List (String × Group)) :
    Extends hostvars
      (groups.foldl (fun hostvars group => addHosts hostvars group.2.hosts) hostvars) := by
  induction groups generalizing hostvars with
  | nil => exact .refl hostvars
  | cons group rest ih => exact (extends_addHosts hostvars group.2.hosts).trans (ih _)

theorem Dataset.extends_addGroupMembers (dataset : Dataset) :
    Extends dataset.hostvars dataset.addGroupMembers.hostvars := by
  rw [addGroupMembers_hostvars_eq]
  exact extends_addMembers dataset.hostvars dataset.groups.toList

/-! ## What the reader does to the hosts -/

theorem mem_of_strings {items : List Json} {names : List String}
    (h : items.mapM Json.asString? = some names) (name : String) :
    name ∈ names ↔ Json.string name ∈ items := by
  induction items generalizing names with
  | nil =>
    obtain rfl := Option.some.inj h
    simp
  | cons item rest ih =>
    rw [List.mapM_cons] at h
    obtain ⟨first, hfirst, h⟩ := Option.bind_eq_some_iff.mp h
    obtain ⟨others, hothers, h⟩ := Option.bind_eq_some_iff.mp h
    obtain rfl := Option.some.inj h
    cases item with
    | string s =>
      obtain rfl := Option.some.inj hfirst
      rw [List.mem_cons, List.mem_cons, ih hothers, Json.string.injEq]
    | null | bool b | number n | array items | object fields => cases hfirst

/-- The object form lists its hosts in a field. -/
theorem mem_of_hostsField {fields : List (String × Json)} {hosts : List String}
    (h : namesField fields "hosts" = some hosts) (host : String) :
    host ∈ hosts ↔ (Json.object fields).ListsHost host := by
  unfold namesField at h
  split at h
  · rename_i value hvalue
    cases value with
    | array items =>
      rw [Json.ListsHost, hvalue]
      simpa using mem_of_strings h host
    | null | bool b | number n | string s | object fields => cases h
  · rename_i hvalue
    obtain rfl := Option.some.inj h
    simp [Json.ListsHost, hvalue]

theorem parseGroup_hosts {name : String} {value : Json} {parsed : Group × List String}
    (h : parseGroup name value = .ok parsed) (host : String) :
    host ∈ parsed.1.hosts ↔ value.ListsHost host := by
  cases value with
  | array items =>
    rw [parseGroup] at h
    split at h
    · rename_i hosts hhosts
      obtain rfl := Except.ok.inj h
      exact mem_of_strings hhosts host
    · cases h
  | object fields =>
    rw [parseGroup] at h
    dsimp only at h
    split at h
    · cases h
    · split at h
      · rename_i group hgroup
        obtain rfl := Except.ok.inj h
        obtain ⟨hosts, hhosts, hgroup⟩ := Option.bind_eq_some_iff.mp hgroup
        obtain ⟨children, _, hgroup⟩ := Option.bind_eq_some_iff.mp hgroup
        obtain ⟨vars, _, hgroup⟩ := Option.bind_eq_some_iff.mp hgroup
        obtain rfl := Option.some.inj hgroup
        exact mem_of_hostsField hhosts host
      · cases h
  | null | bool b | number n | string s => cases h

namespace InventoryReading

/-- A host that has been read, with variables or in a group. -/
def Names (reading : InventoryReading) (host : String) : Prop :=
  host ∈ reading.hostvars ∨
    ∃ (name : String) (group : Group), reading.groups[name]? = some group ∧ host ∈ group.hosts

theorem addGroup_extends {reading reading' : InventoryReading} {name : String} {value : Json}
    (h : reading.addGroup name value = .ok reading') :
    Extends reading.hostvars reading'.hostvars := by
  obtain ⟨_, rfl⟩ | ⟨_, parsed, _, ⟨_, _, hhostvars⟩ | ⟨_, _, hhostvars⟩⟩ := addGroup_cases h
  · exact .refl _
  · rw [hhostvars]
    exact extends_addHosts _ _
  · rw [hhostvars]
    exact .refl _

/-- A group whose name was not read before adds the hosts it lists. -/
theorem addGroup_names {reading reading' : InventoryReading} {name : String} {value : Json}
    (hnew : reading.groups[name]? = none) (h : reading.addGroup name value = .ok reading')
    (host : String) :
    reading'.Names host ↔ reading.Names host ∨ name ≠ "_meta" ∧ value.ListsHost host := by
  obtain ⟨rfl, rfl⟩ | ⟨hname, parsed, hparsed, ⟨_, hgroups, hhostvars⟩ | ⟨_, hgroups, hhostvars⟩⟩ :=
    addGroup_cases h
  · simp
  · rw [← parseGroup_hosts hparsed host, Names, Names, hgroups, hhostvars, mem_addHosts,
      or_right_comm, and_iff_right hname]
  · rw [← parseGroup_hosts hparsed host, Names, Names, hgroups, hhostvars, or_assoc]
    refine or_congr_right ⟨?_, ?_⟩
    · rintro ⟨other, group, hgroup, hhost⟩
      rw [StrMap.getElem?_insert] at hgroup
      split at hgroup
      · obtain rfl := Option.some.inj hgroup
        exact .inr ⟨hname, hhost⟩
      · exact .inl ⟨other, group, hgroup, hhost⟩
    · rintro (⟨other, group, hgroup, hhost⟩ | ⟨_, hhost⟩)
      · have hne : name ≠ other := by
          rintro rfl
          rw [hnew] at hgroup
          cases hgroup
        exact ⟨other, group, by rw [StrMap.getElem?_insert, if_neg hne, hgroup], hhost⟩
      · exact ⟨name, parsed.1, by rw [StrMap.getElem?_insert, if_pos rfl], hhost⟩

theorem addGroup_fresh {reading reading' : InventoryReading} {name other : String} {value : Json}
    (h : reading.addGroup name value = .ok reading') (hne : name ≠ other)
    (hnew : reading.groups[other]? = none) : reading'.groups[other]? = none := by
  obtain ⟨_, rfl⟩ | ⟨_, parsed, _, ⟨_, hgroups, _⟩ | ⟨_, hgroups, _⟩⟩ := addGroup_cases h
  · exact hnew
  · rw [hgroups, hnew]
  · rw [hgroups, StrMap.getElem?_insert, if_neg hne, hnew]

end InventoryReading

theorem readGroups_hosts {fields : List (String × Json)} {start reading : InventoryReading}
    (hnodup : (fields.map Prod.fst).Nodup)
    (hnew : ∀ field ∈ fields, start.groups[field.1]? = none)
    (h : readGroups start fields = .ok reading) :
    Extends start.hostvars reading.hostvars ∧
    ∀ host, reading.Names host ↔ start.Names host ∨
      ∃ field ∈ fields, field.1 ≠ "_meta" ∧ field.2.ListsHost host := by
  induction fields generalizing start with
  | nil =>
    obtain rfl := Except.ok.inj h
    exact ⟨.refl _, by simp⟩
  | cons field rest ih =>
    rw [readGroups, List.foldlM_cons] at h
    obtain ⟨mid, hadd, h⟩ := Results.ok_of_bind h
    obtain ⟨hname, hrest⟩ := List.nodup_cons.mp hnodup
    have hmid : ∀ other ∈ rest, mid.groups[other.1]? = none := fun other hother =>
      InventoryReading.addGroup_fresh hadd
        (fun heq => hname (heq ▸ List.mem_map_of_mem (f := Prod.fst) hother))
        (hnew other (List.mem_cons_of_mem _ hother))
    obtain ⟨hextends, hnames⟩ := ih hrest hmid h
    refine ⟨(InventoryReading.addGroup_extends hadd).trans hextends, fun host => ?_⟩
    rw [hnames, InventoryReading.addGroup_names (hnew field List.mem_cons_self) hadd,
      List.exists_mem_cons_iff, or_assoc]

/-! ## What the reader starts from -/

theorem readHostvars_eq {raw : Json} {hostvars : StrMap HostVars} (hjson : raw.Canonical)
    (h : readHostvars raw = some hostvars) (host : String) :
    hostvars[host]? = (raw.field? host).bind Json.asMap? := by
  have hmaps : ∀ {fields : List (String × Json)} {entries : List (String × HostVars)},
      fields.mapM (fun field => field.2.asMap?.map (field.1, ·)) = some entries →
      entries.map Prod.fst = fields.map Prod.fst ∧
        entries.lookup host = (fields.lookup host).bind Json.asMap? := by
    intro fields
    induction fields with
    | nil =>
      intro entries hentries
      obtain rfl := Option.some.inj hentries
      exact ⟨rfl, rfl⟩
    | cons field rest ih =>
      intro entries hentries
      obtain ⟨name, value⟩ := field
      rw [List.mapM_cons] at hentries
      obtain ⟨first, hfirst, hentries⟩ := Option.bind_eq_some_iff.mp hentries
      obtain ⟨others, hothers, hentries⟩ := Option.bind_eq_some_iff.mp hentries
      obtain rfl := Option.some.inj hentries
      obtain ⟨vars, hvars, rfl⟩ := Option.map_eq_some_iff.mp hfirst
      obtain ⟨hkeys, hlookup⟩ := ih hothers
      refine ⟨by simp [hkeys], ?_⟩
      rw [List.lookup_cons, List.lookup_cons]
      cases host == name with
      | true => exact hvars.symm
      | false => exact hlookup
  cases raw with
  | object fields =>
    obtain ⟨entries, hentries, rfl⟩ := Option.map_eq_some_iff.mp h
    obtain ⟨hkeys, hlookup⟩ := hmaps hentries
    rw [Json.getElem?_ofFields (hkeys ▸ hjson.nodup), hlookup]
    rfl
  | null | bool b | number n | string s | array items => cases h

theorem startReading_hostvars {fields : List (String × Json)} {start : InventoryReading}
    (hjson : Json.Canonical (.object fields)) (h : startReading fields = .ok start)
    (host : String) : start.hostvars[host]? = (Json.object fields).metaVars host := by
  rw [Json.metaVars, Json.field?]
  unfold startReading at h
  split at h
  · rename_i metadata hmetadata
    rw [hmetadata, Option.bind_some]
    split at h
    · rename_i raw hraw
      rw [hraw, Option.bind_some]
      split at h
      · rename_i hostvars hhostvars
        rw [← Except.ok.inj h]
        exact readHostvars_eq ((hjson.field? hmetadata).field? hraw) hhostvars host
      · cases h
    · rename_i hraw
      rw [← Except.ok.inj h, hraw]
      exact Std.ExtTreeMap.getElem?_empty
  · rename_i hmetadata
    rw [← Except.ok.inj h, hmetadata]
    exact Std.ExtTreeMap.getElem?_empty

/-! ## The hosts of the dataset -/

/-- The hosts are those of `_meta.hostvars` and those that some group lists; the
former keep their variables and the others have none. -/
theorem fromAnsibleInventory_hosts {value : Json} {dataset : Dataset} {warnings : List String}
    (hjson : value.Canonical) (h : fromAnsibleInventory value = .ok (dataset, warnings))
    (host : String) :
    (host ∈ dataset.addGroupMembers.hostvars ↔
      (value.metaVars host).isSome ∨ value.NamesHost host) ∧
    (∀ vars, value.metaVars host = some vars →
      dataset.addGroupMembers.hostvars[host]? = some vars) ∧
    (value.metaVars host = none → value.NamesHost host →
      dataset.addGroupMembers.hostvars[host]? = some ∅) := by
  obtain ⟨fields, start, reading, rfl, hstart, hread, rfl⟩ := fromAnsibleInventory_cases h
  have hempty : start.groups = ∅ := startReading_groups hstart
  obtain ⟨hextends, hnames⟩ := readGroups_hosts hjson.nodup (fun field _ => by simp [hempty]) hread
  have hvars := startReading_hostvars hjson hstart host
  have hnamed : (∃ field ∈ fields, field.1 ≠ "_meta" ∧ field.2.ListsHost host) ↔
      (Json.object fields).NamesHost host := by
    simp only [Json.NamesHost, Json.field?, StrMap.lookup_eq_some_iff_mem hjson.nodup, Prod.exists]
  have hmem : host ∈ (Dataset.mk reading.hostvars reading.groups []).addGroupMembers.hostvars ↔
      ((Json.object fields).metaVars host).isSome ∨ (Json.object fields).NamesHost host := by
    rw [Dataset.mem_addGroupMembers, ← hvars, ← hnamed]
    refine (hnames host).trans ?_
    rw [InventoryReading.Names, hempty, ← Std.ExtTreeMap.mem_iff_isSome_getElem?]
    simp
  have hall := hextends.trans
    (Dataset.mk reading.hostvars reading.groups []).extends_addGroupMembers
  refine ⟨hmem, fun vars hmeta => ?_, fun hmeta hnames => ?_⟩
  · obtain heq | ⟨hnone, _⟩ := hall host
    · rw [heq, hvars, hmeta]
    · rw [hvars, hmeta] at hnone
      cases hnone
  · obtain heq | ⟨_, hnew⟩ := hall host
    · obtain ⟨vars, hvars'⟩ := (StrMap.mem_iff_exists _ host).mp (hmem.mpr (.inr hnames))
      rw [heq, hvars, hmeta] at hvars'
      cases hvars'
    · exact hnew

/-- One host with variables, one in `all` and one in a plain list. -/
def smallInventory : Json := .object [
  ("_meta", .object [("hostvars", .object [("db1", .object [("os", .string "linux")])])]),
  ("all", .object [("hosts", .array [.string "solo"])]),
  ("web", .array [.string "web1"])]

theorem smallInventory_canonical : smallInventory.Canonical := by
  have hstrings : ∀ name, (Json.array [.string name]).Canonical := fun name =>
    .array (by simp [Json.Canonical.string])
  refine .object (by decide) ?_
  simp only [List.forall_mem_cons, List.not_mem_nil, false_implies, implies_true, and_true]
  refine ⟨.object (by decide) ?_, .object (by decide) ?_, hstrings "web1"⟩
  · simp only [List.forall_mem_cons, List.not_mem_nil, false_implies, implies_true, and_true]
    refine .object (by decide) ?_
    simp only [List.forall_mem_cons, List.not_mem_nil, false_implies, implies_true, and_true]
    exact .object (by decide) (by simp [Json.Canonical.string])
  · simpa using hstrings "solo"

theorem smallInventory_hosts : ∃ dataset, fromAnsibleInventory smallInventory = .ok (dataset, []) ∧
    dataset.addGroupMembers.hostvars["web1"]? = some ∅ := by
  have hread : fromAnsibleInventory smallInventory = .ok
      ({ hostvars := ((∅ : StrMap HostVars).insert "db1"
            ((∅ : HostVars).insert "os" (.string "linux"))).insert "solo" ∅
         groups := (∅ : StrMap Group).insert "web" { hosts := ["web1"] } }, []) := by
    decide +kernel
  exact ⟨_, hread, (fromAnsibleInventory_hosts smallInventory_canonical hread "web1").2.2 rfl
    ⟨"web", _, rfl, by decide, by simp [Json.ListsHost]⟩⟩

end UnifiedApi

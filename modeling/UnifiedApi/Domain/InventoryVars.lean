import UnifiedApi.Domain.InventoryDataset

/-! # Files of variables that go nowhere

A file belongs to the group or host of its name. Where the inventory has none,
a warning says so, but not for `all`; and what belongs to `ungrouped` is not
emitted with it. -/

namespace UnifiedApi.StaticInventory

theorem groupWarning_inj {name other : String} (h : groupWarning name = groupWarning other) :
    name = other := by
  have hlist := congrArg String.toList h
  simp only [groupWarning, String.toList_append, List.append_assoc] at hlist
  exact String.toList_injective (List.append_cancel_right (List.append_cancel_left hlist))

theorem groupWarning_ne (name other : String) : groupWarning name ≠ hostWarning other := by
  intro h
  have hlist := congrArg String.toList h
  simp [groupWarning, hostWarning, String.toList_append] at hlist

section
variable {ops : TextOps} {parser : String → Yaml.Events} {input : StaticInventoryInput}

/-- Every variable of the files is one of its group or host, or a warning names that. -/
structure NoVarDropped (ops : TextOps) (parser : String → Yaml.Events)
    (input : StaticInventoryInput) (dataset : Dataset) (warnings : List String) : Prop where
  groups : ∀ group name, FileVar ops parser input.groupVars group name →
    InDataset dataset group (.var name) ∨ groupWarning group ∈ warnings
  hosts : ∀ host name, FileVar ops parser input.hostVars host name →
    HostInDataset dataset (.var host name) ∨ hostWarning host ∈ warnings

theorem FileVar.mem {files : VarsFiles} {owner name : String}
    (h : FileVar ops parser files owner name) : owner ∈ files := by
  obtain ⟨parts, _, _, hparts, _⟩ := h
  exact StrMap.mem_of_some hparts

/-- A group's files are warned of where the inventory has no such group. -/
theorem Parsed.groupWarning_iff (parsed : Parsed ops parser input) (group : String) :
    groupWarning group ∈ parsed.warnings ↔ group ∈ input.groupVars ∧
      (¬ ∃ node, Describes parsed.root group node) ∧ group ≠ "all" := by
  rw [← parsed.group_iff, ← (parseVarsFiles_done parsed.groupFiles group).1, Parsed.warnings,
    StaticInventory.warnings, List.mem_append]
  constructor
  · rintro (h | h)
    · obtain ⟨name, hname, heq⟩ := List.mem_map.mp h
      obtain rfl := groupWarning_inj heq
      simpa [← Bool.not_eq_true] using hname
    · obtain ⟨name, -, heq⟩ := List.mem_map.mp h
      exact absurd heq.symm (groupWarning_ne group name)
  · intro h
    exact .inl (List.mem_map.mpr ⟨group, by simpa [← Bool.not_eq_true] using h, rfl⟩)

theorem Parsed.hostWarning_of (parsed : Parsed ops parser input) {host : String}
    (hfile : host ∈ input.hostVars) (hnone : ¬ DeclaredHost parsed.root (.itself host)) :
    hostWarning host ∈ parsed.warnings := by
  rw [← (parseVarsFiles_done parsed.hostFiles host).1] at hfile
  rw [← parsed.hasHost_iff, Walk.HasHost] at hnone
  refine List.mem_append_right _ (List.mem_map.mpr ⟨host, ?_, rfl⟩)
  simpa [← Bool.not_eq_true] using And.intro hfile hnone

/-- No variable of a file is lost silently exactly if the inventory describes
`all` where that has files with variables, and does not describe `ungrouped`
where that has. -/
theorem noVarDropped_iff {dataset : Dataset} {warnings : List String}
    (h : parse ops parser input = .ok (dataset, warnings)) :
    ∃ root, Yaml.toJson ops (parser input.inventory) = .ok (.object root) ∧
      (NoVarDropped ops parser input dataset warnings ↔
        (∀ name, FileVar ops parser input.groupVars "all" name →
          ∃ node, Describes root "all" node) ∧
        ∀ name, FileVar ops parser input.groupVars "ungrouped" name →
          ¬ ∃ node, Describes root "ungrouped" node) := by
  obtain ⟨parsed, hresult⟩ := parse_done h
  cases hresult
  refine ⟨parsed.root, parsed.tree, ?_⟩
  constructor
  · intro hkept
    constructor
    · intro name hfile
      obtain hin | hwarned := hkept.groups "all" name hfile
      · obtain ⟨-, ⟨node, houter, -⟩ | ⟨hnode, -⟩⟩ := (parsed.inDataset_iff _ _).mp hin
        · exact ⟨node, houter.describes⟩
        · exact hnode
      · exact absurd rfl ((parsed.groupWarning_iff "all").mp hwarned).2.2
    · intro name hfile
      obtain hin | hwarned := hkept.groups "ungrouped" name hfile
      · exact absurd rfl ((parsed.inDataset_iff _ _).mp hin).1
      · exact ((parsed.groupWarning_iff "ungrouped").mp hwarned).2.1
  · rintro ⟨hall, hungrouped⟩
    constructor
    · intro group name hfile
      by_cases hnode : ∃ node, Describes parsed.root group node
      · refine .inl ((parsed.inDataset_iff group _).mpr ⟨?_, .inr ⟨hnode, name, rfl, hfile⟩⟩)
        rintro rfl
        exact hungrouped name hfile hnode
      · refine .inr ((parsed.groupWarning_iff group).mpr ⟨hfile.mem, hnode, ?_⟩)
        rintro rfl
        exact hnode (hall name hfile)
    · intro host name hfile
      by_cases hhost : DeclaredHost parsed.root (.itself host)
      · exact .inl ((parsed.hostInDataset_iff _).mpr (.inr ⟨host, name, rfl, hhost, hfile⟩))
      · exact .inr (parsed.hostWarning_of hfile.mem hhost)

end

/-- `{web: }` -/
def webOnly : Yaml.Events :=
  [.streamStart, .documentStart, .mappingStart 0, .scalar "web" .plain 0 none,
    .scalar "" .plain 0 none, .mappingEnd, .documentEnd, .streamEnd].map .ok

/-- `{ntp: pool}` -/
def ntpVar : Yaml.Events :=
  [.streamStart, .documentStart, .mappingStart 0, .scalar "ntp" .plain 0 none,
    .scalar "pool" .plain 0 none, .mappingEnd, .documentEnd, .streamEnd].map .ok

/-- Reads an inventory `web:` and files `ntp: pool`. -/
def twoFiles (contents : String) : Yaml.Events := if contents = "web:" then webOnly else ntpVar

def ntpInput (group : String) : StaticInventoryInput where
  inventory := "web:"
  groupVars := (∅ : VarsFiles).insert group [(group ++ ".yaml", "ntp: pool")]

theorem ntpVar_of (group : String) :
    FileVar .wordsOnly twoFiles (ntpInput group).groupVars group "ntp" := by
  refine ⟨[(group ++ ".yaml", "ntp: pool")], (group ++ ".yaml", "ntp: pool"),
    .object [("ntp", .string "pool")], by simp [ntpInput], List.mem_cons_self, ?_,
    List.mem_cons_self⟩
  show Yaml.toJson .wordsOnly (twoFiles "ntp: pool") = _
  decide +kernel

theorem webFile_kept : ∃ result,
    parse .wordsOnly twoFiles (ntpInput "web") = .ok result ∧
      NoVarDropped .wordsOnly twoFiles (ntpInput "web") result.1 result.2 := by
  have hok : (parse .wordsOnly twoFiles (ntpInput "web")).toOption.isSome = true := by
    decide +kernel
  obtain ⟨result, h⟩ := Results.ok_of_isSome hok
  obtain ⟨root, -, hiff⟩ := noVarDropped_iff h
  have hother : ∀ group, group ≠ "web" → ∀ name,
      ¬ FileVar .wordsOnly twoFiles (ntpInput "web").groupVars group name := by
    intro group hgroup name hfile
    have hmem := hfile.mem
    simp [ntpInput, Ne.symm hgroup] at hmem
  exact ⟨result, h, hiff.mpr ⟨fun name hfile => absurd hfile (hother _ (by decide) name),
    fun name hfile => absurd hfile (hother _ (by decide) name)⟩⟩

/-- The inventory does not describe `all`, and its variables are gone. -/
theorem allFile_dropped : ∃ result,
    parse .wordsOnly twoFiles (ntpInput "all") = .ok result ∧ result.2 = [] ∧
      ¬ NoVarDropped .wordsOnly twoFiles (ntpInput "all") result.1 result.2 := by
  have hok : (parse .wordsOnly twoFiles (ntpInput "all")).toOption.map
      (fun result => (result.1.groups["all"]?, result.2)) = some (none, []) := by decide +kernel
  obtain ⟨result, h, hresult⟩ := Results.ok_of_toOption_map hok
  obtain ⟨hgroup, hwarnings⟩ := Prod.mk.inj hresult
  refine ⟨result, h, hwarnings, ?_⟩
  intro hkept
  obtain ⟨group, hfound, -⟩ | hwarned := hkept.groups "all" "ntp" (ntpVar_of "all")
  · rw [hgroup] at hfound
    cases hfound
  · rw [hwarnings] at hwarned
    cases hwarned

end UnifiedApi.StaticInventory

import Mathlib.Algebra.BigOperators.Group.List.Basic
import UnifiedApi.Adapters.Http.Dataset
import UnifiedApi.Application.ViewRouting
import UnifiedApi.Lib.Lists

/-! # What a view read selects

The routes filter by host and group in two layers, one of them in the
snapshot. Together they select one set of the hosts that the view serves. -/

namespace UnifiedApi

/-- The member's data lists the host in the group. -/
def MemberSnapshot.ListsInGroup (member : MemberSnapshot) (group hostname : String) : Prop :=
  ∃ entry, member.entry = some entry ∧ entry.dataset.groupLists group hostname = true

namespace ViewSnapshot

/-- A host name that the routes cannot route. -/
def Unclaimed (snap : ViewSnapshot) (hostname : String) : Prop :=
  ∀ member ∈ snap.members, member.claims hostname = false

theorem mem_groupMembers {snap : ViewSnapshot} {name hostname : String} :
    hostname ∈ (match snap.select none (some name) with
      | .ok members => members
      | .error _ => []) ↔
      ∃ member ∈ snap.members, member.ListsInGroup name hostname := by
  simp only [select, mem_sortNames, List.mem_flatMap]
  refine exists_congr fun member => and_congr_right fun _ => ?_
  unfold MemberSnapshot.ListsInGroup
  cases member.entry with
  | none => simp
  | some entry =>
    simp only [Option.bind_some, Option.some.injEq, exists_eq_left', Dataset.groupLists]
    cases entry.dataset.groups[name]? with
    | none => simp
    | some group => simp [Group.lists]

theorem select_named (snap : ViewSnapshot) (names : String) (group : Option String) :
    ((∃ unclaimed, snap.select (some names) group = .error unclaimed) ↔
      ∃ name ∈ Text.commaNames names, snap.Unclaimed name) ∧
    ∀ selection, snap.select (some names) group = .ok selection →
      selection = sortNames ((Text.commaNames names).filter snap.serves) := by
  have hunclaimed : ((Text.commaNames names).filter fun name =>
      (snap.ownerOf name).isNone).isEmpty = true ↔
      ¬ ∃ name ∈ Text.commaNames names, snap.Unclaimed name := by
    simp only [List.isEmpty_iff, List.filter_eq_nil_iff, isNone_ownerOf_iff, Unclaimed, not_exists,
      not_and]
  simp only [select]
  split
  · rename_i hempty
    refine ⟨iff_of_false (fun h => nomatch h) (hunclaimed.mp hempty), fun selection h => ?_⟩
    exact (Except.ok.inj h).symm
  · rename_i hempty
    exact ⟨iff_of_true ⟨_, rfl⟩ (not_not.mp (mt hunclaimed.mpr hempty)), fun _ h => nomatch h⟩

theorem selectMembers_error_iff (snap : ViewSnapshot) (host group : Option String) :
    (∃ unclaimed, selectMembers snap host group = .error unclaimed) ↔
      ∃ names, host = some names ∧ ∃ name ∈ Text.commaNames names, snap.Unclaimed name := by
  cases group with
  | none =>
    cases host with
    | none => simp [selectMembers, select]
    | some names => simpa [selectMembers] using (snap.select_named names none).1
  | some groups =>
    cases host with
    | none => simp [selectMembers]
    | some names =>
      have hnamed := (snap.select_named names none).1
      cases hselect : snap.select (some names) none with
      | error unclaimed => simpa [selectMembers, hselect, Except.map] using hnamed
      | ok selection => simpa [selectMembers, hselect, Except.map] using hnamed

/-- What is selected, with the layers of the code taken apart. -/
theorem selectMembers_ok {snap : ViewSnapshot} {host group : Option String}
    {selection : List String} (h : selectMembers snap host group = .ok selection) :
    selection.Pairwise (· < ·) ∧ ∀ hostname, hostname ∈ selection ↔
      snap.serves hostname = true ∧
      (∀ names, host = some names → hostname ∈ Text.commaNames names) ∧
      (∀ names, group = some names → ∃ name ∈ Text.commaNames names,
        ∃ member ∈ snap.members, member.ListsInGroup name hostname) := by
  cases group with
  | none =>
    cases host with
    | none =>
      obtain rfl := Except.ok.inj h
      exact ⟨sortNames_pairwise _, fun hostname => by simp [mem_hosts]⟩
    | some names =>
      obtain rfl := (snap.select_named names none).2 selection h
      exact ⟨sortNames_pairwise _, fun hostname => by simp [and_comm]⟩
  | some groups =>
    cases host with
    | none =>
      obtain rfl : sortNames (((Text.commaNames groups).flatMap fun name =>
          match snap.select none (some name) with
          | .ok members => members
          | .error _ => []).filter snap.serves) = selection := Except.ok.inj h
      refine ⟨sortNames_pairwise _, fun hostname => ?_⟩
      simp only [mem_sortNames, List.mem_filter, List.mem_flatMap, mem_groupMembers]
      simp [and_comm]
    | some names =>
      obtain ⟨named, hnamed, rfl⟩ : ∃ named, snap.select (some names) none = .ok named ∧
          named.filter (fun hostname => ((Text.commaNames groups).flatMap fun name =>
            match snap.select none (some name) with
            | .ok members => members
            | .error _ => []).contains hostname) = selection := by
        cases hselect : snap.select (some names) none with
        | error unclaimed => simp [selectMembers, hselect, Except.map] at h
        | ok named =>
          simp only [selectMembers, hselect, Except.map, Except.ok.injEq] at h
          exact ⟨named, rfl, h⟩
      obtain rfl := (snap.select_named names none).2 named hnamed
      refine ⟨(sortNames_pairwise _).filter _, fun hostname => ?_⟩
      simp only [mem_sortNames, List.mem_filter, List.contains_iff_mem, List.mem_flatMap,
        mem_groupMembers]
      simp [and_left_comm, and_assoc]

theorem route_error_iff (snap : ViewSnapshot) (hosts : List String) :
    (∃ unclaimed, snap.route hosts = .error unclaimed) ↔
      ∃ hostname ∈ hosts, snap.Unclaimed hostname := by
  have hunclaimed :
      (hosts.filter fun hostname => (snap.ownerIndex hostname).isNone).isEmpty = true ↔
        ¬ ∃ hostname ∈ hosts, snap.Unclaimed hostname := by
    simp only [List.isEmpty_iff, List.filter_eq_nil_iff, isNone_ownerIndex_iff, Unclaimed,
      not_exists, not_and]
  rw [route_eq]
  dsimp only
  split
  · rename_i hempty
    exact iff_of_false (fun h => nomatch h) (hunclaimed.mp hempty)
  · rename_i hempty
    exact iff_of_true ⟨_, rfl⟩ (not_not.mp (mt hunclaimed.mpr hempty))

/-- Every host that some member owns is in one part, as often as in the list. -/
theorem parts_perm {snap : ViewSnapshot} {hosts : List String}
    (h : ∀ hostname ∈ hosts, ¬ snap.Unclaimed hostname) :
    ((snap.parts hosts).flatMap (·.2)).Perm hosts := by
  -- the parts, those that nobody owns any host of among them
  have hflat : (snap.parts hosts).flatMap (·.2) = (List.range snap.members.length).flatMap
      fun index => hosts.filter fun hostname => snap.ownerIndex hostname = some index := by
    unfold parts
    rw [Lists.flatMap_filterMap]
    refine List.flatMap_congr fun index hindex => ?_
    rw [List.getElem?_eq_getElem (List.mem_range.mp hindex)]
    dsimp only
    split
    · rename_i hempty
      exact (List.isEmpty_iff.mp hempty).symm
    · rfl
  rw [hflat, List.perm_iff_count]
  intro hostname
  by_cases hmem : hostname ∈ hosts
  · obtain ⟨owner, howner⟩ : ∃ owner, snap.ownerIndex hostname = some owner := by
      rw [← Option.isSome_iff_exists, ← Option.not_isNone, Bool.not_eq_true', Bool.eq_false_iff]
      exact fun hnone => h hostname hmem (isNone_ownerIndex_iff.mp hnone)
    have hother : ∀ index ≠ owner, index ∈ List.range snap.members.length →
        (List.count hostname ∘ fun index =>
          hosts.filter fun hostname => snap.ownerIndex hostname = some index) index = 0 := by
      intro index hne _
      rw [Function.comp_apply, List.count_eq_zero, List.mem_filter, howner]
      simp [hne.symm]
    rw [List.count_flatMap, List.sum_map_eq_nsmul_single owner _ hother]
    have hlt : owner ∈ List.range snap.members.length :=
      List.mem_range.mpr (lt_of_ownerIndex howner)
    rw [List.count_eq_one_of_mem List.nodup_range hlt, one_nsmul, Function.comp_apply,
      List.count_filter (by simp [howner])]
  · rw [List.count_eq_zero.mpr hmem, List.count_eq_zero, List.mem_flatMap]
    intro hin
    obtain ⟨index, _, hfilter⟩ := hin
    exact hmem (List.mem_filter.mp hfilter).1

/-- **What a view read selects**: an error exactly for a named host that no
member claims, otherwise the hosts of the view that are named, if any names
are given, and that some member's data lists in one of the groups, if groups
are given. A list is routed in the same way, host by host. -/
theorem selectMembers_spec (snap : ViewSnapshot) (host group : Option String) :
    ((∃ unclaimed, selectMembers snap host group = .error unclaimed) ↔
      ∃ names, host = some names ∧ ∃ name ∈ Text.commaNames names, snap.Unclaimed name) ∧
    (∀ selection, selectMembers snap host group = .ok selection →
      selection.Pairwise (· < ·) ∧ ∀ hostname, hostname ∈ selection ↔
        hostname ∈ snap.hosts ∧
        (∀ names, host = some names → hostname ∈ Text.commaNames names) ∧
        (∀ names, group = some names → ∃ name ∈ Text.commaNames names,
          ∃ member ∈ snap.members, member.ListsInGroup name hostname)) ∧
    ∀ hosts, ((∃ unclaimed, snap.route hosts = .error unclaimed) ↔
        ∃ hostname ∈ hosts, snap.Unclaimed hostname) ∧
      ∀ parts, snap.route hosts = .ok parts →
        parts = snap.parts hosts ∧ (parts.flatMap (·.2)).Perm hosts := by
  refine ⟨snap.selectMembers_error_iff host group, ?_, fun hosts =>
    ⟨snap.route_error_iff hosts, ?_⟩⟩
  · intro selection hselection
    simpa only [mem_hosts] using selectMembers_ok hselection
  · intro parts hparts
    have hclaimed : ¬ ∃ hostname ∈ hosts, snap.Unclaimed hostname := by
      rw [← route_error_iff, hparts]
      exact fun h => nomatch h
    rw [route_eq] at hparts
    dsimp only at hparts
    split at hparts
    · obtain rfl := Except.ok.inj hparts
      exact ⟨rfl, parts_perm fun hostname hmem hfree => hclaimed ⟨hostname, hmem, hfree⟩⟩
    · cases hparts

end ViewSnapshot

end UnifiedApi

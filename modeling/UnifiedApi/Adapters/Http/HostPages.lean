import Mathlib.Algebra.BigOperators.Group.List.Basic
import UnifiedApi.Adapters.Http.Dataset
import UnifiedApi.Application.ViewRouting
import UnifiedApi.Lib.Lists

/-! # The pages of a selection and the list of its hosts

`GET /sources/{id}/dataset` answers a selection page by page,
`GET /sources/{id}/hosts` with its names. Both resolve it alike, but a page
carries only hosts that have variables, and a group may list others. -/

namespace UnifiedApi

structure HostsParams where
  host : Option String := none
  group : Option String := none
  filter : Option String := none
  deriving DecidableEq

namespace HostsParams

def isPlain (params : HostsParams) : Bool :=
  params.host.isNone && params.group.isNone && params.filter.isNone

def hostIsPattern (params : HostsParams) : Bool :=
  params.host.any fun host => host.toList.contains '*' || host.toList.contains '?'

def exactHosts (params : HostsParams) : Option String :=
  if params.hostIsPattern then none else params.host

def hostFilter (ops : TextOps) (params : HostsParams) : Except ApiError HostFilter :=
  let patterns := if params.hostIsPattern then params.host.getD "" else ""
  (HostFilter.parse ops patterns.toList (params.filter.getD "").toList).mapError .badRequest

end HostsParams

structure HostList where
  sourceId : String
  totalHosts : Nat
  hosts : List String
  deriving DecidableEq

/-- The 200 body of GET /sources/{id}/hosts of a source. -/
def listSourceHosts (ops : TextOps) (id : String) (params : HostsParams) (dataset : Dataset) :
    Except ApiError HostList := do
  let hostFilter ← params.hostFilter ops
  let hosts := if params.isPlain then dataset.hostvars.keys
    else (resolveHostnames dataset params.exactHosts params.group).filter fun host =>
      hostFilter.isEmpty || dataset.hostvars[host]?.any (hostFilter.matches ops host)
  let hosts := hosts.insertionSort (· ≤ ·)
  return { sourceId := id, totalHosts := hosts.length, hosts }

namespace DatasetParams

/-- What selects hosts. -/
def selection (params : DatasetParams) : HostsParams :=
  { host := params.host, group := params.group, filter := params.filter }

/-- The request for the page of number `k`. -/
def pageAt (params : DatasetParams) (limit k : Nat) : DatasetParams :=
  { params with limit := some limit, offset := some (k * limit) }

end DatasetParams

/-- The pages, in order, carry the listed hosts and no other, and what they
say about their number is true. -/
structure PagesCover (pages : Nat → DatasetPage) (limit : Nat) (listed all : HostList) : Prop where
  total : ∀ k, (pages k).totalHosts = listed.totalHosts
  ordered : listed.hosts.Pairwise (· < ·)
  carried : ∀ n, listed.totalHosts ≤ n * limit →
    (List.range n).flatMap (fun k => (pages k).hostvars.keys) = listed.hosts
  known : ∀ host ∈ listed.hosts, host ∈ all.hosts
  returned : ∀ n, listed.totalHosts ≤ n * limit →
    ((List.range n).map fun k => (pages k).returned).sum = listed.totalHosts

/-- Where groups alone select, every member of the selected groups has
variables. -/
def MembersHaveVars (dataset : Dataset) (params : DatasetParams) (hostFilter : HostFilter) : Prop :=
  params.exactHosts = none → hostFilter.isEmpty = true → ∀ groups, params.group = some groups →
    ∀ name ∈ Text.commaNames groups, ∀ group, dataset.groups[name]? = some group →
      ∀ host ∈ group.hosts, host ∈ dataset.hostvars

/-! ## One selection for both -/

/-- The selected hosts that the filter lets through. -/
def selectedHosts (ops : TextOps) (params : DatasetParams) (hostFilter : HostFilter)
    (dataset : Dataset) : List String :=
  let hostnames := resolveHostnames dataset params.exactHosts params.group
  if hostFilter.isEmpty then hostnames
  else hostnames.filter fun host => dataset.hostvars[host]?.any (hostFilter.matches ops host)

section
variable {ops : TextOps} {params : DatasetParams} {hostFilter : HostFilter} {dataset : Dataset}

/-- A list that is sorted, each name once, is the keys of a map that has them. -/
theorem keys_eq_of_pairwise {β : Type} {m : StrMap β} {names : List String}
    (hsorted : names.Pairwise (· < ·)) (hmem : ∀ name, name ∈ m ↔ name ∈ names) :
    m.keys = names := by
  have hkeys : m.keys.Pairwise (· < ·) :=
    Std.ExtTreeMap.ordered_keys.imp fun hlt => compare_lt_iff_lt.mp hlt
  have hperm : m.keys.Perm names := by
    rw [List.perm_ext_iff_of_nodup Std.ExtTreeMap.nodup_keys hsorted.nodup]
    intro name
    rw [Std.ExtTreeMap.mem_keys]
    exact hmem name
  exact hperm.eq_of_pairwise (fun a b _ _ hab hba => absurd hba (lt_asymm hab)) hkeys hsorted

theorem selectedHosts_pairwise :
    (selectedHosts ops params hostFilter dataset).Pairwise (· < ·) := by
  unfold selectedHosts
  dsimp only
  split
  · exact sortNames_pairwise _
  · exact (sortNames_pairwise _).filter _

theorem mem_hostvarsOf {hosts : List String} {host : String} :
    host ∈ dataset.hostvarsOf hosts ↔ host ∈ hosts ∧ host ∈ dataset.hostvars := by
  have hget : (dataset.hostvarsOf hosts)[host]? =
      if host ∈ hosts then dataset.hostvars[host]? else none := by
    unfold Dataset.hostvarsOf
    rw [StrMap.getElem?_foldl_keys (g := fun name old => dataset.hostvars[name]?.or old)]
    · simp
    · intro hostvars name other
      dsimp only
      cases hvars : dataset.hostvars[name]? with
      | none => exact (ite_self _).symm
      | some vars =>
        dsimp only
        rw [StrMap.getElem?_insert, Option.some_or]
    · intro name old
      cases dataset.hostvars[name]? <;> rfl
  rw [StrMap.mem_iff, hget, StrMap.mem_iff]
  by_cases hhost : host ∈ hosts <;> simp [hhost]

/-- Whom the selection names without asking whether they have variables. -/
theorem mem_hostvars_of_selected (hmembers : MembersHaveVars dataset params hostFilter)
    {host : String} (h : host ∈ selectedHosts ops params hostFilter dataset) :
    host ∈ dataset.hostvars := by
  unfold selectedHosts at h
  dsimp only at h
  split at h
  · rename_i hempty
    unfold resolveHostnames at h
    rw [mem_sortNames] at h
    cases hexact : params.exactHosts with
    | some names =>
      rw [hexact] at h
      obtain ⟨_, hthere⟩ := List.mem_filter.mp h
      exact Std.ExtTreeMap.contains_iff_mem.mp (Bool.and_eq_true_iff.mp hthere).1
    | none =>
      rw [hexact] at h
      cases hgroup : params.group with
      | none =>
        rw [hgroup] at h
        exact Std.ExtTreeMap.mem_keys.mp h
      | some groups =>
        rw [hgroup] at h
        obtain ⟨name, hname, hhost⟩ := List.mem_flatMap.mp h
        cases hfound : dataset.groups[name]? with
        | none =>
          rw [hfound] at hhost
          cases hhost
        | some group =>
          rw [hfound] at hhost
          exact hmembers hexact hempty groups hgroup name hname group hfound host hhost
  · obtain ⟨_, hmatches⟩ := List.mem_filter.mp h
    cases hvars : dataset.hostvars[host]? with
    | none =>
      rw [hvars] at hmatches
      cases hmatches
    | some vars => exact StrMap.mem_of_some hvars

/-- A member without variables is selected by its group all the same. -/
theorem membersHaveVars_of_known
    (hknown : ∀ host ∈ selectedHosts ops params hostFilter dataset, host ∈ dataset.hostvars) :
    MembersHaveVars dataset params hostFilter := by
  intro hexact hempty groups hgroup name hname group hfound host hhost
  refine hknown host ?_
  unfold selectedHosts resolveHostnames
  rw [if_pos hempty, mem_sortNames, hexact, hgroup]
  exact List.mem_flatMap.mpr ⟨name, hname, by rw [hfound]; exact hhost⟩

/-! ## The two routes -/

theorem hostFilter_selection (h : params.hostFilter ops = .ok hostFilter) :
    params.selection.hostFilter ops = .ok hostFilter := by
  unfold DatasetParams.hostFilter at h
  split at h
  · cases h
  · exact h

/-- Nothing to select by: every host with variables. -/
theorem selectedHosts_of_isPlain (h : params.hostFilter ops = .ok hostFilter)
    (hplain : params.selection.isPlain = true) :
    selectedHosts ops params hostFilter dataset = dataset.hostvars.keys := by
  obtain ⟨⟨hhost, hgroup⟩, hnofilter⟩ : (params.host = none ∧ params.group = none) ∧
      params.filter = none := by
    simpa [HostsParams.isPlain, DatasetParams.selection] using hplain
  have hexact : params.exactHosts = none := by
    unfold DatasetParams.exactHosts DatasetParams.hostIsPattern
    rw [hhost]
    rfl
  have hempty : hostFilter = {} := by
    unfold DatasetParams.hostFilter DatasetParams.hostIsPattern at h
    rw [hhost, hnofilter] at h
    exact (Except.ok.inj h).symm
  have hkeys : dataset.hostvars.keys.Pairwise (· < ·) :=
    Std.ExtTreeMap.ordered_keys.imp fun hlt => compare_lt_iff_lt.mp hlt
  unfold selectedHosts resolveHostnames
  rw [hempty, hexact, hgroup]
  show sortNames dataset.hostvars.keys = _
  unfold sortNames
  rw [(hkeys.imp le_of_lt).insertionSort_eq, hkeys.nodup.dedup]

theorem listSourceHosts_selection (h : params.hostFilter ops = .ok hostFilter) (id : String) :
    listSourceHosts ops id params.selection dataset = .ok
      { sourceId := id
        totalHosts := (selectedHosts ops params hostFilter dataset).length
        hosts := selectedHosts ops params hostFilter dataset } := by
  have hhosts : (if params.selection.isPlain then dataset.hostvars.keys
      else (resolveHostnames dataset params.selection.exactHosts params.selection.group).filter
        fun host => hostFilter.isEmpty || dataset.hostvars[host]?.any
          (hostFilter.matches ops host)) = selectedHosts ops params hostFilter dataset := by
    by_cases hplain : params.selection.isPlain = true
    · rw [if_pos hplain, selectedHosts_of_isPlain h hplain]
    · rw [if_neg hplain]
      unfold selectedHosts
      cases hostFilter.isEmpty
      · rfl
      · exact List.filter_eq_self.mpr fun _ _ => rfl
  have hsorted : (selectedHosts ops params hostFilter dataset).insertionSort (· ≤ ·) =
      selectedHosts ops params hostFilter dataset :=
    (selectedHosts_pairwise.imp le_of_lt).insertionSort_eq
  unfold listSourceHosts
  rw [hostFilter_selection h]
  simp only [bind, Except.bind, pure, Except.pure, hhosts, hsorted]

theorem sourceBody_pageAt (h : params.hostFilter ops = .ok hostFilter) (id : String)
    (limit k : Nat) : sourceBody ops id (params.pageAt limit k) dataset =
      .ok (.page (sourcePage ops id (params.pageAt limit k) hostFilter dataset)) := by
  have hfilter : (params.pageAt limit k).hostFilter ops = .ok hostFilter := h
  have hplain : (params.pageAt limit k).isPlain = false := by
    simp [DatasetParams.isPlain, DatasetParams.pageAt]
  unfold sourceBody
  rw [hfilter]
  simp only [bind, Except.bind, pure, Except.pure, hplain]
  rfl

/-! ## The pages -/

theorem sourcePage_totalHosts (id : String) (limit k : Nat) :
    (sourcePage ops id (params.pageAt limit k) hostFilter dataset).totalHosts =
      (selectedHosts ops params hostFilter dataset).length := rfl

theorem sourcePage_returned (id : String) (limit k : Nat) :
    (sourcePage ops id (params.pageAt limit k) hostFilter dataset).returned =
      (sourcePage ops id (params.pageAt limit k) hostFilter dataset).hostvars.keys.length :=
  Std.ExtTreeMap.length_keys.symm

/-- A page of known hosts carries its slice of the selection. -/
theorem sourcePage_keys (id : String) (limit k : Nat)
    (hknown : ∀ host ∈ selectedHosts ops params hostFilter dataset, host ∈ dataset.hostvars) :
    (sourcePage ops id (params.pageAt limit k) hostFilter dataset).hostvars.keys =
      ((selectedHosts ops params hostFilter dataset).drop (k * limit)).take limit := by
  have hslice : (((selectedHosts ops params hostFilter dataset).drop (k * limit)).take
      limit).Sublist (selectedHosts ops params hostFilter dataset) :=
    (List.take_sublist limit _).trans (List.drop_sublist _ _)
  refine keys_eq_of_pairwise (selectedHosts_pairwise.sublist hslice) fun host => ?_
  show host ∈ (dataset.hostvarsOf (((selectedHosts ops params hostFilter dataset).drop
    (k * limit)).take limit)).map _ ↔ _
  rw [Std.ExtTreeMap.mem_map, mem_hostvarsOf]
  exact and_iff_left_of_imp fun hmem => hknown host (hslice.subset hmem)

end

/-- The pages of a selection cover what the list of its hosts says, exactly
when no selected group has a member without variables. -/
theorem pages_cover_iff (ops : TextOps) (id : String) (dataset : Dataset) (params : DatasetParams)
    (limit : Nat) (hostFilter : HostFilter) (hfilter : params.hostFilter ops = .ok hostFilter) :
    ∃ pages listed all,
      (∀ k, sourceBody ops id (params.pageAt limit k) dataset = .ok (.page (pages k))) ∧
      listSourceHosts ops id params.selection dataset = .ok listed ∧
      listSourceHosts ops id {} dataset = .ok all ∧
      (PagesCover pages limit listed all ↔ MembersHaveVars dataset params hostFilter) := by
  have hall : listSourceHosts ops id {} dataset = .ok
      { sourceId := id, totalHosts := dataset.hostvars.keys.length
        hosts := dataset.hostvars.keys } := by
    have hnone : ({} : DatasetParams).hostFilter ops = .ok {} := rfl
    rw [← selectedHosts_of_isPlain hnone rfl]
    exact listSourceHosts_selection hnone id
  refine ⟨_, _, _, sourceBody_pageAt hfilter id limit, listSourceHosts_selection hfilter id, hall,
    ?_, ?_⟩
  · intro hcover
    exact membersHaveVars_of_known fun host hhost =>
      Std.ExtTreeMap.mem_keys.mp (hcover.known host hhost)
  · intro hmembers
    have hknown : ∀ host ∈ selectedHosts ops params hostFilter dataset,
        host ∈ dataset.hostvars := fun host => mem_hostvars_of_selected hmembers
    have hcarried : ∀ n, (selectedHosts ops params hostFilter dataset).length ≤ n * limit →
        (List.range n).flatMap (fun k => (sourcePage ops id (params.pageAt limit k) hostFilter
          dataset).hostvars.keys) = selectedHosts ops params hostFilter dataset := by
      intro n hn
      simp only [sourcePage_keys id limit _ hknown]
      rw [Lists.flatMap_slices, List.take_of_length_le hn]
    refine ⟨sourcePage_totalHosts id limit, selectedHosts_pairwise, hcarried, fun host hhost =>
      Std.ExtTreeMap.mem_keys.mpr (hknown host hhost), fun n hn => ?_⟩
    simp only [sourcePage_returned]
    rw [← List.length_flatMap, hcarried n hn]

/-- A group of two hosts that have variables. -/
def pairGroup : Dataset :=
  { hostvars := ((∅ : StrMap HostVars).insert "web1" ∅).insert "web2" ∅
    groups := (∅ : StrMap Group).insert "web" { hosts := ["web2", "web1", "web2"] } }

theorem pairGroup_covered :
    ∃ pages listed all,
      (∀ k, sourceBody .wordsOnly "src" (DatasetParams.pageAt { group := some "web" } 1 k)
        pairGroup = .ok (.page (pages k))) ∧
      listSourceHosts .wordsOnly "src" { group := some "web" } pairGroup = .ok listed ∧
      listSourceHosts .wordsOnly "src" {} pairGroup = .ok all ∧ PagesCover pages 1 listed all := by
  obtain ⟨pages, listed, all, hpages, hlisted, hall, hcover⟩ :=
    pages_cover_iff .wordsOnly "src" pairGroup { group := some "web" } 1 {} rfl
  refine ⟨pages, listed, all, hpages, hlisted, hall, hcover.mpr ?_⟩
  intro _ _ groups hgroups name hname group hgroup host hhost
  obtain rfl := Option.some.inj hgroups
  have hnames : Text.commaNames "web" = ["web"] := by decide +kernel
  rw [hnames, List.mem_singleton] at hname
  have hweb : pairGroup.groups["web"]? = some { hosts := ["web2", "web1", "web2"] } := by
    decide +kernel
  rw [hname, hweb] at hgroup
  obtain rfl := Option.some.inj hgroup
  have hboth : ∀ host ∈ ["web2", "web1", "web2"], host ∈ pairGroup.hostvars := by decide +kernel
  exact hboth host hhost

/-- A group whose member has no variables, as a sync of that group alone can
leave it. -/
def bareGroup : Dataset := { groups := (∅ : StrMap Group).insert "web" { hosts := ["web1"] } }

/-- The list of the group's hosts names the member, the pages count it and do
not carry it. -/
theorem bareGroup_not_covered :
    ¬ ∃ pages listed all,
      (∀ k, sourceBody .wordsOnly "src" (DatasetParams.pageAt { group := some "web" } 1 k)
        bareGroup = .ok (.page (pages k))) ∧
      listSourceHosts .wordsOnly "src" { group := some "web" } bareGroup = .ok listed ∧
      listSourceHosts .wordsOnly "src" {} bareGroup = .ok all ∧ PagesCover pages 1 listed all := by
  rintro ⟨pages, listed, all, _, hlisted, hall, hcover⟩
  have hone : listSourceHosts .wordsOnly "src" { group := some "web" } bareGroup =
      .ok { sourceId := "src", totalHosts := 1, hosts := ["web1"] } := by decide +kernel
  have hnone : listSourceHosts .wordsOnly "src" {} bareGroup =
      .ok { sourceId := "src", totalHosts := 0, hosts := [] } := by decide +kernel
  obtain rfl := Except.ok.inj (hone.symm.trans hlisted)
  obtain rfl := Except.ok.inj (hnone.symm.trans hall)
  cases hcover.known "web1" List.mem_cons_self

end UnifiedApi

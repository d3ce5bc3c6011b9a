import Mathlib.Data.List.Dedup
import UnifiedApi.Application.ViewSnapshot

/-! # Who owns a host

The routing table and the scan of the members are two ways to the same answer;
what is selected and how a list is split between members follow from it. -/

namespace UnifiedApi

theorem sortNames_pairwise (names : List String) : (sortNames names).Pairwise (· < ·) := by
  have hsorted : (sortNames names).Pairwise (· ≤ ·) :=
    (List.pairwise_insertionSort (· ≤ ·) names).sublist (List.dedup_sublist _)
  have hnodup : (sortNames names).Nodup := List.nodup_dedup _
  exact hsorted.imp₂ (fun _ _ hle hne => lt_of_le_of_ne hle hne) hnodup

@[simp] theorem mem_sortNames {name : String} {names : List String} :
    name ∈ sortNames names ↔ name ∈ names := by
  rw [sortNames, List.mem_dedup, List.mem_insertionSort]

namespace ViewSnapshot

/-! ## The table and the scan -/

theorem getElem?_claimed (member : MemberSnapshot) (index : Nat) (routing : StrMap Nat)
    (hostname : String) :
    (member.claimedHosts.foldl (fun routing hostname =>
      if routing.contains hostname then routing else routing.insert hostname index)
      routing)[hostname]? =
    routing[hostname]?.or (if member.claims hostname then some index else none) := by
  rw [StrMap.getElem?_foldl_keys (g := fun _ old => old.or (some index))]
  · simp only [MemberSnapshot.mem_claimedHosts]
    split
    · rfl
    · rw [Option.or_none]
  · intro routing key other
    dsimp only
    by_cases hcontains : routing.contains key = true
    · rw [if_pos hcontains]
      by_cases hkey : key = other
      · subst hkey
        rw [Std.ExtTreeMap.contains_iff_mem, StrMap.mem_iff_exists] at hcontains
        obtain ⟨old, hold⟩ := hcontains
        rw [if_pos rfl, hold, Option.some_or]
      · rw [if_neg hkey]
    · rw [if_neg hcontains, StrMap.getElem?_insert]
      by_cases hkey : key = other
      · subst hkey
        rw [Std.ExtTreeMap.contains_iff_mem, StrMap.mem_iff, not_not] at hcontains
        rw [if_pos rfl, if_pos rfl, hcontains, Option.none_or]
      · rw [if_neg hkey, if_neg hkey]
  · intro _ old
    cases old <;> rfl

/-- The first member to claim a host keeps it. -/
theorem getElem?_routing (snap : ViewSnapshot) (hostname : String) :
    snap.routing[hostname]? = snap.members.findIdx? (·.claims hostname) := by
  have hfold : ∀ (members : List MemberSnapshot) (first : Nat) (routing : StrMap Nat),
      ((members.zipIdx first).foldl (fun routing claimed =>
        claimed.1.claimedHosts.foldl (fun routing hostname =>
          if routing.contains hostname then routing else routing.insert hostname claimed.2)
          routing) routing)[hostname]? =
      routing[hostname]?.or ((members.findIdx? (·.claims hostname)).map (· + first)) := by
    intro members
    induction members with
    | nil =>
      intro first routing
      simp
    | cons member members ih =>
      intro first routing
      rw [List.zipIdx_cons, List.foldl_cons, ih, getElem?_claimed, Option.or_assoc,
        List.findIdx?_cons]
      by_cases hclaims : member.claims hostname = true
      · simp [hclaims]
      · simp only [hclaims, Bool.false_eq_true, if_false, Option.none_or, Option.map_map]
        congr 2
        funext index
        simp only [Function.comp_apply]
        omega
  have hempty : (∅ : StrMap Nat)[hostname]? = none := Std.ExtTreeMap.getElem?_empty
  rw [show snap.routing[hostname]? = _ from hfold snap.members 0 ∅, hempty, Option.none_or]
  simp

/-- **Both ways to the owner agree**: a predicate and a set that were written
apart, and a table of the sets. -/
theorem ownerIndex_table_eq_scan (snap : ViewSnapshot) (hostname : String) :
    (∀ member : MemberSnapshot,
      member.claims hostname = true ↔ hostname ∈ member.claimedHosts) ∧
    (∀ index, snap.routing[hostname]? = some index ↔
      (∃ member, snap.members[index]? = some member ∧ member.claims hostname = true) ∧
      ∀ earlier < index, ∀ member, snap.members[earlier]? = some member →
        member.claims hostname = false) ∧
    { snap with built := true }.ownerIndex hostname =
      { snap with built := false }.ownerIndex hostname := by
  refine ⟨fun member => (member.mem_claimedHosts hostname).symm, fun index => ?_, ?_⟩
  · rw [getElem?_routing, List.findIdx?_eq_some_iff_getElem]
    constructor
    · intro hfirst
      obtain ⟨hlt, hclaims, hearlier⟩ := hfirst
      refine ⟨⟨_, List.getElem?_eq_getElem hlt, hclaims⟩, ?_⟩
      intro earlier hless member hmember
      obtain ⟨hbound, rfl⟩ := List.getElem?_eq_some_iff.mp hmember
      exact Bool.eq_false_iff.mpr (hearlier earlier hless)
    · intro hfirst
      obtain ⟨⟨member, hmember, hclaims⟩, hearlier⟩ := hfirst
      obtain ⟨hlt, rfl⟩ := List.getElem?_eq_some_iff.mp hmember
      refine ⟨hlt, hclaims, fun earlier hless => ?_⟩
      have hfree := hearlier earlier hless _ (List.getElem?_eq_getElem (hless.trans hlt))
      exact Bool.eq_false_iff.mp hfree
  · exact getElem?_routing snap hostname

/-! ## Owners -/

theorem ownerIndex_eq (snap : ViewSnapshot) (hostname : String) :
    snap.ownerIndex hostname = snap.members.findIdx? (·.claims hostname) := by
  unfold ownerIndex
  split
  · exact snap.getElem?_routing hostname
  · rfl

theorem isNone_ownerIndex_iff {snap : ViewSnapshot} {hostname : String} :
    (snap.ownerIndex hostname).isNone = true ↔
      ∀ member ∈ snap.members, member.claims hostname = false := by
  rw [ownerIndex_eq, Option.isNone_iff_eq_none, List.findIdx?_eq_none_iff]

theorem lt_of_ownerIndex {snap : ViewSnapshot} {hostname : String} {index : Nat}
    (h : snap.ownerIndex hostname = some index) : index < snap.members.length := by
  rw [ownerIndex_eq, List.findIdx?_eq_some_iff_getElem] at h
  exact h.1

theorem ownerOf_eq (snap : ViewSnapshot) (hostname : String) :
    snap.ownerOf hostname = snap.members.find? (·.claims hostname) := by
  rw [ownerOf, ownerIndex_eq, List.find?_eq_bind_findIdx?_getElem?]

theorem isNone_ownerOf_iff {snap : ViewSnapshot} {hostname : String} :
    (snap.ownerOf hostname).isNone = true ↔
      ∀ member ∈ snap.members, member.claims hostname = false := by
  rw [ownerOf_eq, Option.isNone_iff_eq_none, List.find?_eq_none]
  simp

/-- Whether the table is built changes no answer. -/
theorem serves_built (snap : ViewSnapshot) (built : Bool) (hostname : String) :
    { snap with built }.serves hostname = snap.serves hostname := by
  unfold serves
  rw [ownerOf_eq, ownerOf_eq]

theorem mem_hosts {snap : ViewSnapshot} {hostname : String} :
    hostname ∈ snap.hosts ↔ snap.serves hostname = true := by
  unfold hosts
  rw [List.mem_filter, serves_built, Std.ExtTreeMap.mem_keys, StrMap.mem_iff_exists]
  refine and_iff_right_of_imp fun hserves => ?_
  obtain ⟨owner, howner, _⟩ := (Option.any_eq_true _ _).mp hserves
  obtain ⟨index, hindex, _⟩ := Option.bind_eq_some_iff.mp howner
  rw [ownerIndex_eq, ← getElem?_routing] at hindex
  exact ⟨index, hindex⟩

/-! ## Splitting a list between members -/

/-- Each member that owns some of the hosts with those that it owns. -/
def parts (snap : ViewSnapshot) (hosts : List String) : List (MemberSnapshot × List String) :=
  (List.range snap.members.length).filterMap fun index =>
    let part := hosts.filter fun hostname => snap.ownerIndex hostname = some index
    if part.isEmpty then none else snap.members[index]?.map fun member => (member, part)

/-- What the loop has collected for one member. -/
theorem getElem?_byMember (snap : ViewSnapshot) (hosts : List String) (index : Nat) :
    (snap.byMember hosts)[index]? =
      let part := hosts.filter fun hostname => snap.ownerIndex hostname = some index
      if part.isEmpty then none else some part := by
  unfold byMember
  induction hosts using List.reverseRecOn with
  | nil => exact Std.ExtTreeMap.getElem?_empty
  | append_singleton hosts hostname ih =>
    rw [List.foldl_concat, List.filter_append]
    cases howner : snap.ownerIndex hostname with
    | none => simpa [howner] using ih
    | some owner =>
      rw [Std.ExtTreeMap.getElem?_alter]
      by_cases hsame : owner = index
      · subst hsame
        have hself : compare owner owner = .eq := Nat.compare_eq_eq.mpr rfl
        rw [if_pos hself, ih]
        cases hpart : hosts.filter fun hostname => snap.ownerIndex hostname = some owner with
        | nil => simp [howner]
        | cons first rest => simp [howner]
      · have hne : compare owner index ≠ .eq := by simpa using hsame
        simp [hne, howner, hsame, ih]

/-- The list is refused exactly when it names a host that no member claims;
otherwise every member gets its hosts, in the list's order and as often. -/
theorem route_eq (snap : ViewSnapshot) (hosts : List String) :
    snap.route hosts =
      let unclaimed := hosts.filter fun hostname => (snap.ownerIndex hostname).isNone
      if unclaimed.isEmpty then .ok (snap.parts hosts) else .error ⟨unclaimed⟩ := by
  have howner : (snap.prepareRouting hosts.length).ownerIndex = snap.ownerIndex := by
    funext hostname
    rw [ownerIndex_eq, ownerIndex_eq]
    rfl
  have hparts : (snap.prepareRouting hosts.length).byMember hosts = snap.byMember hosts := by
    rw [byMember, howner, byMember]
  unfold route
  simp only [howner, hparts]
  split
  · congr 1
    rw [NatMap.toList_eq_range (n := snap.members.length), List.filterMap_filterMap]
    · refine List.filterMap_congr fun index _ => ?_
      rw [getElem?_byMember]
      dsimp only
      split
      · rfl
      · rfl
    · intro index hindex
      rw [Std.ExtTreeMap.mem_iff_isSome_getElem?, getElem?_byMember] at hindex
      dsimp only at hindex
      split at hindex
      · cases hindex
      · rename_i hpart
        obtain ⟨hostname, hmem⟩ := List.exists_mem_of_ne_nil _ (mt List.isEmpty_iff.mpr hpart)
        exact lt_of_ownerIndex (of_decide_eq_true (List.mem_filter.mp hmem).2)
  · rfl

end ViewSnapshot

end UnifiedApi

import UnifiedApi.Domain.Source

/-! # Views: several sources read as one

A member's ownership is a pattern resolved against another source's dataset.
The empty pattern is a catch-all. -/

namespace UnifiedApi

structure Ownership where
  /-- The source whose dataset the groups are resolved against. -/
  source : String
  groups : List String := []
  hosts : List String := []
  advertised : Bool := false
  deriving DecidableEq

structure ViewMember where
  source : String
  owns : Ownership
  deriving DecidableEq

structure View where
  members : List ViewMember
  /-- Replaces the members' default TTL. -/
  ttlSeconds : Option Nat := none
  deriving DecidableEq

structure Config where
  sources : StrMap Source := ∅
  views : StrMap View := ∅
  deriving DecidableEq

def Group.lists (group : Group) (hostname : String) : Bool := group.hosts.any (· == hostname)

namespace Dataset

/-- The named group exists and lists the host. -/
def groupLists (dataset : Dataset) (name hostname : String) : Bool :=
  match dataset.groups[name]? with
  | some group => group.lists hostname
  | none => false

/-- The host has variables or is listed in some group. -/
def knows (dataset : Dataset) (hostname : String) : Bool :=
  dataset.hostvars.contains hostname ||
    dataset.groups.toList.any fun group => group.2.lists hostname

end Dataset

namespace Ownership

def isCatchAll (owns : Ownership) : Bool := owns.groups.isEmpty && owns.hosts.isEmpty

def claims (owns : Ownership) (dataset : Dataset) (hostname : String) : Bool :=
  if owns.isCatchAll then dataset.knows hostname
  else owns.hosts.any (· == hostname) || owns.groups.any (dataset.groupLists · hostname)

/-- Every host the member claims, in no particular order. -/
def claimedHosts (owns : Ownership) (dataset : Dataset) : List String :=
  if owns.isCatchAll then
    dataset.hostvars.keys ++ dataset.groups.toList.flatMap fun group => group.2.hosts
  else
    owns.hosts ++ owns.groups.flatMap fun name => match dataset.groups[name]? with
      | some group => group.hosts
      | none => []

/-- The set of claimed hosts is the set form of the question about one. -/
theorem mem_claimedHosts (owns : Ownership) (dataset : Dataset) (hostname : String) :
    hostname ∈ owns.claimedHosts dataset ↔ owns.claims dataset hostname = true := by
  unfold claimedHosts claims
  split
  · simp only [List.mem_append, List.mem_flatMap, Std.ExtTreeMap.mem_keys, Dataset.knows,
      Group.lists, Bool.or_eq_true, List.any_eq_true, beq_iff_eq, Std.ExtTreeMap.contains_iff_mem]
    refine or_congr Iff.rfl ⟨?_, ?_⟩
    · rintro ⟨group, hgroup, hhost⟩
      exact ⟨group, hgroup, hostname, hhost, rfl⟩
    · rintro ⟨group, hgroup, host, hhost, rfl⟩
      exact ⟨group, hgroup, hhost⟩
  · simp only [List.mem_append, List.mem_flatMap, Dataset.groupLists, Group.lists,
      Bool.or_eq_true, List.any_eq_true, beq_iff_eq]
    refine or_congr ⟨fun h => ⟨hostname, h, rfl⟩, ?_⟩ ⟨?_, ?_⟩
    · rintro ⟨host, hhost, rfl⟩
      exact hhost
    · rintro ⟨name, hname, hhost⟩
      refine ⟨name, hname, ?_⟩
      cases hg : dataset.groups[name]? with
      | none => simp [hg] at hhost
      | some group =>
        rw [hg] at hhost
        exact List.any_eq_true.mpr ⟨hostname, hhost, beq_self_eq_true hostname⟩
    · rintro ⟨name, hname, hhost⟩
      refine ⟨name, hname, ?_⟩
      cases hg : dataset.groups[name]? with
      | none => simp [hg] at hhost
      | some group =>
        rw [hg] at hhost
        obtain ⟨host, hmem, heq⟩ := List.any_eq_true.mp hhost
        exact (beq_iff_eq.mp heq) ▸ hmem

end Ownership

namespace View

/-- The union of the members' declared patterns, each name once. An
advertised member's emptiness is no catch-all statement. -/
def advertisedScope (view : View) : ScopeClaim :=
  view.members.foldl (fun claim member =>
    { groups := member.owns.groups.foldl (fun groups group =>
        if groups.contains group then groups else groups ++ [group]) claim.groups
      hosts := member.owns.hosts.foldl (fun hosts host =>
        if hosts.contains host then hosts else hosts ++ [host]) claim.hosts
      catchAll := claim.catchAll || (member.owns.isCatchAll && !member.owns.advertised) })
    ⟨[], [], false⟩

def memberIds (view : View) : List String := view.members.map (·.source)

end View

end UnifiedApi

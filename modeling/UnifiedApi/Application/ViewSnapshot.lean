import Mathlib.Data.List.Sort
import Mathlib.Data.String.Basic
import UnifiedApi.Application.Views
import UnifiedApi.Lib.Text

/-! # What a view snapshot answers

Routing, selection and the members' data put together. The routing table is
built at most once for each snapshot; until then the members are asked. -/

namespace UnifiedApi

/-- Sorted, each name once. -/
def sortNames (names : List String) : List String := (names.insertionSort (· ≤ ·)).dedup

/-- The member's data has the host. -/
def MemberSnapshot.has (member : MemberSnapshot) (hostname : String) : Bool :=
  member.entry.any (·.dataset.hostvars.contains hostname)

/-- A snapshot, and whether its routing table has been built. -/
structure ViewSnapshot where
  members : List MemberSnapshot
  built : Bool := false

/-- Hosts that no member claims. -/
structure UnclaimedHosts where
  hosts : List String
  deriving DecidableEq

namespace ViewSnapshot

/-- The first member to claim a host keeps it. -/
def routing (snap : ViewSnapshot) : StrMap Nat :=
  snap.members.zipIdx.foldl (fun routing (member, index) =>
    member.claimedHosts.foldl (fun routing hostname =>
      if routing.contains hostname then routing else routing.insert hostname index) routing) ∅

def routingTableWorthIt : Nat := 16

def prepareRouting (snap : ViewSnapshot) (hostsInQuestion : Nat) : ViewSnapshot :=
  { snap with built := snap.built || decide (routingTableWorthIt < hostsInQuestion) }

def ownerIndex (snap : ViewSnapshot) (hostname : String) : Option Nat :=
  if snap.built then snap.routing[hostname]?
  else snap.members.findIdx? (·.claims hostname)

def ownerOf (snap : ViewSnapshot) (hostname : String) : Option MemberSnapshot :=
  (snap.ownerIndex hostname).bind fun index => snap.members[index]?

/-- The owner has the host. -/
def serves (snap : ViewSnapshot) (hostname : String) : Bool :=
  (snap.ownerOf hostname).any (·.has hostname)

/-- Every host the view serves. The table is built for it. -/
def hosts (snap : ViewSnapshot) : List String :=
  snap.routing.keys.filter { snap with built := true }.serves

/-- The named hosts that some member owns and has, whom the members' groups of
that name list, or every host. A named host that no member claims is an error. -/
def select (snap : ViewSnapshot) (host group : Option String) :
    Except UnclaimedHosts (List String) :=
  match host, group with
  | some host, _ =>
    let names := Text.commaNames host
    let unclaimed := names.filter fun name => (snap.ownerOf name).isNone
    if unclaimed.isEmpty then .ok (sortNames (names.filter snap.serves)) else .error ⟨unclaimed⟩
  | none, some group => .ok <| sortNames <| snap.members.flatMap fun member =>
      (member.entry.bind fun entry => entry.dataset.groups[group]?).elim [] (·.hosts)
  | none, none => .ok (sortNames snap.hosts)

/-- The hosts by the index of the member that owns them. -/
def byMember (snap : ViewSnapshot) (hosts : List String) : Std.ExtTreeMap Nat (List String) :=
  hosts.foldl (fun byMember hostname => match snap.ownerIndex hostname with
    | some index => byMember.alter index fun part => some (part.getD [] ++ [hostname])
    | none => byMember) ∅

/-- The hosts by the member that owns them, in declared order. -/
def route (snap : ViewSnapshot) (hosts : List String) :
    Except UnclaimedHosts (List (MemberSnapshot × List String)) :=
  let snap := snap.prepareRouting hosts.length
  let unclaimed := hosts.filter fun hostname => (snap.ownerIndex hostname).isNone
  if unclaimed.isEmpty then
    .ok ((snap.byMember hosts).toList.filterMap fun (index, hosts) =>
      snap.members[index]?.map fun member => (member, hosts))
  else .error ⟨unclaimed⟩

/-- The selected hosts' variables, each taken from its owner. -/
def hostvars (snap : ViewSnapshot) (selection : List String) : StrMap HostVars :=
  let snap := snap.prepareRouting selection.length
  selection.foldl (fun hostvars hostname =>
    match (snap.ownerOf hostname).bind fun owner =>
        owner.entry.bind fun entry => entry.dataset.hostvars[hostname]? with
    | some vars => hostvars.insert hostname vars
    | none => hostvars) ∅

/-- Same-named groups of two members as one; the first member's vars win. -/
def mergeGroup (target group : Group) : Group :=
  { hosts := target.hosts ++ group.hosts
    children := target.children ++ group.children
    vars := target.vars.or group.vars }

/-- One group namespace for the whole view. -/
def groups (snap : ViewSnapshot) : StrMap Group :=
  let merged : StrMap Group := snap.members.foldl (fun merged member => match member.entry with
    | none => merged
    | some entry => entry.dataset.groups.foldl (fun (merged : StrMap Group) name group =>
        merged.alter name fun target => some (mergeGroup (target.getD {}) group)) merged) ∅
  merged.map fun _ group =>
    { group with hosts := sortNames group.hosts, children := sortNames group.children }

/-- As old as the stalest member that is cached. -/
def ageSeconds (snap : ViewSnapshot) (now : Nat) : Nat :=
  ((snap.members.filterMap (·.entry)).map (·.ageSeconds now)).foldl max 0

def isFresh (snap : ViewSnapshot) (now : Nat) : Bool :=
  !snap.members.isEmpty && snap.members.all fun member => member.entry.any (·.isFresh now)

/-- The view's TTL, else the loosest of the members'. -/
def ttlSeconds (snap : ViewSnapshot) (view : View) : Nat :=
  view.ttlSeconds.getD ((snap.members.map (·.defaultTtl view)).foldl max 0)

/-- The view as one dataset. -/
def dataset (snap : ViewSnapshot) (selection : List String) : Dataset :=
  { hostvars := snap.hostvars selection, groups := snap.groups, removeHosts := [] }

end ViewSnapshot

end UnifiedApi

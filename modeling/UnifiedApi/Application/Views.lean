import UnifiedApi.Domain.View
import UnifiedApi.Cache.MemoryCache

/-! # Reading a view

A snapshot of a view looks up, once, what each member's routing and data need.
A host belongs to the first member that claims it. -/

namespace UnifiedApi

/-- How a member's ownership pattern was determined. -/
inductive OwnershipMode where
  | declared | advertised | fallback | unknown
  deriving DecidableEq

structure MemberSnapshot where
  sourceId : String
  source : Option Source
  /-- The member's data; `none` when it has never synced. -/
  entry : Option CacheEntry
  /-- What the ownership pattern resolves against. -/
  ownership : Option CacheEntry
  /-- `none` claims nothing. -/
  owns : Option Ownership
  ownershipMode : OwnershipMode
  deriving DecidableEq

/-- The pattern a member routes by: the declared one, else the member
source's own claim, else the last claim its syncs fetched, else the declared
one as a fallback. -/
def effectiveOwnership (member : ViewMember) (source : Option Source)
    (scopes : AdvertisedScopeRegistry) : Option Ownership × OwnershipMode :=
  if !member.owns.advertised then (some member.owns, .declared)
  else
    match (source.bind (·.advertisedScope)).or (scopes.get member.source) with
    | some claim =>
      (some { source := member.owns.source, groups := claim.groups, hosts := claim.hosts
              advertised := true }, .advertised)
    | none =>
      if !member.owns.groups.isEmpty || !member.owns.hosts.isEmpty then
        (some { member.owns with advertised := false }, .fallback)
      else (none, .unknown)

/-- One member of the snapshot. -/
def memberSnapshot (cache : MemoryCache) (sources : StrMap Source)
    (scopes : AdvertisedScopeRegistry) (member : ViewMember) : MemberSnapshot :=
  let (owns, ownershipMode) := effectiveOwnership member sources[member.source]? scopes
  { sourceId := member.source
    source := sources[member.source]?
    entry := cache.get member.source
    ownership := cache.get member.owns.source
    owns, ownershipMode }

/-- The members in declared order. -/
def snapshot (cache : MemoryCache) (sources : StrMap Source) (scopes : AdvertisedScopeRegistry)
    (view : View) : List MemberSnapshot :=
  view.members.map (memberSnapshot cache sources scopes)

namespace MemberSnapshot

/-- Without the inventory only the hosts named literally are claimed. -/
def claims (member : MemberSnapshot) (hostname : String) : Bool :=
  match member.owns with
  | none => false
  | some owns => match member.ownership with
    | some entry => owns.claims entry.dataset hostname
    | none => owns.hosts.any (· == hostname)

def claimedHosts (member : MemberSnapshot) : List String :=
  match member.owns with
  | none => []
  | some owns => match member.ownership with
    | some entry => owns.claimedHosts entry.dataset
    | none => owns.hosts

/-- The view's TTL, else the member's own. -/
def defaultTtl (member : MemberSnapshot) (view : View) : Nat :=
  ((view.ttlSeconds.or (member.entry.map fun entry => Clock.asSecs entry.ttl)).or
    (member.source.map (·.ttlSeconds))).getD 0

def groupTtls (member : MemberSnapshot) : StrMap Nat :=
  match member.source, member.entry with
  | some source, some entry => source.groupTtlByHost entry.dataset
  | _, _ => ∅

/-- A view's TTL replaces the default, not the member's overrides. -/
def effectiveTtl (member : MemberSnapshot) (view : View) (hostname : String)
    (groupTtls : StrMap Nat) : Nat :=
  let fallback := member.defaultTtl view
  match member.source with
  | some source => source.effectiveTtl hostname groupTtls fallback
  | none => fallback

theorem mem_claimedHosts (member : MemberSnapshot) (hostname : String) :
    hostname ∈ member.claimedHosts ↔ member.claims hostname = true := by
  unfold claimedHosts claims
  cases member.owns with
  | none => simp
  | some owns =>
    cases member.ownership with
    | some entry => exact owns.mem_claimedHosts entry.dataset hostname
    | none =>
      dsimp only
      rw [List.any_eq_true]
      constructor
      · intro h
        exact ⟨hostname, h, beq_self_eq_true hostname⟩
      · intro h
        obtain ⟨host, hmem, heq⟩ := h
        exact (beq_iff_eq.mp heq) ▸ hmem

end MemberSnapshot

end UnifiedApi

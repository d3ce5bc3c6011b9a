import UnifiedApi.Application.Views
import UnifiedApi.Connectors.Remote

/-! # An ownership claim on its way from one instance to another

An origin advertises what a source or view owns; a federating instance fetches
it with each sync and its views route by it. The claim travels as two lists
and a flag; a member routes by a pattern whose emptiness is the flag. -/

namespace UnifiedApi

/-- A sync records a claim it fetched and keeps the last one otherwise. -/
def recordFetched (scopes : AdvertisedScopeRegistry) (sourceId : String)
    (claim : Option ScopeClaim) : AdvertisedScopeRegistry :=
  match claim with
  | some claim => scopes.record sourceId claim
  | none => scopes

/-- What an instance's configuration says the id owns. -/
def advertisedBy (config : Config) (id : String) : Option ScopeClaim :=
  match config.views[id]? with
  | some view => some view.advertisedScope
  | none => config.sources[id]?.bind (·.advertisedScope)

/-- The route and the fetch carry the claim as it is. -/
theorem fetchScope_sourceScope (origin : Config) {permissions : Permissions} {id : String}
    (hallowed : permissions.allowsSource id = true) :
    fetchScope (sourceScope origin permissions id) = advertisedBy origin id := by
  unfold sourceScope advertisedBy
  rw [hallowed]
  cases hview : origin.views[id]? with
  | some view => rfl
  | none =>
    cases hsource : origin.sources[id]? with
    | none => rfl
    | some source =>
      cases hclaim : source.advertisedScope with
      | some claim => simp [fetchScope, hclaim]
      | none => simp [fetchScope, hclaim]

namespace ScopeClaim

/-- A host the claim names, itself or through one of its groups. -/
def Lists (claim : ScopeClaim) (dataset : Dataset) (hostname : String) : Prop :=
  hostname ∈ claim.hosts ∨ ∃ group ∈ claim.groups, dataset.groupLists group hostname = true

def isEmpty (claim : ScopeClaim) : Bool := claim.groups.isEmpty && claim.hosts.isEmpty

theorem not_lists_of_isEmpty {claim : ScopeClaim} (h : claim.isEmpty = true) (dataset : Dataset)
    (hostname : String) : ¬ claim.Lists dataset hostname := by
  rw [isEmpty, Bool.and_eq_true, List.isEmpty_iff, List.isEmpty_iff] at h
  obtain ⟨hgroups, hhosts⟩ := h
  intro hlists
  rcases hlists with hhost | ⟨group, hgroup, _⟩
  · rw [hhosts] at hhost
    cases hhost
  · rw [hgroups] at hgroup
    cases hgroup

end ScopeClaim

/-- The ways a claim reaches a view member that routes by advertisement: from
the member source's own configuration, or from the origin of a remote source
that makes no claim of its own. -/
inductive ClaimReaches (claim : ScopeClaim) (sources : StrMap Source)
    (scopes : AdvertisedScopeRegistry) (member : ViewMember) : Prop
  | configured (h : sources[member.source]?.bind (·.advertisedScope) = some claim)
  | fetched (origin : Config) (permissions : Permissions) (id : String)
      (before : AdvertisedScopeRegistry)
      (hallowed : permissions.allowsSource id = true)
      (hclaim : advertisedBy origin id = some claim)
      (hlocal : sources[member.source]?.bind (·.advertisedScope) = none)
      (hscopes : scopes =
        recordFetched before member.source (fetchScope (sourceScope origin permissions id)))

/-- The member claims what the claim says: every host the ownership dataset
knows when it is a catch-all, otherwise exactly the hosts it lists. -/
def RoutesByClaim (claim : ScopeClaim) (dataset : Dataset) (member : MemberSnapshot) : Prop :=
  (claim.catchAll = true → ∀ hostname, dataset.knows hostname = true →
    member.claims hostname = true) ∧
  (claim.catchAll = false → ∀ hostname, member.claims hostname = true ↔
    claim.Lists dataset hostname)

/-- The flag and the lists say the same: a catch-all comes with empty lists
or lists that cover the dataset anyway, empty lists with the flag or an empty
dataset. -/
def ClaimUnambiguous (claim : ScopeClaim) (dataset : Dataset) : Prop :=
  if claim.catchAll then
    claim.isEmpty = true ∨ ∀ hostname, dataset.knows hostname = true → claim.Lists dataset hostname
  else claim.isEmpty = false ∨ ∀ hostname, dataset.knows hostname = false

theorem effectiveOwnership_of_reaches {claim : ScopeClaim} {sources : StrMap Source}
    {scopes : AdvertisedScopeRegistry} {member : ViewMember}
    (hadvertised : member.owns.advertised = true)
    (h : ClaimReaches claim sources scopes member) :
    effectiveOwnership member sources[member.source]? scopes =
      (some { source := member.owns.source, groups := claim.groups, hosts := claim.hosts
              advertised := true }, .advertised) := by
  have hclaim : (sources[member.source]?.bind (·.advertisedScope)).or (scopes.get member.source) =
      some claim := by
    cases h with
    | configured h => rw [h, Option.some_or]
    | fetched origin permissions id before hallowed hclaim hlocal hscopes =>
      rw [hlocal, hscopes, fetchScope_sourceScope origin hallowed, hclaim, Option.none_or]
      exact (AdvertisedScopeRegistry.get_record before member.source member.source claim).trans
        (if_pos rfl)
  unfold effectiveOwnership
  rw [hadvertised, hclaim]
  rfl

theorem effectiveOwnership_unknown {member : ViewMember} {source : Option Source}
    {scopes : AdvertisedScopeRegistry}
    (h : (effectiveOwnership member source scopes).2 = .unknown) :
    (effectiveOwnership member source scopes).1 = none := by
  unfold effectiveOwnership at h ⊢
  split at h
  · cases h
  · rename_i hadvertised
    rw [if_neg hadvertised]
    split at h
    · cases h
    · split at h
      · cases h
      · rename_i hfallback
        rw [if_neg hfallback]

/-- What an advertised member claims, by the emptiness of the claim's lists. -/
theorem claims_of_reaches {claim : ScopeClaim} {sources : StrMap Source}
    {scopes : AdvertisedScopeRegistry} {member : ViewMember} {cache : MemoryCache}
    {inventory : CacheEntry} (hadvertised : member.owns.advertised = true)
    (h : ClaimReaches claim sources scopes member)
    (hinventory : cache.get member.owns.source = some inventory) (hostname : String) :
    (memberSnapshot cache sources scopes member).claims hostname = true ↔
      if claim.isEmpty then inventory.dataset.knows hostname = true
      else claim.Lists inventory.dataset hostname := by
  unfold memberSnapshot
  rw [effectiveOwnership_of_reaches hadvertised h]
  simp only [MemberSnapshot.claims, hinventory, Ownership.claims, Ownership.isCatchAll]
  change (if claim.isEmpty = true then _ else _) = true ↔ _
  cases claim.isEmpty with
  | true => rfl
  | false =>
    simp only [Bool.false_eq_true, if_false, Bool.or_eq_true, List.any_eq_true, beq_iff_eq,
      ScopeClaim.Lists, exists_eq_right]

/-- A claim means the same at both ends exactly when its flag and its lists do
not contradict each other; a member with no known claim claims no host. -/
theorem routesByClaim_iff (sources : StrMap Source) (scopes : AdvertisedScopeRegistry)
    (cache : MemoryCache) (member : ViewMember) (hadvertised : member.owns.advertised = true) :
    (∀ claim inventory, ClaimReaches claim sources scopes member →
      cache.get member.owns.source = some inventory →
      (RoutesByClaim claim inventory.dataset (memberSnapshot cache sources scopes member) ↔
        ClaimUnambiguous claim inventory.dataset)) ∧
    ((memberSnapshot cache sources scopes member).ownershipMode = .unknown →
      ∀ hostname, (memberSnapshot cache sources scopes member).claims hostname = false) := by
  constructor
  · intro claim inventory hreaches hinventory
    have hclaims := claims_of_reaches hadvertised hreaches hinventory
    unfold RoutesByClaim ClaimUnambiguous
    simp only [hclaims]
    cases hflag : claim.catchAll with
    | true =>
      simp only [forall_true_left, Bool.true_eq_false, false_implies, and_true, if_true]
      cases hempty : claim.isEmpty with
      | true => simp
      | false => simp
    | false =>
      simp only [Bool.false_eq_true, false_implies, true_and, if_false, forall_true_left]
      cases hempty : claim.isEmpty with
      | false => simp
      | true =>
        simp only [if_true, Bool.true_eq_false, false_or]
        refine forall_congr' fun hostname => ?_
        have hfree := ScopeClaim.not_lists_of_isEmpty hempty inventory.dataset hostname
        rw [iff_false_right hfree, Bool.not_eq_true]
  · intro hunknown hostname
    have howns : (memberSnapshot cache sources scopes member).owns = none :=
      effectiveOwnership_unknown hunknown
    unfold MemberSnapshot.claims
    rw [howns]

/-- An origin view whose first member owns one group and whose last takes the
rest: it advertises the group and the catch-all flag. -/
def originView : Config :=
  { views := (∅ : StrMap View).insert "facts"
      { members := [⟨"src-dc1", { source := "inv", groups := ["dc1"] }⟩,
          ⟨"src-rest", { source := "inv" }⟩] } }

def restClaim : ScopeClaim := ⟨["dc1"], [], true⟩

def centralMember : ViewMember := ⟨"src-edge", { source := "inv", advertised := true }⟩

/-- The central's inventory knows two hosts, one of them in `dc1`. -/
def centralCache : MemoryCache := MemoryCache.set {} "inv"
  (.new { hostvars := ((∅ : StrMap HostVars).insert "a" ∅).insert "b" ∅
          groups := (∅ : StrMap Group).insert "dc1" { hosts := ["a"] } } 60 0)

def centralScopes : AdvertisedScopeRegistry :=
  recordFetched ∅ "src-edge" (fetchScope (sourceScope originView .admin "facts"))

theorem restClaim_reaches : ClaimReaches restClaim ∅ centralScopes centralMember :=
  .fetched originView .admin "facts" ∅ rfl (by decide) (by decide) rfl

theorem centralMember_routesByClaim :
    (∀ claim inventory, ClaimReaches claim ∅ centralScopes centralMember →
      centralCache.get centralMember.owns.source = some inventory →
      (RoutesByClaim claim inventory.dataset
          (memberSnapshot centralCache ∅ centralScopes centralMember) ↔
        ClaimUnambiguous claim inventory.dataset)) ∧
    ((memberSnapshot centralCache ∅ centralScopes centralMember).ownershipMode = .unknown →
      ∀ hostname,
        (memberSnapshot centralCache ∅ centralScopes centralMember).claims hostname = false) :=
  routesByClaim_iff ∅ centralScopes centralCache centralMember rfl

/-- The origin says "everything", and the central routes only `dc1` by it. -/
theorem restClaim_not_routed :
    ClaimReaches restClaim ∅ centralScopes centralMember ∧
    ∃ inventory, centralCache.get centralMember.owns.source = some inventory ∧
      ¬ RoutesByClaim restClaim inventory.dataset
        (memberSnapshot centralCache ∅ centralScopes centralMember) := by
  refine ⟨restClaim_reaches,
    .new { hostvars := ((∅ : StrMap HostVars).insert "a" ∅).insert "b" ∅,
           groups := (∅ : StrMap Group).insert "dc1" { hosts := ["a"] } } 60 0,
    by decide, fun h => ?_⟩
  have hclaimed := h.1 rfl "b" (by decide)
  exact absurd hclaimed (by decide)

end UnifiedApi

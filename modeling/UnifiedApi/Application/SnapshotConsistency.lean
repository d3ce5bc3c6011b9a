import UnifiedApi.Application.SnapshotReads
import UnifiedApi.Cache.Writes
import UnifiedApi.Lib.KeyedCount
import UnifiedApi.Lib.Runs

/-! # A view snapshot under writes

The snapshot asks the cache twice for each member, and a source may be asked
for several times: as a member's data and as what any number of members
resolve their ownership against. Writes land between any two of the lookups. -/

namespace UnifiedApi

/-- What one lookup asked for and found. -/
structure SnapshotUse where
  id : String
  /-- How many writes to the id had landed since the snapshot began. -/
  version : Nat
  entry : Option CacheEntry

/-- A snapshot being taken, with the history of the cache since it began. -/
structure SnapshotRun where
  cache : MemoryCache
  lookup : SnapshotLookup
  /-- Every version of the cache. -/
  held : List (StrMap CacheEntry)
  /-- The keys written, one for each write. -/
  written : List String := []
  uses : List SnapshotUse := []

inductive SnapshotStep where
  | write (write : CacheWrite)
  | lookup

namespace SnapshotLookup

/-- The ids that are still to be asked for. -/
def pending (lookup : SnapshotLookup) : List String :=
  match lookup.rest with
  | [] => []
  | member :: rest =>
    (match lookup.stage with
      | .scope | .entry .. => [member.source, member.owns.source]
      | .ownership .. => [member.owns.source]) ++
      rest.flatMap fun member => [member.source, member.owns.source]

theorem asks_mem_pending {lookup : SnapshotLookup} {id : String} (h : lookup.asks = some id) :
    id ∈ lookup.pending := by
  obtain ⟨sources, rest, stage, members⟩ := lookup
  cases rest with
  | nil => cases h
  | cons member rest =>
    cases stage with
    | scope => cases h
    | entry | ownership =>
      obtain rfl := Option.some.inj h
      simp [pending]

theorem pending_next {cache : MemoryCache} {scopes : AdvertisedScopeRegistry}
    {lookup : SnapshotLookup} {id : String} (h : id ∈ (lookup.next cache scopes).pending) :
    id ∈ lookup.pending := by
  obtain ⟨sources, rest, stage, members⟩ := lookup
  cases rest with
  | nil => exact h
  | cons member rest =>
    cases stage with
    | scope => exact h
    | entry => exact List.mem_cons_of_mem _ h
    | ownership =>
      refine List.mem_append_right _ ?_
      cases rest with
      | nil => simp [next, pending] at h
      | cons member' rest => simpa [next, pending] using h

end SnapshotLookup

namespace SnapshotRun

def version (s : SnapshotRun) (id : String) : Nat := s.written.count id

/-- A write that changed the store. -/
def wrote (s : SnapshotRun) (write : CacheWrite) (store : StrMap CacheEntry) : SnapshotRun :=
  { s with
    cache := write.run s.cache
    held := s.held ++ [store]
    written := s.written ++ [write.key] }

/-- The use the next lookup makes, if it asks the cache. -/
def nextUse (s : SnapshotRun) : List SnapshotUse :=
  (s.lookup.asks.map fun id =>
    { id, version := s.version id, entry := s.cache.get id : SnapshotUse }).toList

def looked (scopes : AdvertisedScopeRegistry) (s : SnapshotRun) : SnapshotRun :=
  { s with
    lookup := s.lookup.next s.cache scopes
    uses := s.uses ++ s.nextUse }

def step (scopes : AdvertisedScopeRegistry) (s : SnapshotRun) : SnapshotStep → Option SnapshotRun
  | .write write => match write.store s.cache with
    | some store => some (s.wrote write store)
    | none => some s
  | .lookup => some (s.looked scopes)

def start (cache : MemoryCache) (sources : StrMap Source) (view : View) : SnapshotRun where
  cache := cache
  lookup := { sources, rest := view.members }
  held := [cache.store]

/-- A write does not change an id the snapshot has used and will use again. -/
def Spares (s : SnapshotRun) : SnapshotStep → Prop
  | .write write => (write.store s.cache).isSome = true →
      write.key ∈ s.uses.map (·.id) → write.key ∉ s.lookup.pending
  | .lookup => True

/-! ## Versions -/

/-- What the uses say of the cache: each is of a version it held, of the
current one while the id is still to be asked for, and uses of one id are of
one version. -/
structure UsesInv (s : SnapshotRun) : Prop where
  held : ∀ use ∈ s.uses, ∃ store ∈ s.held, use.entry = store[use.id]?
  current : ∀ use ∈ s.uses, use.version = s.version use.id → use.entry = s.cache.get use.id
  pending : ∀ use ∈ s.uses, use.id ∈ s.lookup.pending → use.version = s.version use.id
  le : ∀ use ∈ s.uses, use.version ≤ s.version use.id
  same : ∀ use ∈ s.uses, ∀ use' ∈ s.uses, use.id = use'.id →
    use.version = use'.version ∧ use.entry = use'.entry

theorem version_wrote (s : SnapshotRun) (write : CacheWrite) (store : StrMap CacheEntry)
    (id : String) : (s.wrote write store).version id =
      if write.key = id then s.version id + 1 else s.version id := by
  unfold version wrote
  rw [List.count_append]
  by_cases hkey : write.key = id <;> simp [hkey]

theorem wrote_usesInv {s : SnapshotRun} (h : s.UsesInv) {write : CacheWrite}
    {store : StrMap CacheEntry} (hstore : write.store s.cache = some store)
    (hspares : s.Spares (.write write)) : (s.wrote write store).UsesInv where
  held use huse := by
    obtain ⟨old, hold, hentry⟩ := h.held use huse
    exact ⟨old, List.mem_append_left _ hold, hentry⟩
  current use huse hversion := by
    have hle := h.le use huse
    rw [version_wrote] at hversion
    split at hversion
    · omega
    · rename_i hkey
      rw [h.current use huse hversion, MemoryCache.get, MemoryCache.get, wrote,
        CacheWrite.run_of_store hstore, CacheWrite.store_of_ne hstore (Ne.symm hkey)]
  pending use huse hpending := by
    rw [version_wrote, if_neg]
    · exact h.pending use huse hpending
    · intro hkey
      refine hspares (by rw [hstore]; rfl) ?_ (hkey ▸ hpending)
      exact List.mem_map.mpr ⟨use, huse, hkey.symm⟩
  le use huse := by
    have hle := h.le use huse
    rw [version_wrote]
    split <;> omega
  same := h.same

/-- One more lookup finds the current version, like every earlier use of its
id. -/
theorem looked_usesInv {s : SnapshotRun} (h : s.UsesInv) (hheld : s.cache.store ∈ s.held)
    (scopes : AdvertisedScopeRegistry) : (s.looked scopes).UsesInv := by
  have hnew : ∀ use ∈ s.nextUse, use.id ∈ s.lookup.pending ∧
      use.version = s.version use.id ∧ use.entry = s.cache.get use.id := by
    intro use huse
    rw [nextUse, Option.mem_toList, Option.map_eq_some_iff] at huse
    obtain ⟨id, hasks, rfl⟩ := huse
    exact ⟨SnapshotLookup.asks_mem_pending hasks, rfl, rfl⟩
  have hcurrent : ∀ use ∈ s.uses, use.id ∈ s.lookup.pending →
      use.version = s.version use.id ∧ use.entry = s.cache.get use.id := fun use huse hpending =>
    ⟨h.pending use huse hpending, h.current use huse (h.pending use huse hpending)⟩
  refine ⟨?_, ?_, ?_, ?_, ?_⟩
  · intro use huse
    rcases List.mem_append.mp huse with hold | hadded
    · exact h.held use hold
    · exact ⟨s.cache.store, hheld, (hnew use hadded).2.2⟩
  · intro use huse hversion
    rcases List.mem_append.mp huse with hold | hadded
    · exact h.current use hold hversion
    · exact (hnew use hadded).2.2
  · intro use huse hpending
    rcases List.mem_append.mp huse with hold | hadded
    · exact h.pending use hold (SnapshotLookup.pending_next hpending)
    · exact (hnew use hadded).2.1
  · intro use huse
    rcases List.mem_append.mp huse with hold | hadded
    · exact h.le use hold
    · exact le_of_eq (hnew use hadded).2.1
  · intro use huse use' huse' hid
    rcases List.mem_append.mp huse with hold | hadded <;>
      rcases List.mem_append.mp huse' with hold' | hadded'
    · exact h.same use hold use' hold' hid
    · obtain ⟨hpending, hversion', hentry'⟩ := hnew use' hadded'
      obtain ⟨hversion, hentry⟩ := hcurrent use hold (hid ▸ hpending)
      rw [hversion, hversion', hentry, hentry', hid]
      exact ⟨rfl, rfl⟩
    · obtain ⟨hpending, hversion, hentry⟩ := hnew use hadded
      obtain ⟨hversion', hentry'⟩ := hcurrent use' hold' (hid ▸ hpending)
      rw [hversion, hversion', hentry, hentry', hid]
      exact ⟨rfl, rfl⟩
    · obtain ⟨_, hversion, hentry⟩ := hnew use hadded
      obtain ⟨_, hversion', hentry'⟩ := hnew use' hadded'
      rw [hversion, hversion', hentry, hentry', hid]
      exact ⟨rfl, rfl⟩

/-! ## What the members were built from -/

section Members
variable (sources : StrMap Source) (scopes : AdvertisedScopeRegistry)

/-- The member was looked up: its data and what its ownership resolves against
are uses of their ids. -/
structure ReadFrom (uses : List SnapshotUse) (member : ViewMember) (read : MemberSnapshot) :
    Prop where
  pattern : (read.owns, read.ownershipMode) =
    effectiveOwnership member sources[member.source]? scopes
  entry : ∃ use ∈ uses, use.id = member.source ∧ use.entry = read.entry
  ownership : ∃ use ∈ uses, use.id = member.owns.source ∧ use.entry = read.ownership

/-- What the member's lookups have found so far. -/
def StageRead (uses : List SnapshotUse) (member : ViewMember) : LookupStage → Prop
  | .scope => True
  | .entry owns mode => (owns, mode) = effectiveOwnership member sources[member.source]? scopes
  | .ownership owns mode entry =>
    (owns, mode) = effectiveOwnership member sources[member.source]? scopes ∧
      ∃ use ∈ uses, use.id = member.source ∧ use.entry = entry

structure MembersInv (view : View) (s : SnapshotRun) : Prop where
  config : s.lookup.sources = sources
  stage : ∀ member ∈ s.lookup.rest.head?, StageRead sources scopes s.uses member s.lookup.stage
  done : ∃ done, view.members = done ++ s.lookup.rest ∧
    List.Forall₂ (ReadFrom sources scopes s.uses) done s.lookup.members

variable {sources scopes}

theorem ReadFrom.mono {uses more : List SnapshotUse} {member : ViewMember} {read : MemberSnapshot}
    (h : ReadFrom sources scopes uses member read) :
    ReadFrom sources scopes (uses ++ more) member read := by
  obtain ⟨hpattern, ⟨use, huse, hentry⟩, use', huse', hownership⟩ := h
  exact ⟨hpattern, ⟨use, List.mem_append_left _ huse, hentry⟩, use', List.mem_append_left _ huse',
    hownership⟩

theorem looked_membersInv {view : View} {s : SnapshotRun} (h : s.MembersInv sources scopes view) :
    (s.looked scopes).MembersInv sources scopes view := by
  obtain ⟨cache, ⟨sources', rest, stage, members⟩, held, written, uses⟩ := s
  obtain ⟨hsources, hstage, done, hview, hread⟩ := h
  dsimp only at hsources hstage hview hread
  subst hsources
  cases rest with
  | nil =>
    exact ⟨rfl, nofun, done, hview, hread.imp fun _ _ => .mono⟩
  | cons member rest =>
    have hhead := hstage member rfl
    cases stage with
    | scope =>
      refine ⟨rfl, ?_, done, hview, hread.imp fun _ _ => .mono⟩
      intro member' hmember'
      obtain rfl := Option.some.inj hmember'
      rfl
    | entry owns mode =>
      refine ⟨rfl, ?_, done, hview, hread.imp fun _ _ => .mono⟩
      intro member' hmember'
      obtain rfl := Option.some.inj hmember'
      exact ⟨hhead, _, List.mem_append_right _ (List.mem_singleton.mpr rfl), rfl, rfl⟩
    | ownership owns mode entry =>
      obtain ⟨hpattern, use, huse, hid, hentry⟩ := hhead
      refine ⟨rfl, fun _ _ => trivial, done ++ [member], ?_, ?_⟩
      · rw [hview, List.append_assoc, List.singleton_append]
        rfl
      · refine List.rel_append (hread.imp fun _ _ => .mono) ?_
        refine .cons ⟨hpattern, ⟨use, List.mem_append_left _ huse, hid, hentry⟩, ?_⟩ .nil
        exact ⟨_, List.mem_append_right _ (List.mem_singleton.mpr rfl), rfl, rfl⟩

end Members

/-! ## Who owns a host -/

section Owners
variable (sources : StrMap Source) (scopes : AdvertisedScopeRegistry) (view : View)
  (hostname : String)

/-- Whether the member claims the host, by what its ownership resolves
against. -/
def memberClaims (member : ViewMember) (ownership : Option CacheEntry) : Bool :=
  match (effectiveOwnership member sources[member.source]? scopes).1, ownership with
  | none, _ => false
  | some owns, some entry => owns.claims entry.dataset hostname
  | some owns, none => owns.hosts.any (· == hostname)

theorem claims_of_owns {read : MemberSnapshot} {member : ViewMember}
    (howns : read.owns = (effectiveOwnership member sources[member.source]? scopes).1) :
    read.claims hostname = memberClaims sources scopes hostname member read.ownership := by
  unfold memberClaims MemberSnapshot.claims
  rw [← howns]
  cases read.owns <;> cases read.ownership <;> rfl

/-- How many members of an undisturbed snapshot claim the host. -/
def owners (store : StrMap CacheEntry) : Nat :=
  (snapshot { store } sources scopes view).countP (·.claims hostname)

theorem owners_eq_total (store : StrMap CacheEntry) :
    owners sources scopes view hostname store =
      KeyedCount.total view.members (·.owns.source) (memberClaims sources scopes hostname)
        fun id => store[id]? := by
  unfold owners snapshot KeyedCount.total
  rw [List.countP_map]
  refine List.countP_congr fun member _ => ?_
  rw [Function.comp_apply, claims_of_owns sources scopes hostname rfl]
  rfl

/-- The versions the cache has held give each id the same share of the owners
of a host, if the host had one owner in each. -/
structure HistoryInv (s : SnapshotRun) : Prop where
  current : s.cache.store ∈ s.held
  shares : ∀ hostname, (∀ store ∈ s.held, owners sources scopes view hostname store = 1) →
    ∀ store ∈ s.held, ∀ id,
      KeyedCount.share view.members (·.owns.source) (memberClaims sources scopes hostname) id
          store[id]? =
        KeyedCount.share view.members (·.owns.source) (memberClaims sources scopes hostname) id
          (s.cache.get id)

variable {sources scopes view hostname}

theorem ReadFrom.claims {uses : List SnapshotUse} {member : ViewMember} {read : MemberSnapshot}
    (h : ReadFrom sources scopes uses member read) :
    read.claims hostname = memberClaims sources scopes hostname member read.ownership :=
  claims_of_owns sources scopes hostname (congrArg Prod.fst h.pattern)

/-- A write changes one id, and the number of owners not at all. -/
theorem wrote_historyInv {s : SnapshotRun} (h : s.HistoryInv sources scopes view)
    {write : CacheWrite} {store : StrMap CacheEntry} (hstore : write.store s.cache = some store) :
    (s.wrote write store).HistoryInv sources scopes view where
  current := by
    rw [wrote, CacheWrite.run_of_store hstore]
    exact List.mem_append_right _ (List.mem_singleton.mpr rfl)
  shares hostname hone old hold id := by
    have hcache : (s.wrote write store).cache.get id = store[id]? := by
      rw [MemoryCache.get, wrote, CacheWrite.run_of_store hstore]
    have hbefore := hone s.cache.store (List.mem_append_left _ h.current)
    have hafter := hone store (List.mem_append_right _ (List.mem_singleton.mpr rfl))
    rw [owners_eq_total] at hbefore hafter
    have hshare := KeyedCount.share_of_total
      (fun id hne => (CacheWrite.store_of_ne hstore hne).symm) (hbefore.trans hafter.symm) id
    rw [hcache, ← hshare]
    rcases List.mem_append.mp hold with hold | hnew
    · exact h.shares hostname (fun store hmem => hone store (List.mem_append_left _ hmem)) old hold
        id
    · rw [List.mem_singleton.mp hnew]
      exact hshare.symm

/-- The id's entry as the snapshot used it, or as the cache has it now. -/
def used (s : SnapshotRun) (id : String) : Option CacheEntry :=
  match s.uses.find? (·.id == id) with
  | some use => use.entry
  | none => s.cache.get id

theorem used_eq {s : SnapshotRun} (h : s.UsesInv) {use : SnapshotUse} (huse : use ∈ s.uses) :
    s.used use.id = use.entry := by
  unfold used
  cases hfind : s.uses.find? (·.id == use.id) with
  | none =>
    have hno := List.find?_eq_none.mp hfind use huse
    exact absurd (beq_self_eq_true use.id) hno
  | some first =>
    have hid : first.id = use.id := by simpa using List.find?_some hfind
    exact (h.same first (List.mem_of_find?_eq_some hfind) use huse hid).2

/-- What was used of an id was there in some version. -/
theorem used_held {s : SnapshotRun} (h : s.UsesInv) (hcurrent : s.cache.store ∈ s.held)
    (id : String) : ∃ store ∈ s.held, s.used id = store[id]? := by
  unfold used
  cases hfind : s.uses.find? (·.id == id) with
  | none => exact ⟨s.cache.store, hcurrent, rfl⟩
  | some use =>
    obtain ⟨store, hstore, hentry⟩ := h.held use (List.mem_of_find?_eq_some hfind)
    have hid : use.id = id := by simpa using List.find?_some hfind
    exact ⟨store, hstore, hid ▸ hentry⟩

/-- Members that were looked up claim a host as if they had been read from any
map that has what was used. -/
theorem countP_claims_eq_total {uses : List SnapshotUse} {done : List ViewMember}
    {reads : List MemberSnapshot} (hread : List.Forall₂ (ReadFrom sources scopes uses) done reads)
    {m : String → Option CacheEntry} (hm : ∀ use ∈ uses, m use.id = use.entry) :
    reads.countP (·.claims hostname) =
      KeyedCount.total done (·.owns.source) (memberClaims sources scopes hostname) m := by
  unfold KeyedCount.total
  induction hread with
  | nil => rfl
  | cons hhead _ ih =>
    obtain ⟨use, huse, hid, hentry⟩ := hhead.ownership
    rw [List.countP_cons, List.countP_cons, ih, hhead.claims, ← hentry, ← hm use huse, hid]

end Owners

/-! ## One consistent snapshot -/

/-- The snapshot so far is consistent: its members are built from its uses,
uses of one id are of one version, and, once it is finished, a host that one
member owns in every version of the cache is claimed by one member. -/
structure Consistent (sources : StrMap Source) (scopes : AdvertisedScopeRegistry) (view : View)
    (s : SnapshotRun) : Prop where
  read : ∃ done, view.members = done ++ s.lookup.rest ∧
    List.Forall₂ (ReadFrom sources scopes s.uses) done s.lookup.members
  oneVersion : ∀ use ∈ s.uses, ∀ use' ∈ s.uses, use.id = use'.id →
    use.version = use'.version ∧ use.entry = use'.entry
  oneOwner : s.lookup.rest = [] → ∀ hostname,
    (∀ store ∈ s.held, owners sources scopes view hostname store = 1) →
    s.lookup.members.countP (·.claims hostname) = 1

structure Inv (sources : StrMap Source) (scopes : AdvertisedScopeRegistry) (view : View)
    (s : SnapshotRun) : Prop where
  uses : s.UsesInv
  members : s.MembersInv sources scopes view
  history : s.HistoryInv sources scopes view

theorem start_inv (cache : MemoryCache) (sources : StrMap Source)
    (scopes : AdvertisedScopeRegistry) (view : View) :
    (start cache sources view).Inv sources scopes view where
  uses := ⟨nofun, nofun, nofun, nofun, nofun⟩
  members := ⟨rfl, fun _ _ => trivial, [], rfl, .nil⟩
  history := by
    refine ⟨List.mem_singleton.mpr rfl, fun hostname _ store hstore id => ?_⟩
    rw [List.mem_singleton.mp hstore]
    rfl

theorem step_inv {sources : StrMap Source} {scopes : AdvertisedScopeRegistry} {view : View}
    {s s' : SnapshotRun} {event : SnapshotStep} (h : s.Inv sources scopes view)
    (hspares : s.Spares event) (hstep : s.step scopes event = some s') :
    s'.Inv sources scopes view := by
  cases event with
  | write write =>
    simp only [step] at hstep
    split at hstep
    · rename_i store hstore
      obtain rfl := Option.some.inj hstep
      exact ⟨wrote_usesInv h.uses hstore hspares,
        ⟨h.members.config, h.members.stage, h.members.done⟩, wrote_historyInv h.history hstore⟩
    · obtain rfl := Option.some.inj hstep
      exact h
  | lookup =>
    obtain rfl := Option.some.inj hstep
    exact ⟨looked_usesInv h.uses h.history.current scopes, looked_membersInv h.members,
      ⟨h.history.current, h.history.shares⟩⟩

theorem Inv.consistent {sources : StrMap Source} {scopes : AdvertisedScopeRegistry} {view : View}
    {s : SnapshotRun} (h : s.Inv sources scopes view) : s.Consistent sources scopes view where
  read := h.members.done
  oneVersion := h.uses.same
  oneOwner hfinished hostname hone := by
    obtain ⟨done, hview, hread⟩ := h.members.done
    rw [hfinished, List.append_nil] at hview
    rw [countP_claims_eq_total hread fun use huse => used_eq h.uses huse, ← hview]
    have hnow := hone s.cache.store h.history.current
    rw [owners_eq_total] at hnow
    rw [← hnow]
    refine KeyedCount.total_congr fun id => ?_
    obtain ⟨store, hstore, hused⟩ := used_held h.uses h.history.current id
    rw [hused]
    exact h.history.shares hostname hone store hstore id

/-- As long as no write changes an id that the snapshot has used and will use
again, the snapshot is consistent. -/
theorem reach_consistent {cache : MemoryCache} {sources : StrMap Source}
    {scopes : AdvertisedScopeRegistry} {view : View} {s : SnapshotRun}
    (h : Runs.Reach (step scopes) Spares (start cache sources view) s) :
    s.Consistent sources scopes view := by
  have hinv : s.Inv sources scopes view := h.invariant (start_inv cache sources scopes view)
    fun _ _ _ hinv hspares hstep => step_inv hinv hspares hstep
  exact hinv.consistent

/-- Two members that resolve two groups against one inventory. -/
def twoGroups : View where
  members := [{ source := "a", owns := { source := "inv", groups := ["db"] } },
    { source := "b", owns := { source := "inv", groups := ["web"] } }]

/-- The inventory with its one host in the group. -/
def inventory (group : String) : CacheEntry :=
  .new { groups := (∅ : StrMap Group).insert group { hosts := ["h"] } } 60 0

def webCache : MemoryCache := MemoryCache.set {} "inv" (inventory "web")

/-- One member is looked up, a write lands, the other is looked up. -/
def midWrite (write : CacheWrite) : List SnapshotStep :=
  [.lookup, .lookup, .lookup, .write write, .lookup, .lookup, .lookup]

theorem writeElsewhere_consistent :
    ∃ s, Runs.exec (step ∅) (start webCache ∅ twoGroups)
        (midWrite (.set "b" (inventory "web"))) = some s ∧
      s.lookup.rest = [] ∧ s.Consistent ∅ ∅ twoGroups := by
  have hrun : Runs.exec (step ∅) (start webCache ∅ twoGroups)
      (midWrite (.set "b" (inventory "web"))) = some _ := rfl
  have hmeets : Runs.Meets (step ∅) Spares (start webCache ∅ twoGroups)
      (midWrite (.set "b" (inventory "web"))) :=
    ⟨trivial, trivial, trivial, fun _ hused => by revert hused; decide, trivial, trivial, trivial,
      trivial⟩
  exact ⟨_, hrun, rfl, reach_consistent (Runs.Reach.start.of_meets hmeets hrun)⟩

/-- The host changes groups between the two members' lookups: each version of
the inventory gives it an owner, the snapshot gives it none. -/
theorem movedHost_unowned :
    ∃ s, Runs.exec (step ∅) (start webCache ∅ twoGroups)
        (midWrite (.set "inv" (inventory "db"))) = some s ∧
      s.lookup.rest = [] ∧
      (∀ store ∈ s.held, owners ∅ ∅ twoGroups "h" store = 1) ∧
      s.lookup.members.countP (·.claims "h") = 0 ∧
      ¬ s.Consistent ∅ ∅ twoGroups := by
  have hrun : Runs.exec (step ∅) (start webCache ∅ twoGroups)
      (midWrite (.set "inv" (inventory "db"))) = some _ := rfl
  have howned : ∀ store ∈ [webCache.store, webCache.store.insert "inv" (inventory "db")],
      owners ∅ ∅ twoGroups "h" store = 1 := by decide
  have hnone : ((Runs.exec (step ∅) (start webCache ∅ twoGroups)
      (midWrite (.set "inv" (inventory "db")))).map fun s =>
        s.lookup.members.countP (·.claims "h")) = some 0 := by decide
  rw [hrun, Option.map_some, Option.some.injEq] at hnone
  refine ⟨_, hrun, rfl, howned, hnone, fun h => ?_⟩
  have hone := h.oneOwner rfl "h" howned
  rw [hnone] at hone
  cases hone

end SnapshotRun

end UnifiedApi

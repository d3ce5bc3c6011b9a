import UnifiedApi.Lib.Clock
import UnifiedApi.Domain.Dataset

/-! # A cached dataset with its freshness

`CacheEntry` wraps a dataset with cache metadata: when the last full sync ran
and when each host was refreshed. Every function that reads the clock takes
the instant it reads. The serialized JSON an entry memoizes is derived from
the dataset and left out. -/

namespace UnifiedApi
open Clock

structure CacheEntry where
  dataset : Dataset
  fetchedAt : Nat
  ttl : Nat
  hostTimestamps : StrMap Nat
  /-- Whether this entry has ever come from a sync of the whole source. -/
  complete : Bool
  deriving DecidableEq

instance : Inhabited CacheEntry := ⟨⟨{}, 0, 0, ∅, false⟩⟩

/-- What a replace keeps of a host it could not reach. -/
structure RetainedHost where
  hostname : String
  vars : HostVars
  ageSeconds : Nat
  groups : List String

namespace CacheEntry

/-- The instant `ageSeconds` ago, or `now` when the clock cannot represent it. -/
def backdated (ageSeconds now : Nat) : Nat := (checkedSub now (fromSecs ageSeconds)).getD now

def new (dataset : Dataset) (ttlSeconds now : Nat) : CacheEntry where
  dataset := dataset
  fetchedAt := now
  ttl := fromSecs ttlSeconds
  hostTimestamps := dataset.hostvars.map fun _ _ => now
  complete := true

/-- Rebuild an entry from ages. A dataset age the clock cannot represent
leaves `fetchedAt = now` with a zero TTL; a host age it cannot represent
leaves no timestamp. -/
def restore (dataset : Dataset) (ttlSeconds ageSeconds : Nat) (hostAges : StrMap Nat)
    (now : Nat) : CacheEntry where
  dataset := dataset
  fetchedAt := backdated ageSeconds now
  ttl := match checkedSub now (fromSecs ageSeconds) with
    | some _ => fromSecs ttlSeconds
    | none => 0
  hostTimestamps := hostAges.filterMap fun _ age => checkedSub now (fromSecs age)
  complete := true

def isFresh (entry : CacheEntry) (now : Nat) : Bool :=
  entry.complete && decide (elapsed now entry.fetchedAt < entry.ttl)

def isComplete (entry : CacheEntry) : Bool := entry.complete

def setTtl (entry : CacheEntry) (ttlSeconds : Nat) : CacheEntry :=
  { entry with ttl := fromSecs ttlSeconds }

def markPartial (entry : CacheEntry) : CacheEntry := { entry with complete := false }

def markGathered (entry : CacheEntry) (now : Nat) : CacheEntry :=
  { entry with fetchedAt := now, complete := true }

def ageSeconds (entry : CacheEntry) (now : Nat) : Nat := asSecs (elapsed now entry.fetchedAt)

def isHostFresh (entry : CacheEntry) (hostname : String) (ttlOverride : Option Nat)
    (now : Nat) : Bool :=
  let ttl := match ttlOverride with
    | some secs => fromSecs secs
    | none => entry.ttl
  match entry.hostTimestamps[hostname]? with
  | some timestamp => decide (elapsed now timestamp < ttl)
  | none => false

def hostAgeSeconds (entry : CacheEntry) (hostname : String) (now : Nat) : Option Nat :=
  entry.hostTimestamps[hostname]?.map fun timestamp => asSecs (elapsed now timestamp)

def updateHostAged (entry : CacheEntry) (hostname : String) (vars : HostVars)
    (ageSeconds now : Nat) : CacheEntry :=
  { entry with
    dataset := { entry.dataset with hostvars := entry.dataset.hostvars.insert hostname vars }
    hostTimestamps := entry.hostTimestamps.insert hostname (backdated ageSeconds now) }

def updateHost (entry : CacheEntry) (hostname : String) (vars : HostVars) (now : Nat) :
    CacheEntry :=
  entry.updateHostAged hostname vars 0 now

def captureHost (entry : CacheEntry) (hostname : String) (now : Nat) : Option RetainedHost :=
  entry.dataset.hostvars[hostname]?.map fun vars =>
    { hostname, vars
      ageSeconds := (entry.hostAgeSeconds hostname now).getD 0
      groups := entry.dataset.groupsOf hostname }

/-- A group that does not exist yet starts empty. -/
def joinGroup (groups : StrMap Group) (name hostname : String) : StrMap Group :=
  groups.alter name fun group => some ((group.getD {}).joined hostname)

def restoreHost (entry : CacheEntry) (retained : RetainedHost) (now : Nat) : CacheEntry :=
  let entry := entry.updateHostAged retained.hostname retained.vars retained.ageSeconds now
  { entry with
    dataset := { entry.dataset with
      groups := retained.groups.foldl (joinGroup · · retained.hostname) entry.dataset.groups } }

/-- Replace one host's membership with `groups`; `all` and `ungrouped` are
never touched. -/
def setHostGroups (entry : CacheEntry) (hostname : String) (groups : List String) : CacheEntry :=
  let left := entry.dataset.groups.map fun name group =>
    if isMetaGroup name || groups.any (· == name) then group else group.without hostname
  { entry with
    dataset := { entry.dataset with
      groups := groups.foldl (fun all name =>
        if isMetaGroup name then all else joinGroup all name hostname) left } }

/-- The variables of `vars` over those of `existing`. -/
def extend (existing vars : HostVars) : HostVars :=
  vars.foldl (fun existing key value => existing.insert key value) existing

def mergeHostvarFields (entry : CacheEntry) (part : Dataset) : CacheEntry :=
  { entry with
    dataset := { entry.dataset with
      hostvars := part.hostvars.foldl (fun hostvars hostname vars =>
        hostvars.alter hostname (·.map (extend · vars))) entry.dataset.hostvars } }

def mergeGroupVarFields (entry : CacheEntry) (part : Dataset) : CacheEntry :=
  { entry with
    dataset := { entry.dataset with
      groups := part.groups.foldl (fun groups name group =>
        match group.vars with
        | none => groups
        | some vars => groups.alter name fun
          | some existing =>
            some { existing with vars := some (extend (existing.vars.getD ∅) vars) }
          | none => some { hosts := group.hosts, children := group.children, vars := some vars })
        entry.dataset.groups } }

def mergeInto (entry : CacheEntry) (part : Dataset) (restampExisting : Bool) (now : Nat) :
    CacheEntry :=
  let hostvars := part.hostvars.foldl (fun hostvars hostname vars =>
    hostvars.insert hostname vars) entry.dataset.hostvars
  let timestamps := part.hostvars.foldl (fun timestamps hostname _ =>
    if restampExisting || !timestamps.contains hostname then timestamps.insert hostname now
    else timestamps) entry.hostTimestamps
  let groups := part.groups.foldl (fun groups name group =>
    groups.insert name group) entry.dataset.groups
  { entry with
    dataset := { entry.dataset with
      hostvars := part.removeHosts.foldl (fun hostvars hostname => hostvars.erase hostname) hostvars
      groups := part.removeHosts.foldl (fun groups hostname =>
        groups.map fun _ group => group.without hostname) groups }
    hostTimestamps := part.removeHosts.foldl (fun timestamps hostname =>
      timestamps.erase hostname) timestamps }

def mergeDataset (entry : CacheEntry) (part : Dataset) (now : Nat) : CacheEntry :=
  entry.mergeInto part true now

def mergeEnrichment (entry : CacheEntry) (part : Dataset) (now : Nat) : CacheEntry :=
  entry.mergeInto part false now

def removeHost (entry : CacheEntry) (hostname : String) : CacheEntry :=
  { entry with
    dataset := { entry.dataset with
      hostvars := entry.dataset.hostvars.erase hostname
      groups := entry.dataset.groups.map fun _ group => group.without hostname }
    hostTimestamps := entry.hostTimestamps.erase hostname }

/-- The hosts a group sync may write: the members the entry already lists. -/
def membersOf (entry : CacheEntry) (groupName : String) : List String :=
  match entry.dataset.groups[groupName]? with
  | some group => group.hosts
  | none => []

def updateGroup (entry : CacheEntry) (groupName : String) (part : Dataset) (now : Nat) :
    CacheEntry :=
  let members := entry.membersOf groupName
  { entry with
    dataset := { entry.dataset with
      hostvars := members.foldl (fun hostvars hostname =>
        match part.hostvars[hostname]? with
        | some vars => hostvars.insert hostname vars
        | none => hostvars) entry.dataset.hostvars
      groups := match part.groups[groupName]? with
        | some newGroup => entry.dataset.groups.modify groupName fun existing =>
            { existing with vars := newGroup.vars }
        | none => entry.dataset.groups }
    hostTimestamps := members.foldl (fun timestamps hostname =>
      match part.hostvars[hostname]? with
      | some _ => timestamps.insert hostname now
      | none => timestamps) entry.hostTimestamps }

/-! ## Variables over variables -/

theorem getElem?_extend (existing vars : HostVars) (key : String) :
    (extend existing vars)[key]? = vars[key]?.or existing[key]? :=
  StrMap.getElem?_insertAll vars existing key

theorem extend_empty (vars : HostVars) : extend ∅ vars = vars := by
  apply Std.ExtTreeMap.ext_getElem?
  intro key
  simp [getElem?_extend]

@[simp] theorem extend_nothing (existing : HostVars) : extend existing ∅ = existing := by
  apply Std.ExtTreeMap.ext_getElem?
  intro key
  simp [getElem?_extend]

/-! ## Staleness -/

/-- A host is stale once every stamp it has is as old as the TTL. -/
theorem isHostFresh_eq_false_iff {entry : CacheEntry} {hostname : String}
    {ttlOverride : Option Nat} {now : Nat} :
    entry.isHostFresh hostname ttlOverride now = false ↔
      ∀ timestamp, entry.hostTimestamps[hostname]? = some timestamp →
        (ttlOverride.map fromSecs).getD entry.ttl ≤ elapsed now timestamp := by
  unfold isHostFresh
  cases entry.hostTimestamps[hostname]? with
  | none => simp
  | some timestamp => cases ttlOverride <;> simp

/-! ## The dataset-level clock -/

/-- Two entries that answer every dataset-level freshness question alike. -/
def SameClock (entry entry' : CacheEntry) : Prop :=
  entry'.fetchedAt = entry.fetchedAt ∧ entry'.ttl = entry.ttl ∧ entry'.complete = entry.complete

theorem SameClock.refl (entry : CacheEntry) : SameClock entry entry := ⟨rfl, rfl, rfl⟩

theorem SameClock.trans {a b c : CacheEntry} (h : SameClock a b) (h' : SameClock b c) :
    SameClock a c :=
  ⟨h'.1.trans h.1, h'.2.1.trans h.2.1, h'.2.2.trans h.2.2⟩

theorem SameClock.symm {a b : CacheEntry} (h : SameClock a b) : SameClock b a :=
  ⟨h.1.symm, h.2.1.symm, h.2.2.symm⟩

theorem SameClock.isFresh {a b : CacheEntry} (h : SameClock a b) (now : Nat) :
    b.isFresh now = a.isFresh now := by
  obtain ⟨hf, ht, hc⟩ := h
  simp only [CacheEntry.isFresh, hf, ht, hc]

/-- A loop whose body leaves the dataset-level clock alone leaves it alone. -/
theorem SameClock.foldl {α : Type} {step : CacheEntry → α → CacheEntry}
    (h : ∀ e x, SameClock e (step e x)) (l : List α) (entry : CacheEntry) :
    SameClock entry (l.foldl step entry) := by
  induction l generalizing entry with
  | nil => exact .refl entry
  | cons x rest ih => exact (h entry x).trans (ih _)

section Clock
variable (entry : CacheEntry)

theorem updateHostAged_clock (hostname : String) (vars : HostVars) (age now : Nat) :
    SameClock entry (entry.updateHostAged hostname vars age now) := .refl _

theorem restoreHost_clock (retained : RetainedHost) (now : Nat) :
    SameClock entry (entry.restoreHost retained now) := .refl _

theorem setHostGroups_clock (hostname : String) (groups : List String) :
    SameClock entry (entry.setHostGroups hostname groups) := .refl _

theorem mergeHostvarFields_clock (part : Dataset) :
    SameClock entry (entry.mergeHostvarFields part) := .refl _

theorem mergeGroupVarFields_clock (part : Dataset) :
    SameClock entry (entry.mergeGroupVarFields part) := .refl _

theorem mergeInto_clock (part : Dataset) (restamp : Bool) (now : Nat) :
    SameClock entry (entry.mergeInto part restamp now) := .refl _

theorem removeHost_clock (hostname : String) :
    SameClock entry (entry.removeHost hostname) := .refl _

theorem updateGroup_clock (groupName : String) (part : Dataset) (now : Nat) :
    SameClock entry (entry.updateGroup groupName part now) := .refl _

end Clock

/-! ## The hosts and their timestamps -/

/-- Two entries with the same hosts, variables and host timestamps. -/
def SameHosts (entry entry' : CacheEntry) : Prop :=
  entry'.dataset.hostvars = entry.dataset.hostvars ∧ entry'.hostTimestamps = entry.hostTimestamps

theorem SameHosts.refl (entry : CacheEntry) : SameHosts entry entry := ⟨rfl, rfl⟩

theorem SameHosts.trans {a b c : CacheEntry} (h : SameHosts a b) (h' : SameHosts b c) :
    SameHosts a c :=
  ⟨h'.1.trans h.1, h'.2.trans h.2⟩

theorem SameHosts.foldl {α : Type} {step : CacheEntry → α → CacheEntry}
    (h : ∀ e x, SameHosts e (step e x)) (l : List α) (entry : CacheEntry) :
    SameHosts entry (l.foldl step entry) := by
  induction l generalizing entry with
  | nil => exact .refl entry
  | cons x rest ih => exact (h entry x).trans (ih _)

/-! ## What each operation leaves at a host -/

theorem backdated_zero (now : Nat) : backdated 0 now = now := by
  rw [backdated, fromSecs_zero, checkedSub_zero, Option.getD_some]

theorem backdated_of_le {age now : Nat} (h : fromSecs age ≤ now) :
    backdated age now = now - fromSecs age := by
  rw [backdated, checkedSub_of_le h, Option.getD_some]

theorem backdated_of_not_le {age now : Nat} (h : ¬ fromSecs age ≤ now) :
    backdated age now = now := by
  rw [backdated, checkedSub_of_lt (Nat.lt_of_not_le h), Option.getD_none]

/-- Backdating by a representable age records exactly that age. -/
theorem asSecs_elapsed_backdated {age now : Nat} (h : fromSecs age ≤ now) :
    asSecs (elapsed now (backdated age now)) = age := by
  rw [backdated_of_le h, elapsed_sub h, asSecs_fromSecs]

/-- Going back by the age of a stamp leads to that stamp or, for what the whole
seconds leave out, a little past it. -/
theorem backdated_elapsed {stamp now : Nat} (h : stamp ≤ now) :
    stamp ≤ backdated (asSecs (elapsed now stamp)) now ∧
      backdated (asSecs (elapsed now stamp)) now ≤ now := by
  have hfloor : fromSecs (asSecs (elapsed now stamp)) ≤ now - stamp := fromSecs_asSecs_le _
  rw [backdated_of_le (hfloor.trans (Nat.sub_le now stamp))]
  omega

theorem restore_fetchedAt (dataset : Dataset) (ttlSeconds age : Nat) (hostAges : StrMap Nat)
    (now : Nat) : (restore dataset ttlSeconds age hostAges now).fetchedAt = backdated age now := rfl

/-- An age the clock cannot represent costs the entry its TTL. -/
theorem restore_ttl (dataset : Dataset) (ttlSeconds age : Nat) (hostAges : StrMap Nat)
    (now : Nat) : (restore dataset ttlSeconds age hostAges now).ttl =
      if fromSecs age ≤ now then fromSecs ttlSeconds else 0 := by
  unfold restore
  dsimp only
  split
  · rename_i instant hsub
    rw [if_pos (checkedSub_isSome.mp (by rw [hsub]; rfl))]
  · rename_i hsub
    have hlt : ¬ fromSecs age ≤ now := by
      intro hle
      rw [checkedSub_of_le hle] at hsub
      cases hsub
    rw [if_neg hlt]

section Hosts
variable (entry : CacheEntry) (a : String)

theorem new_timestamp (dataset : Dataset) (ttlSeconds now : Nat) :
    (new dataset ttlSeconds now).hostTimestamps[a]? = dataset.hostvars[a]?.map fun _ => now :=
  StrMap.getElem?_map dataset.hostvars _ a

theorem restore_timestamp (dataset : Dataset) (ttlSeconds age : Nat) (hostAges : StrMap Nat)
    (now : Nat) : (restore dataset ttlSeconds age hostAges now).hostTimestamps[a]? =
      hostAges[a]?.bind fun age => checkedSub now (fromSecs age) :=
  Std.ExtTreeMap.getElem?_filterMap'

theorem updateHostAged_hostvars (hostname : String) (vars : HostVars) (age now : Nat) :
    (entry.updateHostAged hostname vars age now).dataset.hostvars[a]? =
      if hostname = a then some vars else entry.dataset.hostvars[a]? :=
  StrMap.getElem?_insert _ _ _ _

theorem updateHostAged_timestamp (hostname : String) (vars : HostVars) (age now : Nat) :
    (entry.updateHostAged hostname vars age now).hostTimestamps[a]? =
      if hostname = a then some (backdated age now) else entry.hostTimestamps[a]? :=
  StrMap.getElem?_insert _ _ _ _

theorem mergeInto_hostvars (part : Dataset) (restamp : Bool) (now : Nat) :
    (entry.mergeInto part restamp now).dataset.hostvars[a]? =
      if a ∈ part.removeHosts then none
      else part.hostvars[a]?.or entry.dataset.hostvars[a]? := by
  simp only [mergeInto]
  rw [StrMap.getElem?_foldl_keys StrMap.keyOnly_erase (fun _ _ => rfl), StrMap.getElem?_insertAll]

theorem mergeInto_timestamp (part : Dataset) (restamp : Bool) (now : Nat) :
    (entry.mergeInto part restamp now).hostTimestamps[a]? =
      if a ∈ part.removeHosts then none
      else if a ∈ part.hostvars ∧ (restamp = true ∨ a ∉ entry.hostTimestamps) then some now
      else entry.hostTimestamps[a]? := by
  have hstep : StrMap.KeyStep (fun (timestamps : StrMap Nat) hostname (_ : HostVars) =>
      if restamp || !timestamps.contains hostname then timestamps.insert hostname now
      else timestamps) fun _ _ old => if restamp = true ∨ old = none then some now else old := by
    intro m k v a
    by_cases hk : k = a
    · subst hk
      cases hc : m[k]? with
      | some old =>
        have hm : m.contains k = true := Std.ExtTreeMap.contains_iff_mem.mpr (StrMap.mem_of_some hc)
        cases restamp <;> simp [hm, hc]
      | none =>
        have hm : m.contains k = false := by
          rw [Bool.eq_false_iff, ne_eq, Std.ExtTreeMap.contains_iff_mem]
          exact StrMap.not_mem_of_none hc
        cases restamp <;> simp [hm]
    · dsimp only
      split <;> simp [hk, StrMap.getElem?_insert]
  simp only [mergeInto]
  rw [StrMap.getElem?_foldl_keys StrMap.keyOnly_erase (fun _ _ => rfl), StrMap.getElem?_foldl hstep]
  cases hp : part.hostvars[a]? with
  | some vars => simp [StrMap.mem_of_some hp]
  | none => simp [StrMap.not_mem_of_none hp]

theorem updateGroup_hostvars (groupName : String) (part : Dataset) (now : Nat) :
    (entry.updateGroup groupName part now).dataset.hostvars[a]? =
      if a ∈ entry.membersOf groupName then part.hostvars[a]?.or entry.dataset.hostvars[a]?
      else entry.dataset.hostvars[a]? := by
  have hstep : StrMap.KeyOnly (fun (hostvars : StrMap HostVars) hostname =>
      match part.hostvars[hostname]? with
      | some vars => hostvars.insert hostname vars
      | none => hostvars) fun k old => part.hostvars[k]?.or old := by
    intro m k a
    by_cases hk : k = a
    · subst hk
      cases hp : part.hostvars[k]? <;> simp [hp]
    · cases hp : part.hostvars[k]? <;> simp [hp, hk, StrMap.getElem?_insert]
  exact StrMap.getElem?_foldl_keys hstep
    (fun k x => by cases part.hostvars[k]? <;> rfl) _ _ _

theorem updateGroup_timestamp (groupName : String) (part : Dataset) (now : Nat) :
    (entry.updateGroup groupName part now).hostTimestamps[a]? =
      if a ∈ entry.membersOf groupName ∧ a ∈ part.hostvars then some now
      else entry.hostTimestamps[a]? := by
  have hstep : StrMap.KeyOnly (fun (timestamps : StrMap Nat) hostname =>
      match part.hostvars[hostname]? with
      | some _ => timestamps.insert hostname now
      | none => timestamps) fun k old => if k ∈ part.hostvars then some now else old := by
    intro m k a
    by_cases hk : k = a
    · subst hk
      cases hp : part.hostvars[k]? with
      | some vars => simp [StrMap.mem_of_some hp]
      | none => simp [StrMap.not_mem_of_none hp]
    · cases hp : part.hostvars[k]? <;> simp [hp, hk, StrMap.getElem?_insert]
  have h := StrMap.getElem?_foldl_keys hstep
    (fun k x => by by_cases hk : k ∈ part.hostvars <;> simp [hk])
    (entry.membersOf groupName) entry.hostTimestamps a
  by_cases hm : a ∈ entry.membersOf groupName <;> by_cases hp : a ∈ part.hostvars <;>
    simpa [updateGroup, hm, hp] using h

theorem mergeHostvarFields_hostvars (part : Dataset) :
    (entry.mergeHostvarFields part).dataset.hostvars[a]? =
      entry.dataset.hostvars[a]?.map fun existing =>
        (part.hostvars[a]?.map (extend existing)).getD existing := by
  have hstep : StrMap.KeyStep (fun (hostvars : StrMap HostVars) hostname vars =>
      hostvars.alter hostname (·.map (extend · vars))) fun _ vars old => old.map (extend · vars) :=
    fun m k v a => StrMap.getElem?_alter m k a _
  simp only [mergeHostvarFields]
  rw [StrMap.getElem?_foldl hstep]
  cases part.hostvars[a]? <;> cases entry.dataset.hostvars[a]? <;> rfl

/-- The group with `vars` over its own; one that is missing starts as `created`. -/
def carrying (created : Group) (vars : HostVars) (group : Option Group) : Group :=
  { group.getD created with vars := some (extend ((group.bind (·.vars)).getD ∅) vars) }

theorem mergeGroupVarFields_groups (part : Dataset) :
    (entry.mergeGroupVarFields part).dataset.groups[a]? =
      (part.groups[a]?.bind fun group => group.vars.map fun vars =>
        carrying group vars entry.dataset.groups[a]?).or entry.dataset.groups[a]? := by
  have hstep : StrMap.KeyStep (fun (groups : StrMap Group) name (group : Group) =>
      match group.vars with
      | none => groups
      | some vars => groups.alter name fun
        | some existing => some { existing with vars := some (extend (existing.vars.getD ∅) vars) }
        | none => some { hosts := group.hosts, children := group.children, vars := some vars })
      fun _ group old => (group.vars.map fun vars => carrying group vars old).or old := by
    intro m k group a
    dsimp only
    cases group.vars with
    | none => simp
    | some vars =>
      dsimp only
      rw [StrMap.getElem?_alter]
      cases m[a]? with
      | none => simp [carrying, extend_empty]
      | some existing => simp [carrying]
  simp only [mergeGroupVarFields]
  rw [StrMap.getElem?_foldl hstep]
  cases part.groups[a]? <;> rfl

/-! ## A host as the entry holds it -/

/-- The host's variables and the instant it was last gathered. -/
def hostAt : Option HostVars × Option Nat :=
  (entry.dataset.hostvars[a]?, entry.hostTimestamps[a]?)

theorem SameHosts.hostAt {entry entry' : CacheEntry} (h : SameHosts entry entry') (a : String) :
    entry'.hostAt a = entry.hostAt a := by
  obtain ⟨hvars, hstamps⟩ := h
  unfold CacheEntry.hostAt
  rw [hvars, hstamps]

theorem new_hostAt (dataset : Dataset) (ttlSeconds now : Nat) :
    (new dataset ttlSeconds now).hostAt a =
      if a ∈ dataset.hostvars then (dataset.hostvars[a]?, some now) else (none, none) := by
  unfold hostAt
  rw [new_timestamp]
  have hvars : (new dataset ttlSeconds now).dataset.hostvars[a]? = dataset.hostvars[a]? := rfl
  rw [hvars]
  cases hv : dataset.hostvars[a]? with
  | none => rw [if_neg (StrMap.not_mem_of_none hv), Option.map_none]
  | some vars => rw [if_pos (StrMap.mem_of_some hv), Option.map_some]

theorem updateHostAged_hostAt (hostname : String) (vars : HostVars) (age now : Nat) :
    (entry.updateHostAged hostname vars age now).hostAt a =
      if hostname = a then (some vars, some (backdated age now)) else entry.hostAt a := by
  unfold hostAt
  rw [updateHostAged_hostvars, updateHostAged_timestamp]
  split <;> rfl

theorem removeHost_hostAt (hostname : String) :
    (entry.removeHost hostname).hostAt a =
      if hostname = a then (none, none) else entry.hostAt a := by
  have hvars : (entry.removeHost hostname).dataset.hostvars[a]? =
      if hostname = a then none else entry.dataset.hostvars[a]? := StrMap.getElem?_erase _ _ _
  have hstamp : (entry.removeHost hostname).hostTimestamps[a]? =
      if hostname = a then none else entry.hostTimestamps[a]? := StrMap.getElem?_erase _ _ _
  unfold hostAt
  rw [hvars, hstamp]
  split <;> rfl

theorem mergeDataset_hostAt (part : Dataset) (now : Nat) :
    (entry.mergeDataset part now).hostAt a =
      if a ∈ part.removeHosts then (none, none)
      else if a ∈ part.hostvars then (part.hostvars[a]?, some now) else entry.hostAt a := by
  unfold hostAt mergeDataset
  rw [mergeInto_hostvars, mergeInto_timestamp]
  split
  · rfl
  · cases hv : part.hostvars[a]? with
    | none => simp [StrMap.not_mem_of_none hv]
    | some vars => simp [StrMap.mem_of_some hv]

theorem updateGroup_hostAt (groupName : String) (part : Dataset) (now : Nat) :
    (entry.updateGroup groupName part now).hostAt a =
      if a ∈ entry.membersOf groupName ∧ a ∈ part.hostvars then (part.hostvars[a]?, some now)
      else entry.hostAt a := by
  unfold hostAt
  rw [updateGroup_hostvars, updateGroup_timestamp]
  cases hv : part.hostvars[a]? with
  | none => simp [StrMap.not_mem_of_none hv]
  | some vars => by_cases hm : a ∈ entry.membersOf groupName <;> simp [hm, StrMap.mem_of_some hv]

end Hosts

end CacheEntry

end UnifiedApi

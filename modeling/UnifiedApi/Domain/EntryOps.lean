import UnifiedApi.Domain.CacheEntry

/-! # Every host has exactly one timestamp

An entry is built by `new` or `restore` and then only changed by its own
operations. All of them keep the timestamped hosts and the hosts with
variables the same; of the two constructors one takes its timestamps from
outside. -/

namespace UnifiedApi
open Clock CacheEntry

/-- One operation on an entry, at the instant it reads the clock. -/
inductive EntryOp where
  | setTtl (ttlSeconds : Nat)
  | markPartial
  | markGathered (now : Nat)
  | updateHostAged (hostname : String) (vars : HostVars) (age now : Nat)
  | restoreHost (retained : RetainedHost) (now : Nat)
  | setHostGroups (hostname : String) (groups : List String)
  | mergeHostvarFields (part : Dataset)
  | mergeGroupVarFields (part : Dataset)
  | mergeDataset (part : Dataset) (now : Nat)
  | mergeEnrichment (part : Dataset) (now : Nat)
  | removeHost (hostname : String)
  | updateGroup (groupName : String) (part : Dataset) (now : Nat)

def EntryOp.apply (entry : CacheEntry) : EntryOp → CacheEntry
  | .setTtl ttlSeconds => entry.setTtl ttlSeconds
  | .markPartial => entry.markPartial
  | .markGathered now => entry.markGathered now
  | .updateHostAged hostname vars age now => entry.updateHostAged hostname vars age now
  | .restoreHost retained now => entry.restoreHost retained now
  | .setHostGroups hostname groups => entry.setHostGroups hostname groups
  | .mergeHostvarFields part => entry.mergeHostvarFields part
  | .mergeGroupVarFields part => entry.mergeGroupVarFields part
  | .mergeDataset part now => entry.mergeDataset part now
  | .mergeEnrichment part now => entry.mergeEnrichment part now
  | .removeHost hostname => entry.removeHost hostname
  | .updateGroup groupName part now => entry.updateGroup groupName part now

/-- How an entry comes into being. -/
inductive EntryBuild where
  | new (dataset : Dataset) (ttlSeconds now : Nat)
  | restore (dataset : Dataset) (ttlSeconds age : Nat) (hostAges : StrMap Nat) (now : Nat)

def EntryBuild.entry : EntryBuild → CacheEntry
  | .new dataset ttlSeconds now => .new dataset ttlSeconds now
  | .restore dataset ttlSeconds age hostAges now => .restore dataset ttlSeconds age hostAges now

def EntryBuild.after (build : EntryBuild) (ops : List EntryOp) : CacheEntry :=
  ops.foldl EntryOp.apply build.entry

/-- The hosts with a timestamp are the hosts with variables. -/
def CacheEntry.Stamped (entry : CacheEntry) : Prop :=
  ∀ host, host ∈ entry.hostTimestamps ↔ host ∈ entry.dataset.hostvars

/-- Every host gets an age the clock can represent, and nothing else does.
`new` stamps the hosts itself. -/
def EntryBuild.StampsEveryHost : EntryBuild → Prop
  | .new _ _ _ => True
  | .restore dataset _ _ hostAges now => ∀ host, host ∈ dataset.hostvars ↔
      ∃ age, hostAges[host]? = some age ∧ fromSecs age ≤ now

/-! ## What keeps the timestamps in step -/

theorem stamped_iff_hostAt (entry : CacheEntry) :
    entry.Stamped ↔ ∀ host, (entry.hostAt host).2.isSome = (entry.hostAt host).1.isSome := by
  refine forall_congr' fun host => ?_
  rw [Std.ExtTreeMap.mem_iff_isSome_getElem?, Std.ExtTreeMap.mem_iff_isSome_getElem?]
  exact Bool.eq_iff_iff.symm

theorem SameHosts.stamped {entry entry' : CacheEntry} (h : SameHosts entry entry')
    (hs : entry.Stamped) : entry'.Stamped := by
  rw [stamped_iff_hostAt] at hs ⊢
  intro host
  rw [h.hostAt]
  exact hs host

section Keeps
variable {entry : CacheEntry} (h : entry.Stamped)
include h

theorem updateHostAged_stamped (hostname : String) (vars : HostVars) (age now : Nat) :
    (entry.updateHostAged hostname vars age now).Stamped := by
  rw [stamped_iff_hostAt] at h ⊢
  intro host
  rw [updateHostAged_hostAt]
  split
  · rfl
  · exact h host

theorem restoreHost_stamped (retained : RetainedHost) (now : Nat) :
    (entry.restoreHost retained now).Stamped :=
  SameHosts.stamped ⟨rfl, rfl⟩ (updateHostAged_stamped h retained.hostname retained.vars
    retained.ageSeconds now)

/-- Variables are written only onto hosts that are there. -/
theorem mergeHostvarFields_stamped (part : Dataset) : (entry.mergeHostvarFields part).Stamped := by
  rw [stamped_iff_hostAt] at h ⊢
  intro host
  have hvars := mergeHostvarFields_hostvars entry host part
  have hold := h host
  unfold hostAt at hold ⊢
  rw [hvars, Option.isSome_map]
  exact hold

/-- With or without restamping, a host that gains variables gains a timestamp. -/
theorem mergeInto_stamped (part : Dataset) (restamp : Bool) (now : Nat) :
    (entry.mergeInto part restamp now).Stamped := by
  intro host
  have hold := h host
  rw [StrMap.mem_iff, StrMap.mem_iff, mergeInto_timestamp, mergeInto_hostvars]
  by_cases hr : host ∈ part.removeHosts
  · rw [if_pos hr, if_pos hr]
    exact iff_of_false (fun hne => hne rfl) fun hne => hne rfl
  · rw [if_neg hr, if_neg hr]
    cases hv : part.hostvars[host]? with
    | none =>
      rw [if_neg fun hc => StrMap.not_mem_of_none hv hc.1, ← StrMap.mem_iff, hold, StrMap.mem_iff,
        Option.none_or]
    | some vars =>
      by_cases hstamp : restamp = true ∨ host ∉ entry.hostTimestamps
      · rw [if_pos ⟨StrMap.mem_of_some hv, hstamp⟩]
        simp
      · rw [if_neg fun hc => hstamp hc.2, ← StrMap.mem_iff]
        have hthere : host ∈ entry.hostTimestamps := by
          by_contra hfree
          exact hstamp (.inr hfree)
        simp [hthere]

theorem removeHost_stamped (hostname : String) : (entry.removeHost hostname).Stamped := by
  rw [stamped_iff_hostAt] at h ⊢
  intro host
  rw [removeHost_hostAt]
  split
  · rfl
  · exact h host

theorem updateGroup_stamped (groupName : String) (part : Dataset) (now : Nat) :
    (entry.updateGroup groupName part now).Stamped := by
  rw [stamped_iff_hostAt] at h ⊢
  intro host
  rw [updateGroup_hostAt]
  split
  · rename_i hc
    rw [Option.isSome_some, eq_comm, ← Std.ExtTreeMap.mem_iff_isSome_getElem?]
    exact hc.2
  · exact h host

theorem apply_stamped (op : EntryOp) : (op.apply entry).Stamped := by
  cases op with
  | setTtl ttlSeconds => exact SameHosts.stamped ⟨rfl, rfl⟩ h
  | markPartial => exact SameHosts.stamped ⟨rfl, rfl⟩ h
  | markGathered now => exact SameHosts.stamped ⟨rfl, rfl⟩ h
  | updateHostAged hostname vars age now => exact updateHostAged_stamped h hostname vars age now
  | restoreHost retained now => exact restoreHost_stamped h retained now
  | setHostGroups hostname groups => exact SameHosts.stamped ⟨rfl, rfl⟩ h
  | mergeHostvarFields part => exact mergeHostvarFields_stamped h part
  | mergeGroupVarFields part => exact SameHosts.stamped ⟨rfl, rfl⟩ h
  | mergeDataset part now => exact mergeInto_stamped h part true now
  | mergeEnrichment part now => exact mergeInto_stamped h part false now
  | removeHost hostname => exact removeHost_stamped h hostname
  | updateGroup groupName part now => exact updateGroup_stamped h groupName part now

theorem foldl_apply_stamped (ops : List EntryOp) : (ops.foldl EntryOp.apply entry).Stamped := by
  induction ops generalizing entry with
  | nil => exact h
  | cons op rest ih => exact ih (apply_stamped h op)

end Keeps

/-! ## The two constructors -/

theorem new_stamped (dataset : Dataset) (ttlSeconds now : Nat) :
    (CacheEntry.new dataset ttlSeconds now).Stamped := by
  intro host
  rw [StrMap.mem_iff, StrMap.mem_iff, new_timestamp]
  cases hv : dataset.hostvars[host]? <;> simp [CacheEntry.new, hv]

theorem entry_stamped_iff (build : EntryBuild) : build.entry.Stamped ↔ build.StampsEveryHost := by
  cases build with
  | new dataset ttlSeconds now => exact iff_of_true (new_stamped dataset ttlSeconds now) trivial
  | restore dataset ttlSeconds age hostAges now =>
    refine forall_congr' fun host => ?_
    have hstamp : host ∈ (EntryBuild.restore dataset ttlSeconds age hostAges
        now).entry.hostTimestamps ↔ ∃ age, hostAges[host]? = some age ∧ fromSecs age ≤ now := by
      rw [Std.ExtTreeMap.mem_iff_isSome_getElem?, EntryBuild.entry, restore_timestamp]
      cases hostAges[host]? with
      | none => simp
      | some listed =>
        rw [Option.bind_some, checkedSub_isSome]
        constructor
        · intro hle
          exact ⟨listed, rfl, hle⟩
        · rintro ⟨age, hage, hle⟩
          obtain rfl := Option.some.inj hage
          exact hle
    rw [hstamp]
    exact Iff.comm

/-- Whatever happens to an entry afterwards, its hosts and its timestamps
agree exactly when they did at its construction. -/
theorem after_stamped_iff (build : EntryBuild) :
    (∀ ops, (build.after ops).Stamped) ↔ build.StampsEveryHost := by
  rw [← entry_stamped_iff]
  constructor
  · intro h
    exact h []
  · intro h ops
    exact foldl_apply_stamped h ops

end UnifiedApi

import UnifiedApi.Application.Instance

/-! # A script enricher among concurrent writes

The script works on the dataset it was handed while syncs and host writes
keep landing in the same entry; its answer is merged host by host into
whatever the entry has become. -/

namespace UnifiedApi
open CacheEntry

/-- The writes an enricher run may overlap with. -/
def CacheOp.SyncOrPut : CacheOp → Prop
  | .sync .. | .putHost .. => True
  | _ => False

/-- A variable that changed while the script ran, and that the answer leaves
as the script found it, has its newer value after the merge. -/
def KeepsNewer (snapshot current answer merged : Dataset) : Prop :=
  ∀ host key, current.var? host key ≠ snapshot.var? host key →
    answer.var? host key = snapshot.var? host key → merged.var? host key = current.var? host key

/-- On a host that the answer carries or removes, whatever changed while the
script ran is changed by the answer too, or is gone with the host. -/
def WrittenApart (snapshot current answer : Dataset) : Prop :=
  ∀ host key, host ∈ answer.hostvars ∨ host ∈ answer.removeHosts →
    current.var? host key ≠ snapshot.var? host key →
    answer.var? host key ≠ snapshot.var? host key ∨
      (host ∈ answer.removeHosts ∧ current.var? host key = none)

/-! ## The merge at one variable -/

theorem mergeEnrichment_var? (entry : CacheEntry) (answer : Dataset) (now : Nat)
    (host key : String) : (entry.mergeEnrichment answer now).dataset.var? host key =
      if host ∈ answer.removeHosts then none
      else if host ∈ answer.hostvars then answer.var? host key
      else entry.dataset.var? host key := by
  have hvars := mergeInto_hostvars entry host answer false now
  unfold mergeEnrichment Dataset.var?
  rw [hvars]
  by_cases hr : host ∈ answer.removeHosts
  · rw [if_pos hr, if_pos hr]
    rfl
  · rw [if_neg hr, if_neg hr]
    cases ha : answer.hostvars[host]? with
    | none => rw [if_neg (StrMap.not_mem_of_none ha), Option.none_or]
    | some vars => rw [if_pos (StrMap.mem_of_some ha), Option.some_or]

theorem keepsNewer_mergeEnrichment_iff (snapshot answer : Dataset) (entry : CacheEntry)
    (now : Nat) :
    KeepsNewer snapshot entry.dataset answer (entry.mergeEnrichment answer now).dataset ↔
      WrittenApart snapshot entry.dataset answer := by
  constructor
  · intro h host key htouched hchanged
    by_cases hleft : answer.var? host key = snapshot.var? host key
    · have hmerged := h host key hchanged hleft
      rw [mergeEnrichment_var?] at hmerged
      by_cases hr : host ∈ answer.removeHosts
      · rw [if_pos hr] at hmerged
        exact .inr ⟨hr, hmerged.symm⟩
      · have hcarried : host ∈ answer.hostvars := by
          rcases htouched with hcarried | hremoved
          · exact hcarried
          · exact absurd hremoved hr
        rw [if_neg hr, if_pos hcarried, hleft] at hmerged
        exact absurd hmerged.symm hchanged
    · exact .inl hleft
  · intro h host key hchanged hleft
    rw [mergeEnrichment_var?]
    by_cases hr : host ∈ answer.removeHosts
    · rw [if_pos hr]
      rcases h host key (.inr hr) hchanged with hne | ⟨_, hgone⟩
      · exact absurd hleft hne
      · exact hgone.symm
    · rw [if_neg hr]
      by_cases hcarried : host ∈ answer.hostvars
      · rcases h host key (.inl hcarried) hchanged with hne | ⟨hremoved, _⟩
        · exact absurd hleft hne
        · exact absurd hremoved hr
      · rw [if_neg hcarried]

/-! ## The entry stays while the script runs -/

theorem syncedEntry_isSome (source : Source) (scope : SyncScope) (output : ConnectorOutput)
    (now : Nat) (old : CacheEntry) :
    (syncedEntry source scope output now (some old)).isSome = true := by
  by_cases hscope : scope = .full
  · subst hscope
    cases hm : source.syncMode <;> simp only [syncedEntry, hm]
    · split <;> rfl
    · rfl
  · obtain ⟨entry, hentry, _⟩ := syncedEntry_scoped_some source output now old hscope
    rw [hentry]
    rfl

theorem apply_keeps_entry {inst : Instance} {op : CacheOp} {key : String} (now : Nat)
    (hop : op.SyncOrPut) (h : (inst.cache.get key).isSome = true) :
    ((op.apply now inst).cache.get key).isSome = true := by
  cases op with
  | sync sourceId source scope output =>
    have hsync := get_applyToCache inst.cache sourceId source scope output now key
    refine (congrArg Option.isSome hsync).trans ?_
    split
    · rename_i hid
      subst hid
      obtain ⟨old, hold⟩ := Option.isSome_iff_exists.mp h
      rw [hold]
      exact syncedEntry_isSome source scope output now old
    · exact h
  | putHost sourceId hostname vars =>
    have hput := MemoryCache.get_update inst.cache sourceId key fun entry =>
      entry.updateHost hostname vars now
    refine (congrArg Option.isSome hput).trans ?_
    split
    · rename_i hid
      subst hid
      rw [Option.isSome_map]
      exact h
    · exact h
  | _ => exact hop.elim

/-- No sync and no host write takes an entry out of the cache. -/
theorem exec_keeps_entry {inst inst' : Instance} {key : String} {events : List (CacheOp × Nat)}
    (hops : ∀ event ∈ events, event.1.SyncOrPut) (h : (inst.cache.get key).isSome = true)
    (hexec : Runs.exec Instance.step inst events = some inst') :
    (inst'.cache.get key).isSome = true := by
  induction events generalizing inst with
  | nil =>
    obtain rfl := Option.some.inj hexec
    exact h
  | cons event rest ih =>
    obtain ⟨mid, hmid, hrest⟩ := Option.bind_eq_some_iff.mp hexec
    obtain rfl := Option.some.inj hmid
    refine ih (fun other hother => hops other (List.mem_cons_of_mem _ hother)) ?_ hrest
    exact apply_keeps_entry event.2 (hops event List.mem_cons_self) h

/-! ## One enricher run -/

/-- An enricher run loses no concurrent write exactly when none landed on a
host its answer carries, beside what the answer itself changes: the merge
puts whole hosts back. -/
theorem mergeAnswer_keepsNewer_iff (enricher : Enricher) (inst inst' : Instance)
    (snapshot : Dataset) (events : List (CacheOp × Nat)) (answer : Dataset) (now : Nat)
    (hscript : enricher.scriptPath.isSome = true)
    (hinput : enricherInput enricher inst.cache = some snapshot)
    (hops : ∀ event ∈ events, event.1.SyncOrPut)
    (hexec : Runs.exec Instance.step inst events = some inst') :
    ∃ current merged, inst'.cache.get enricher.targetId = some current ∧
      (mergeAnswer enricher (.ok answer) now inst'.cache).2.get enricher.targetId = some merged ∧
      (KeepsNewer snapshot current.dataset answer merged.dataset ↔
        WrittenApart snapshot current.dataset answer) := by
  have hthere : (inst.cache.get enricher.targetId).isSome = true := by
    obtain ⟨entry, hentry, _⟩ := Option.map_eq_some_iff.mp hinput
    rw [hentry]
    rfl
  obtain ⟨current, hcurrent⟩ :=
    Option.isSome_iff_exists.mp (exec_keeps_entry hops hthere hexec)
  obtain ⟨path, hpath⟩ := Option.isSome_iff_exists.mp hscript
  refine ⟨current, current.mergeEnrichment answer now, hcurrent, ?_,
    keepsNewer_mergeEnrichment_iff snapshot answer current now⟩
  unfold mergeAnswer
  rw [hpath]
  dsimp only
  rw [MemoryCache.get_update, if_pos rfl, hcurrent, Option.map_some]

/-! A host is written while an enricher that only adds `rack` runs: the answer
carries the whole host as the script found it. -/

def rackEnricher : Enricher := { targetId := "src", scriptPath := some "rack.py" }

def hostWith (os : String) : HostVars := (∅ : HostVars).insert "os" (.string os)

def beforeRack : Instance :=
  { cache := MemoryCache.set {} "src"
      (.new { hostvars := (∅ : StrMap HostVars).insert "a" (hostWith "old") } 60 0) }

def rackAnswer : Dataset :=
  { hostvars := (∅ : StrMap HostVars).insert "a" ((hostWith "old").insert "rack" (.string "r1")) }

def duringRack : List (CacheOp × Nat) := [(.putHost "src" "a" (hostWith "new"), 0)]

def afterPut : Instance := (CacheOp.putHost "src" "a" (hostWith "new")).apply 0 beforeRack

def foundByRack : Dataset := { hostvars := (∅ : StrMap HostVars).insert "a" (hostWith "old") }

theorem rackEnricher_keepsNewer_iff :
    ∃ current merged, afterPut.cache.get "src" = some current ∧
      (mergeAnswer rackEnricher (.ok rackAnswer) 0 afterPut.cache).2.get "src" = some merged ∧
      (KeepsNewer foundByRack current.dataset rackAnswer merged.dataset ↔
        WrittenApart foundByRack current.dataset rackAnswer) :=
  mergeAnswer_keepsNewer_iff rackEnricher beforeRack afterPut foundByRack duringRack rackAnswer 0
    rfl (by decide) (by intro event h; obtain rfl := List.mem_singleton.mp h; trivial) rfl

/-- The write that landed meanwhile is undone. -/
theorem rackEnricher_loses_put :
    enricherInput rackEnricher beforeRack.cache = some foundByRack ∧
    Runs.exec Instance.step beforeRack duringRack = some afterPut ∧
    ∃ current merged, afterPut.cache.get "src" = some current ∧
      (mergeAnswer rackEnricher (.ok rackAnswer) 0 afterPut.cache).2.get "src" = some merged ∧
      ¬ KeepsNewer foundByRack current.dataset rackAnswer merged.dataset := by
  have hmerged : ∃ current, afterPut.cache.get "src" = some current ∧
      (mergeAnswer rackEnricher (.ok rackAnswer) 0 afterPut.cache).2.get "src" =
        some (current.mergeEnrichment rackAnswer 0) ∧
      current.dataset.var? "a" "os" = some (.string "new") ∧
      (current.mergeEnrichment rackAnswer 0).dataset.var? "a" "os" = some (.string "old") := by
    refine ⟨(CacheEntry.new foundByRack 60 0).updateHost "a" (hostWith "new") 0, ?_, ?_, ?_, ?_⟩ <;>
      decide
  obtain ⟨current, hcurrent, hmerge, hnew, hold⟩ := hmerged
  refine ⟨by decide, rfl, current, _, hcurrent, hmerge, fun h => ?_⟩
  have hkept := h "a" "os" (by rw [hnew]; decide) (by decide)
  rw [hold, hnew] at hkept
  exact absurd hkept (by decide)

end UnifiedApi

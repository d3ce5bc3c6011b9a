import Mathlib.Data.List.Perm.Subperm
import Mathlib.Data.List.Range
import Mathlib.Tactic.Linarith

/-! # Finite maps keyed by strings

The standard library's extensional tree map, with what a loop over one map
that writes into another leaves behind. A loop body is described by what it
does to the one key it is about, so the loop's effect on every key is read
off without following the iteration order. -/

/-- A finite map from strings: equal exactly when every lookup agrees. -/
abbrev StrMap (β : Type) := Std.ExtTreeMap String β

namespace StrMap
variable {β γ : Type}

instance [DecidableEq β] : DecidableEq (StrMap β) :=
  fun a b => decidable_of_iff (a.toList = b.toList) Std.ExtTreeMap.toList_inj

theorem getElem?_insert (m : StrMap β) (k a : String) (v : β) :
    (m.insert k v)[a]? = if k = a then some v else m[a]? := by
  simp [Std.ExtTreeMap.getElem?_insert]

theorem getElem?_erase (m : StrMap β) (k a : String) :
    (m.erase k)[a]? = if k = a then none else m[a]? := by
  simp [Std.ExtTreeMap.getElem?_erase]

theorem getElem?_alter (m : StrMap β) (k a : String) (f : Option β → Option β) :
    (m.alter k f)[a]? = if k = a then f m[a]? else m[a]? := by
  rw [Std.ExtTreeMap.getElem?_alter]
  by_cases h : k = a <;> simp [h]

theorem getElem?_map (m : StrMap β) (f : String → β → γ) (a : String) :
    (m.map f)[a]? = m[a]?.map (f a) := Std.ExtTreeMap.getElem?_map

/-- The entries of the keys that pass. -/
theorem getElem?_filter_keys (m : StrMap β) (p : String → Bool) (a : String) :
    (m.filter fun k _ => p k)[a]? = if p a then m[a]? else none := by
  rw [Std.ExtTreeMap.getElem?_filter']
  cases p a <;> cases m[a]? <;> rfl

theorem mem_iff (m : StrMap β) (a : String) : a ∈ m ↔ m[a]? ≠ none := by
  rw [Std.ExtTreeMap.mem_iff_isSome_getElem?, Option.isSome_iff_ne_none]

theorem mem_iff_exists (m : StrMap β) (a : String) : a ∈ m ↔ ∃ v, m[a]? = some v := by
  rw [mem_iff, Option.ne_none_iff_exists']

theorem mem_of_some {m : StrMap β} {a : String} {v : β} (h : m[a]? = some v) : a ∈ m :=
  (mem_iff_exists m a).mpr ⟨v, h⟩

theorem not_mem_of_none {m : StrMap β} {a : String} (h : m[a]? = none) : a ∉ m :=
  fun hm => (mem_iff m a).mp hm h

/-- `step` only ever touches the key it is called with, and does `g` there. -/
def KeyStep (step : StrMap γ → String → β → StrMap γ)
    (g : String → β → Option γ → Option γ) : Prop :=
  ∀ m k v a, (step m k v)[a]? = if k = a then g k v m[a]? else m[a]?

/-- The same for a loop over plain keys. -/
def KeyOnly (step : StrMap γ → String → StrMap γ) (g : String → Option γ → Option γ) : Prop :=
  ∀ m k a, (step m k)[a]? = if k = a then g k m[a]? else m[a]?

private theorem foldl_list_keyStep {σ : Type} (proj : σ → StrMap γ) {step : σ → String → β → σ}
    {g : String → β → Option γ → Option γ}
    (h : ∀ s k v a, (proj (step s k v))[a]? = if k = a then g k v (proj s)[a]? else (proj s)[a]?)
    (a : String) :
    ∀ (l : List (String × β)) (s : σ), (l.map Prod.fst).Nodup →
      (∀ v, (a, v) ∈ l →
        (proj (l.foldl (fun s p => step s p.1 p.2) s))[a]? = g a v (proj s)[a]?) ∧
      ((∀ v, (a, v) ∉ l) → (proj (l.foldl (fun s p => step s p.1 p.2) s))[a]? = (proj s)[a]?)
  | [], s, _ => by simp
  | (k, w) :: rest, s, hn => by
    obtain ⟨hk, hn⟩ := List.nodup_cons.mp hn
    obtain ⟨ih, ih'⟩ := foldl_list_keyStep proj h a rest (step s k w) hn
    constructor
    · intro v hv
      rcases List.mem_cons.mp hv with he | hv
      · obtain ⟨rfl, rfl⟩ := Prod.mk.inj he
        have hfree : ∀ v, (a, v) ∉ rest := fun v hv => hk (List.mem_map.mpr ⟨_, hv, rfl⟩)
        rw [List.foldl_cons, ih' hfree, h, if_pos rfl]
      · have hne : k ≠ a := by
          intro he
          subst he
          exact hk (List.mem_map.mpr ⟨_, hv, rfl⟩)
        rw [List.foldl_cons, ih v hv, h, if_neg hne]
    · intro hfree
      have hne : k ≠ a := by
        intro he
        subst he
        exact hfree w List.mem_cons_self
      rw [List.foldl_cons, ih' (fun v hv => hfree v (List.mem_cons_of_mem _ hv)), h, if_neg hne]

/-- What a loop over the entries of `p` leaves in a map that its state holds:
one application of the step where `p` has the key, the old value elsewhere. -/
theorem getElem?_foldl_proj {σ : Type} (proj : σ → StrMap γ) {step : σ → String → β → σ}
    {g : String → β → Option γ → Option γ}
    (h : ∀ s k v a, (proj (step s k v))[a]? = if k = a then g k v (proj s)[a]? else (proj s)[a]?)
    (p : StrMap β) (s : σ) (a : String) :
    (proj (p.foldl step s))[a]? = match p[a]? with
      | some v => g a v (proj s)[a]?
      | none => (proj s)[a]? := by
  have hn : (p.toList.map Prod.fst).Nodup := by
    rw [Std.ExtTreeMap.map_fst_toList_eq_keys]
    exact Std.ExtTreeMap.nodup_keys
  obtain ⟨hs, hf⟩ := foldl_list_keyStep proj h a p.toList s hn
  rw [Std.ExtTreeMap.foldl_eq_foldl_toList]
  cases hp : p[a]? with
  | some v => exact hs v (Std.ExtTreeMap.mem_toList_iff_getElem?_eq_some.mpr hp)
  | none =>
    refine hf fun v hv => ?_
    rw [Std.ExtTreeMap.mem_toList_iff_getElem?_eq_some, hp] at hv
    cases hv

theorem getElem?_foldl {step : StrMap γ → String → β → StrMap γ}
    {g : String → β → Option γ → Option γ} (h : KeyStep step g)
    (p : StrMap β) (m : StrMap γ) (a : String) :
    (p.foldl step m)[a]? = match p[a]? with
      | some v => g a v m[a]?
      | none => m[a]? :=
  getElem?_foldl_proj id h p m a

/-- The same for a loop over the list of the entries. -/
theorem getElem?_foldl_toList {step : StrMap γ → String → β → StrMap γ}
    {g : String → β → Option γ → Option γ} (h : KeyStep step g)
    (p : StrMap β) (m : StrMap γ) (a : String) :
    (p.toList.foldl (fun m entry => step m entry.1 entry.2) m)[a]? = match p[a]? with
      | some v => g a v m[a]?
      | none => m[a]? := by
  rw [← getElem?_foldl h, Std.ExtTreeMap.foldl_eq_foldl_toList]

/-- What a loop over a list of keys leaves in a map that its state holds:
repeats change nothing when doing the step's work twice is doing it once. -/
theorem getElem?_foldl_keys_proj {σ : Type} (proj : σ → StrMap γ) {step : σ → String → σ}
    {g : String → Option γ → Option γ}
    (h : ∀ s k a, (proj (step s k))[a]? = if k = a then g k (proj s)[a]? else (proj s)[a]?)
    (idem : ∀ a x, g a (g a x) = g a x) (l : List String) (s : σ) (a : String) :
    (proj (l.foldl step s))[a]? = if a ∈ l then g a (proj s)[a]? else (proj s)[a]? := by
  induction l generalizing s with
  | nil => simp
  | cons k rest ih =>
    rw [List.foldl_cons, ih, h]
    by_cases hk : k = a
    · subst hk
      simp [idem]
    · by_cases hr : a ∈ rest <;> simp [hk, hr, Ne.symm hk]

theorem getElem?_foldl_keys {step : StrMap γ → String → StrMap γ}
    {g : String → Option γ → Option γ} (h : KeyOnly step g)
    (idem : ∀ a x, g a (g a x) = g a x) (l : List String) (m : StrMap γ) (a : String) :
    (l.foldl step m)[a]? = if a ∈ l then g a m[a]? else m[a]? :=
  getElem?_foldl_keys_proj id h idem l m a

/-- Inserting what is already there changes nothing. -/
theorem insert_of_getElem? {m : StrMap β} {k : String} {v : β} (h : m[k]? = some v) :
    m.insert k v = m := by
  apply Std.ExtTreeMap.ext_getElem?
  intro a
  rw [getElem?_insert]
  by_cases hk : k = a
  · subst hk
    rw [if_pos rfl, h]
  · rw [if_neg hk]

theorem lookup_eq_none_iff {l : List (String × β)} {k : String} :
    l.lookup k = none ↔ k ∉ l.map Prod.fst := by
  rw [List.lookup_eq_none_iff]
  constructor
  · intro h hmem
    obtain ⟨entry, hentry, rfl⟩ := List.mem_map.mp hmem
    exact bne_iff_ne.mp (h entry hentry) rfl
  · rintro h entry hentry
    refine bne_iff_ne.mpr ?_
    rintro rfl
    exact h (List.mem_map_of_mem hentry)

/-- In a list that has each key once, the entries are what lookups find. -/
theorem lookup_eq_some_iff_mem {l : List (String × β)} (hl : (l.map Prod.fst).Nodup) {k : String}
    {v : β} : l.lookup k = some v ↔ (k, v) ∈ l := by
  induction l with
  | nil => simp
  | cons entry rest ih =>
    obtain ⟨name, value⟩ := entry
    obtain ⟨hentry, hrest⟩ := List.nodup_cons.mp hl
    by_cases hk : k = name
    · subst hk
      have hfresh : (k, v) ∉ rest := fun hv => hentry (List.mem_map.mpr ⟨_, hv, rfl⟩)
      simp [hfresh, eq_comm]
    · simp [List.lookup_cons, hk, ih hrest, beq_eq_false_iff_ne.mpr hk]

/-- The list of entries is looked up like the map. -/
theorem lookup_toList (m : StrMap β) (k : String) : m.toList.lookup k = m[k]? := by
  have hkeys : (m.toList.map Prod.fst).Nodup := by
    rw [Std.ExtTreeMap.map_fst_toList_eq_keys]
    exact Std.ExtTreeMap.nodup_keys
  apply Option.ext
  intro v
  rw [lookup_eq_some_iff_mem hkeys, Std.ExtTreeMap.mem_toList_iff_getElem?_eq_some]

/-- Two maps that agree on which of the passing keys they have list them alike. -/
theorem filter_keys_congr {m : StrMap β} {m' : StrMap γ} {p : String → Bool}
    (h : ∀ k, p k = true → (k ∈ m ↔ k ∈ m')) : m.keys.filter p = m'.keys.filter p := by
  have hordered : (m.keys.filter p).Pairwise fun a b => compare a b = .lt :=
    Std.ExtTreeMap.ordered_keys.filter p
  have hordered' : (m'.keys.filter p).Pairwise fun a b => compare a b = .lt :=
    Std.ExtTreeMap.ordered_keys.filter p
  have hperm : (m.keys.filter p).Perm (m'.keys.filter p) := by
    rw [List.perm_ext_iff_of_nodup (Std.ExtTreeMap.nodup_keys.filter p)
      (Std.ExtTreeMap.nodup_keys.filter p)]
    intro k
    rw [List.mem_filter, List.mem_filter, Std.ExtTreeMap.mem_keys, Std.ExtTreeMap.mem_keys]
    exact and_congr_left (h k)
  refine hperm.eq_of_pairwise (fun a b _ _ hab hba => ?_) hordered hordered'
  rw [Std.OrientedCmp.gt_of_lt hba] at hab
  cases hab

/-- A map whose keys another has is no larger. -/
theorem size_le_of_subset {m : StrMap β} {m' : StrMap γ} (h : ∀ k ∈ m, k ∈ m') :
    m.size ≤ m'.size := by
  rw [← Std.ExtTreeMap.length_keys, ← Std.ExtTreeMap.length_keys]
  refine Std.ExtTreeMap.nodup_keys.length_le_of_subset fun k hk => ?_
  rw [Std.ExtTreeMap.mem_keys] at hk ⊢
  exact h k hk

/-- It has the same keys if it is as large. -/
theorem mem_of_size_le {m : StrMap β} {m' : StrMap γ} (h : ∀ k ∈ m, k ∈ m')
    (hsize : m'.size ≤ m.size) {k : String} (hk : k ∈ m') : k ∈ m := by
  have hsub : m.keys.Subperm m'.keys := by
    refine Std.ExtTreeMap.nodup_keys.subperm fun k hk => ?_
    rw [Std.ExtTreeMap.mem_keys] at hk ⊢
    exact h k hk
  have hperm : m.keys.Perm m'.keys := by
    refine hsub.perm_of_length_le ?_
    rw [Std.ExtTreeMap.length_keys, Std.ExtTreeMap.length_keys]
    exact hsize
  rw [← Std.ExtTreeMap.mem_keys] at hk ⊢
  exact hperm.mem_iff.mpr hk

theorem keyStep_insert : KeyStep (fun (m : StrMap β) k v => m.insert k v) fun _ v _ => some v :=
  fun m k v a => getElem?_insert m k a v

/-- The entry is made of the value and of what was there. -/
theorem keyStep_insertWith (f : β → Option γ → γ) :
    KeyStep (fun (m : StrMap γ) k v => m.insert k (f v m[k]?)) fun _ v old => some (f v old) := by
  intro m k v a
  rw [getElem?_insert]
  by_cases hk : k = a
  · rw [if_pos hk, if_pos hk, hk]
  · rw [if_neg hk, if_neg hk]

theorem keyOnly_erase : KeyOnly (fun (m : StrMap β) k => m.erase k) fun _ _ => none :=
  fun m k a => getElem?_erase m k a

/-- Inserting every entry of `p`: its value where it has the key. -/
theorem getElem?_insertAll (p m : StrMap β) (a : String) :
    (p.foldl (fun m k v => m.insert k v) m)[a]? = p[a]?.or m[a]? := by
  rw [getElem?_foldl keyStep_insert]
  cases p[a]? <;> rfl

/-- What has no key in common can be inserted in either order. -/
theorem insertAll_comm {p q : StrMap β} (h : ∀ a : String, p[a]? = none ∨ q[a]? = none)
    (m : StrMap β) :
    q.foldl (fun m k v => m.insert k v) (p.foldl (fun m k v => m.insert k v) m) =
      p.foldl (fun m k v => m.insert k v) (q.foldl (fun m k v => m.insert k v) m) := by
  apply Std.ExtTreeMap.ext_getElem?
  intro a
  simp only [getElem?_insertAll]
  obtain hp | hq := h a
  · simp [hp]
  · simp [hq]

end StrMap

/-- The entries of a map on the first numbers, in order. -/
theorem NatMap.toList_eq_range {β : Type} {m : Std.ExtTreeMap Nat β} {n : Nat}
    (h : ∀ k ∈ m, k < n) :
    m.toList = (List.range n).filterMap fun k => m[k]?.map fun v => (k, v) := by
  have hordered : m.toList.Pairwise fun a b => a.1 < b.1 :=
    Std.ExtTreeMap.ordered_keys_toList.imp fun hlt => Nat.compare_eq_lt.mp hlt
  have hrange : ((List.range n).filterMap fun k => m[k]?.map fun v => (k, v)).Pairwise
      fun a b => a.1 < b.1 := by
    refine List.pairwise_lt_range.filterMap _ fun k k' hlt a ha b hb => ?_
    obtain ⟨v, _, rfl⟩ := Option.map_eq_some_iff.mp ha
    obtain ⟨v', _, rfl⟩ := Option.map_eq_some_iff.mp hb
    exact hlt
  have hperm : m.toList.Perm ((List.range n).filterMap fun k => m[k]?.map fun v => (k, v)) := by
    rw [List.perm_ext_iff_of_nodup (hordered.imp fun hlt heq => by simp [heq] at hlt)
      (hrange.imp fun hlt heq => by simp [heq] at hlt)]
    intro (k, v)
    rw [Std.ExtTreeMap.mem_toList_iff_getElem?_eq_some, List.mem_filterMap]
    constructor
    · intro hv
      refine ⟨k, List.mem_range.mpr (h k ?_), by rw [hv, Option.map_some]⟩
      rw [Std.ExtTreeMap.mem_iff_isSome_getElem?, hv, Option.isSome_some]
    · intro hv
      obtain ⟨k', _, hk'⟩ := hv
      obtain ⟨v', hv', heq⟩ := Option.map_eq_some_iff.mp hk'
      obtain ⟨rfl, rfl⟩ := Prod.mk.inj heq
      exact hv'
  exact hperm.eq_of_pairwise (fun a b _ _ hab hba => absurd hab (Nat.lt_asymm hba)) hordered hrange

import UnifiedApi.Domain.KeptPaths

/-! # What `exclude_fields` removes

A name that is a key of the variables is that key, and removing it leaves what is
nested at the same path. Named a second time, or where there is no such key, it is
a path and removes what is nested there. -/

namespace UnifiedApi

namespace VarPath
open Json

/-! ## One path -/

/-- The variables after what is at `path` was removed, seen from every path. -/
structure Removed (before after : HostVars) (path : List String) : Prop where
  below : ∀ more, walk after (path ++ more) = none
  above : ∀ init more, init ≠ [] → more ≠ [] → path = init ++ more →
    walk after init = (walk before init).map (removePath · more)
  apart : ∀ other, ¬ path <+: other → ¬ other <+: path → walk after other = walk before other

/-- Removing a path takes away what is at it or below it, and nothing else. -/
theorem Removed.walk_eq_none {before after : HostVars} {path : List String}
    (h : Removed before after path) (other : List String) :
    walk after other = none ↔ walk before other = none ∨ path <+: other := by
  by_cases hother : other = []
  · subst hother
    exact iff_of_true rfl (.inl rfl)
  · obtain ⟨more, rfl⟩ | ⟨more, hmore, heq⟩ | ⟨hapart, hapart'⟩ := prefix_trichotomy path other
    · exact iff_of_true (h.below more) (.inr (List.prefix_append path more))
    · have hnot : ¬ path <+: other := by
        intro h
        obtain ⟨rest, hrest⟩ := h
        have hlength := congrArg List.length hrest
        rw [heq, List.length_append, List.length_append] at hlength
        have := List.length_pos_of_ne_nil hmore
        omega
      rw [h.above other more hother hmore heq, Option.map_eq_none_iff, or_iff_left hnot]
    · rw [h.apart other hapart hapart', or_iff_left hapart]

/-- A value that is no object is there only if it was there. -/
theorem Removed.walk_leaf {before after : HostVars} {path other : List String} {value : Json}
    (h : Removed before after path) (hwalk : walk after other = some value)
    (hvalue : value.isObject = false) : walk before other = some value := by
  have hother := ne_nil_of_walk hwalk
  obtain ⟨more, rfl⟩ | ⟨more, hmore, heq⟩ | ⟨hapart, hapart'⟩ := prefix_trichotomy path other
  · rw [h.below more] at hwalk
    cases hwalk
  · rw [h.above other more hother hmore heq] at hwalk
    obtain ⟨whole, hwhole, rfl⟩ := Option.map_eq_some_iff.mp hwalk
    rw [isObject_removePath] at hvalue
    rw [hwhole, removePath_of_not_object hvalue]
  · rw [← h.apart other hapart hapart', hwalk]

theorem removed_root {vars : HostVars} {after : HostVars} {root : String}
    (hafter : ∀ name : String, after[name]? = if root = name then none else vars[name]?) :
    Removed vars after [root] where
  below more := by rw [List.singleton_append, walk, hafter, if_pos rfl, Option.bind_none]
  above init more hinit hmore h := (not_split hinit hmore h).elim
  apart other h h' := by
    cases other with
    | nil => exact absurd List.nil_prefix h'
    | cons name rest =>
      rw [walk, hafter, if_neg, walk]
      intro h
      obtain rfl := h
      exact h (List.prefix_append [root] rest)

theorem removed_below {vars : HostVars} {root : String} {rest : List String} {value : Json}
    (hrest : rest ≠ []) (hvalue : vars[root]? = some value) :
    Removed vars (vars.insert root (removePath value rest)) (root :: rest) where
  below more := by rw [List.cons_append, walk_insert, if_pos rfl, walk_removePath_below hrest]
  above init more hinit hmore h := by
    cases init with
    | nil => exact absurd rfl hinit
    | cons name init =>
      obtain ⟨rfl, rfl⟩ : root = name ∧ rest = init ++ more := List.cons.inj h
      rw [walk_insert, if_pos rfl, walk_removePath_above hmore, walk, hvalue, Option.bind_some]
  apart other h h' := by
    cases other with
    | nil => exact absurd List.nil_prefix h'
    | cons name other =>
      rw [walk_insert]
      split
      · rename_i hname
        subst hname
        have hapart : ¬ rest <+: other := fun hp => h (List.cons_prefix_cons.mpr ⟨rfl, hp⟩)
        have hapart' : ¬ other <+: rest := fun hp => h' (List.cons_prefix_cons.mpr ⟨rfl, hp⟩)
        rw [walk_removePath_apart hapart hapart', walk, hvalue, Option.bind_some]
      · rfl

/-- Nothing is at the path. -/
theorem removed_nothing {vars : HostVars} {root : String} (h : vars[root]? = none)
    (rest : List String) : Removed vars vars (root :: rest) where
  below more := by rw [List.cons_append, walk, h, Option.bind_none]
  above init more hinit _ heq := by
    cases init with
    | nil => exact absurd rfl hinit
    | cons name init =>
      obtain ⟨rfl, _⟩ : root = name ∧ rest = init ++ more := List.cons.inj heq
      rw [walk, h]
      rfl
  apart _ _ _ := rfl

theorem dropPath_removed (vars : HostVars) (path : String) :
    Removed vars (dropPath vars path) (location vars path) := by
  unfold dropPath location
  split
  · exact removed_root (StrMap.getElem?_erase vars path)
  · rename_i hkey
    cases hsegments : segments path with
    | nil => exact absurd hsegments (segments_ne_nil path)
    | cons root rest =>
      cases rest with
      | nil =>
        rw [eq_of_segments_eq hsegments]
        refine removed_nothing ?_ []
        cases hvalue : vars[path]? with
        | none => rfl
        | some value =>
          exact absurd (Std.ExtTreeMap.contains_iff_mem.mpr (StrMap.mem_of_some hvalue)) hkey
      | cons next rest =>
        dsimp only
        cases hvalue : vars[root]? with
        | none => exact removed_nothing hvalue (next :: rest)
        | some value => exact removed_below (List.cons_ne_nil _ _) hvalue

theorem dropPath_key (vars : HostVars) (path name : String) :
    (dropPath vars path)[name]? = none ↔ vars[name]? = none ∨ name = path := by
  have h := (dropPath_removed vars path).walk_eq_none [name]
  rw [walk_singleton, walk_singleton] at h
  rw [h]
  constructor
  · intro h
    obtain hnone | hprefix := h
    · exact .inl hnone
    · unfold location at hprefix
      split at hprefix
      · exact .inr (List.cons_prefix_cons.mp hprefix).1.symm
      · obtain ⟨more, hmore⟩ := hprefix
        have hone : segments path = [name] := by
          cases hsegments : segments path with
          | nil => exact absurd hsegments (segments_ne_nil path)
          | cons root rest =>
            rw [hsegments] at hmore
            obtain ⟨rfl, hrest⟩ := List.cons.inj hmore
            rw [(List.append_eq_nil_iff.mp hrest).1]
        exact .inr (eq_of_segments_eq hone)
  · intro h
    obtain hnone | rfl := h
    · exact .inl hnone
    · cases hkey : vars[name]? with
      | none => exact .inl rfl
      | some value =>
        rw [location_of_some hkey]
        exact .inr (List.prefix_refl _)

/-! ## All of them -/

/-- Excluding the paths `drop` reaches `path`: a key on the way to it is named, or
a path at or above it that is no key or was named before. -/
def Reached (vars : HostVars) (drop : List String) (path : List String) : Prop :=
  ∃ name ∈ drop, [name] <+: path ∨
    segments name <+: path ∧ (vars[name]? = none ∨ 2 ≤ drop.count name)

theorem reached_cons (vars : HostVars) (name : String) (rest path : List String) :
    walk vars path = none ∨ Reached vars (name :: rest) path ↔
      (walk vars path = none ∨ location vars name <+: path) ∨
        Reached (dropPath vars name) rest path := by
  constructor
  · intro h
    obtain hnone | ⟨other, hother, hreached⟩ := h
    · exact .inl (.inl hnone)
    · by_cases hrest : other ∈ rest
      · refine .inr ⟨other, hrest, hreached.imp_right fun h => ⟨h.1, ?_⟩⟩
        have hkey := h.2
        rw [dropPath_key]
        by_cases heq : other = name
        · exact .inl (.inr heq)
        · rw [List.count_cons_of_ne (Ne.symm heq)] at hkey
          exact hkey.imp_left .inl
      · obtain rfl := (List.mem_cons.mp hother).resolve_right hrest
        rw [List.count_cons_self, List.count_eq_zero_of_not_mem hrest] at hreached
        cases hkey : vars[other]? with
        | none =>
          obtain ⟨more, rfl⟩ | ⟨hpath, _⟩ := hreached
          · exact .inl (.inl (by rw [List.singleton_append, walk, hkey, Option.bind_none]))
          · exact .inl (.inr (by rwa [location_of_none hkey]))
        | some value =>
          obtain hpath | ⟨_, hnone | htwice⟩ := hreached
          · exact .inl (.inr (by rwa [location_of_some hkey]))
          · rw [hkey] at hnone
            cases hnone
          · omega
  · intro h
    obtain (hnone | hpath) | ⟨other, hother, hreached⟩ := h
    · exact .inl hnone
    · refine .inr ⟨name, List.mem_cons_self, ?_⟩
      cases hkey : vars[name]? with
      | none => exact .inr ⟨by rwa [location_of_none hkey] at hpath, .inl rfl⟩
      | some value => exact .inl (by rwa [location_of_some hkey] at hpath)
    · refine .inr ⟨other, List.mem_cons_of_mem _ hother, hreached.imp_right fun h => ⟨h.1, ?_⟩⟩
      have hkey := h.2
      rw [dropPath_key] at hkey
      obtain (hnone | rfl) | htwice := hkey
      · exact .inl hnone
      · have hpos := List.count_pos_iff.mpr hother
        rw [List.count_cons_self]
        exact .inr (by omega)
      · exact .inr (htwice.trans List.count_le_count_cons)

theorem walk_dropPaths_eq_none (vars : HostVars) (drop path : List String) :
    walk (dropPaths vars drop) path = none ↔ walk vars path = none ∨ Reached vars drop path := by
  induction drop generalizing vars with
  | nil =>
    refine (or_iff_left ?_).symm
    intro h
    obtain ⟨name, hname, _⟩ := h
    cases hname
  | cons name rest ih =>
    rw [reached_cons, ← (dropPath_removed vars name).walk_eq_none, ← ih]
    rfl

theorem walk_dropPaths_leaf {vars : HostVars} {drop path : List String} {value : Json}
    (h : walk (dropPaths vars drop) path = some value) (hvalue : value.isObject = false) :
    walk vars path = some value := by
  induction drop generalizing vars with
  | nil => exact h
  | cons name rest ih => exact (dropPath_removed vars name).walk_leaf (ih h) hvalue

/-- An excluded name is no key of what is left. -/
theorem dropPaths_key {drop : List String} {name : String} (h : name ∈ drop) (vars : HostVars) :
    (dropPaths vars drop)[name]? = none := by
  rw [← walk_singleton, walk_dropPaths_eq_none]
  exact .inr ⟨name, h, .inl (List.prefix_refl _)⟩

/-- What an excluded path finds in the end. -/
theorem lookup_dropPaths_eq_none {drop : List String} {name : String} (h : name ∈ drop)
    (vars : HostVars) : lookup (dropPaths vars drop) name = none ↔
      walk vars (segments name) = none ∨ Reached vars drop (segments name) := by
  rw [lookup_eq, dropPaths_key h, Option.none_or, walk_dropPaths_eq_none]

/-! ## A second time -/

theorem dropPath_of_none {vars : HostVars} (hvars : CanonicalVars vars) {path : String}
    (h : lookup vars path = none) : dropPath vars path = vars := by
  obtain ⟨hkey, hwalk⟩ := Option.or_eq_none_iff.mp ((lookup_eq vars path).symm.trans h)
  have hcontains : ¬ vars.contains path = true := fun hmem =>
    StrMap.not_mem_of_none hkey (Std.ExtTreeMap.contains_iff_mem.mp hmem)
  rw [dropPath, if_neg hcontains]
  split
  · rename_i root next rest hsegments
    cases hvalue : vars[root]? with
    | none => rfl
    | some value =>
      rw [hsegments, walk, hvalue, Option.bind_some] at hwalk
      dsimp only
      rw [removePath_of_walk (hvars root value hvalue) hwalk, StrMap.insert_of_getElem? hvalue]
  · rfl

theorem dropPaths_of_none {vars : HostVars} (hvars : CanonicalVars vars) {drop : List String}
    (h : ∀ name ∈ drop, lookup vars name = none) : dropPaths vars drop = vars := by
  unfold dropPaths
  induction drop with
  | nil => rfl
  | cons name rest ih =>
    rw [List.foldl_cons, dropPath_of_none hvars (h name List.mem_cons_self)]
    exact ih fun other hother => h other (List.mem_cons_of_mem _ hother)

theorem canonical_dropPaths {vars : HostVars} (hvars : CanonicalVars vars) (drop : List String) :
    CanonicalVars (dropPaths vars drop) := by
  unfold dropPaths
  induction drop generalizing vars with
  | nil => exact hvars
  | cons name rest ih =>
    refine ih ?_
    unfold dropPath
    split
    · intro other value hvalue
      rw [StrMap.getElem?_erase] at hvalue
      split at hvalue
      · cases hvalue
      · exact hvars other value hvalue
    · split
      · split
        · rename_i value hvalue
          exact canonical_insert hvars (canonical_removePath (hvars _ value hvalue))
        · exact hvars
      · exact hvars

/-- A second time changes nothing exactly when every excluded path finds nothing. -/
theorem dropPaths_again_iff {vars : HostVars} (hvars : CanonicalVars vars) (drop : List String) :
    dropPaths (dropPaths vars drop) drop = dropPaths vars drop ↔
      ∀ name ∈ drop, lookup (dropPaths vars drop) name = none := by
  constructor
  · intro h name hname
    rw [← h, lookup_dropPaths_eq_none hname]
    exact .inr ⟨name, hname, .inr ⟨List.prefix_refl _, .inl (dropPaths_key hname vars)⟩⟩
  · exact dropPaths_of_none (canonical_dropPaths hvars drop)

end VarPath

/-! ## The selection -/

namespace VarSelect
open VarPath

/-- What `exclude_fields` is applied to. -/
def kept (select : VarSelect) (vars : HostVars) : HostVars :=
  match select.keep with
  | none => vars
  | some paths => keepPaths vars paths

theorem host_eq (select : VarSelect) (vars : HostVars) :
    select.host vars = dropPaths (select.kept vars) select.drop := by
  unfold host kept
  cases select.keep <;> rfl

/-- Where an excluded path finds nothing, a second selection has only `fields` to do. -/
theorem host_twice {select : VarSelect} {vars : HostVars} (hvars : CanonicalVars (select.host vars))
    {paths : List String} (hkeep : select.keep = some paths)
    (hgone : ∀ name ∈ select.drop, lookup (select.host vars) name = none) :
    select.host (select.host vars) = keepPaths (select.host vars) paths := by
  have hkept : Kept (select.host vars) paths (keepPaths (select.host vars) paths) :=
    (kept_nothing (select.host vars)).keepPaths hvars paths
  rw [host_eq, kept, hkeep]
  refine dropPaths_of_none (canonical_keepPaths hvars paths) fun name hname => ?_
  obtain ⟨hkey, hwalk⟩ := Option.or_eq_none_iff.mp ((lookup_eq _ name).symm.trans
    (hgone name hname))
  have hkey' := hkept.within.none ((walk_singleton _ name).trans hkey)
  rw [walk_singleton] at hkey'
  rw [lookup_eq]
  exact Option.or_eq_none_iff.mpr ⟨hkey', hkept.within.none hwalk⟩

/-- A path that still finds something is looked for where it was. -/
theorem location_dropPaths {vars : HostVars} (hvars : CanonicalVars vars)
    {paths drop more : List String} {path : String} {value : Json}
    (h : walk (dropPaths (keepPaths vars paths) drop) (location vars path ++ more) = some value) :
    location (dropPaths (keepPaths vars paths) drop) path = location vars path := by
  cases hkey : vars[path]? with
  | some top =>
    rw [location_of_some hkey, List.singleton_append] at h
    obtain ⟨top', htop', _⟩ := Option.bind_eq_some_iff.mp h
    rw [location_of_some hkey, location_of_some htop']
  | none =>
    have hnone := ((kept_nothing vars).keepPaths hvars paths).within.none
      ((walk_singleton vars path).trans hkey)
    have hgone : (dropPaths (keepPaths vars paths) drop)[path]? = none := by
      rw [← walk_singleton, walk_dropPaths_eq_none]
      exact .inl hnone
    rw [location_of_none hkey, location_of_none hgone]

/-- Once every excluded path finds nothing, selecting again keeps every value that
is no object where it is, and everything that `fields` names. -/
theorem host_again {select : VarSelect} {vars : HostVars} (hvars : CanonicalVars vars)
    {paths : List String} (hkeep : select.keep = some paths)
    (hgone : ∀ name ∈ select.drop, lookup (select.host vars) name = none) :
    (∀ path ∈ paths,
      lookup (select.host (select.host vars)) path = lookup (select.host vars) path) ∧
    ∀ path value, value.isObject = false →
      (walk (select.host (select.host vars)) path = some value ↔
        walk (select.host vars) path = some value) := by
  have honce : select.host vars = dropPaths (keepPaths vars paths) select.drop := by
    rw [host_eq, kept, hkeep]
  have hcanonical : CanonicalVars (select.host vars) := by
    rw [honce]
    exact canonical_dropPaths (canonical_keepPaths hvars paths) _
  have hagain := keepPaths_kept hcanonical paths
  rw [host_twice hcanonical hkeep hgone]
  refine ⟨hagain.1, fun path value hvalue =>
    ⟨fun h => (hagain.2 path value h hvalue).1, fun h => ?_⟩⟩
  rw [honce] at h
  obtain ⟨listed, hlisted, more, rfl⟩ :=
    ((keepPaths_kept hvars paths).2 path value (walk_dropPaths_leaf h hvalue) hvalue).2
  have hlocation := location_dropPaths hvars h
  rw [← honce] at h hlocation
  have hkept : Kept (select.host vars) paths (keepPaths (select.host vars) paths) :=
    (kept_nothing (select.host vars)).keepPaths hcanonical paths
  have hne := location_ne_nil vars listed
  rw [walk_append _ hne] at h ⊢
  obtain ⟨whole, hwhole, hmore⟩ := Option.bind_eq_some_iff.mp h
  rw [← hlocation] at hwhole ⊢
  rw [hkept.copied listed hlisted whole hwhole, Option.bind_some, hmore]

/-- What is left of a host's and of a group's variables at an excluded path, and
what a second selection does to them. -/
theorem exclude_fields_drops (select : VarSelect) {vars : HostVars} (hvars : CanonicalVars vars) :
    (∀ name ∈ select.drop,
      (select.host vars)[name]? = none ∧ (select.groupVars vars)[name]? = none ∧
      (lookup (select.host vars) name = none ↔ walk (select.kept vars) (segments name) = none ∨
        Reached (select.kept vars) select.drop (segments name)) ∧
      (lookup (select.groupVars vars) name = none ↔ walk vars (segments name) = none ∨
        Reached vars select.drop (segments name))) ∧
    (select.groupVars (select.groupVars vars) = select.groupVars vars ↔
      ∀ name ∈ select.drop, lookup (select.groupVars vars) name = none) ∧
    (select.keep = none → (select.host (select.host vars) = select.host vars ↔
      ∀ name ∈ select.drop, lookup (select.host vars) name = none)) ∧
    ∀ paths, select.keep = some paths →
      (∀ name ∈ select.drop, lookup (select.host vars) name = none) →
        (∀ path ∈ paths,
          lookup (select.host (select.host vars)) path = lookup (select.host vars) path) ∧
        ∀ path value, value.isObject = false →
          (walk (select.host (select.host vars)) path = some value ↔
            walk (select.host vars) path = some value) := by
  refine ⟨fun name hname => ?_, dropPaths_again_iff hvars select.drop, fun hkeep => ?_,
    fun paths hkeep hgone => host_again hvars hkeep hgone⟩
  · rw [host_eq, groupVars]
    exact ⟨dropPaths_key hname _, dropPaths_key hname _, lookup_dropPaths_eq_none hname _,
      lookup_dropPaths_eq_none hname _⟩
  · have hhost : ∀ vars, select.host vars = dropPaths vars select.drop := by
      intro vars
      rw [host_eq, kept, hkeep]
    rw [hhost, hhost]
    exact dropPaths_again_iff hvars select.drop

/-- A key with a dot, and a value nested at the same path. -/
def shadowed : HostVars :=
  ((∅ : HostVars).insert "a.b" (.string "literal")).insert "a" (.object [("b", .string "nested")])

theorem shadowed_canonical : CanonicalVars shadowed := by
  refine canonical_insert (canonical_insert (fun name value h => ?_) (.string "literal"))
    (.object (by decide) (by simp [Json.Canonical.string]))
  rw [Std.ExtTreeMap.getElem?_empty] at h
  cases h

theorem shadowed_drops : (VarSelect.host ⟨none, ["a.b"]⟩ shadowed)["a.b"]? = none :=
  ((exclude_fields_drops ⟨none, ["a.b"]⟩ shadowed_canonical).1 "a.b" (by decide)).1

/-- The selection that empties the object on the way to what it keeps. -/
def emptying : VarSelect := ⟨some ["a.b"], ["a.b"]⟩

def nested : HostVars := (∅ : HostVars).insert "a" (.object [("b", .string "nested")])

theorem shadowed_found :
    (¬ ∀ (select : VarSelect) (vars : HostVars), CanonicalVars vars →
      ∀ name ∈ select.drop, lookup (select.host vars) name = none) ∧
    ¬ ∀ (select : VarSelect) (vars : HostVars), CanonicalVars vars →
      (∀ name ∈ select.drop, lookup (select.host vars) name = none) →
      select.host (select.host vars) = select.host vars := by
  constructor
  · intro h
    have hgone := h ⟨none, ["a.b"]⟩ shadowed shadowed_canonical "a.b" (by decide)
    have hfound : lookup (VarSelect.host ⟨none, ["a.b"]⟩ shadowed) "a.b" =
        some (.string "nested") := by decide +kernel
    rw [hfound] at hgone
    cases hgone
  · intro h
    have hcanonical : CanonicalVars nested := by
      refine canonical_insert (fun name value h => ?_)
        (.object (by decide) (by simp [Json.Canonical.string]))
      rw [Std.ExtTreeMap.getElem?_empty] at h
      cases h
    have hagain := congrArg (·["a"]?) (h emptying nested hcanonical (by decide +kernel))
    revert hagain
    decide +kernel

end VarSelect

end UnifiedApi

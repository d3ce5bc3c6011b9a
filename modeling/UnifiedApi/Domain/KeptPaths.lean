import UnifiedApi.Domain.JsonPaths

/-! # What `fields` keeps

Each path is inserted into what the earlier ones left. Everything that was
inserted before came from the same variables, so nothing is ever in the way, and
what a later path adds is what the earlier ones would have found there. -/

namespace UnifiedApi

/-- Variables as `serde_json` can hold them. -/
def CanonicalVars (vars : HostVars) : Prop :=
  ∀ (name : String) (value : Json), vars[name]? = some value → value.Canonical

namespace VarPath
open Json

/-! ## Walking into variables -/

def walk (vars : HostVars) : List String → Option Json
  | [] => none
  | root :: rest => vars[root]?.bind (·.walk rest)

@[simp] theorem walk_singleton (vars : HostVars) (root : String) :
    walk vars [root] = vars[root]? := by
  rw [walk]
  cases vars[root]? <;> rfl

theorem walk_append (vars : HostVars) {path : List String} (hpath : path ≠ [])
    (more : List String) : walk vars (path ++ more) = (walk vars path).bind (·.walk more) := by
  cases path with
  | nil => exact absurd rfl hpath
  | cons root rest =>
    rw [List.cons_append, walk, walk]
    cases vars[root]? with
    | none => rfl
    | some value => exact Json.walk_append value rest more

theorem segments_ne_nil (path : String) : segments path ≠ [] := by
  unfold segments
  simp

/-- The segments with dots between them are the path. -/
theorem intercalate_segments (path : String) :
    ['.'].intercalate ((segments path).map String.toList) = path.toList := by
  have hchars : (segments path).map String.toList = path.toList.splitOn '.' := by
    unfold segments
    simp [Function.comp_def]
  rw [hchars, List.intercalate_splitOn]

theorem eq_of_segments_eq {path root : String} (h : segments path = [root]) : root = path := by
  have hchars := intercalate_segments path
  rw [h] at hchars
  exact String.toList_inj.mp (by simpa using hchars)

theorem lookup_eq (vars : HostVars) (path : String) :
    lookup vars path = vars[path]?.or (walk vars (segments path)) := by
  unfold lookup
  cases segments path <;> rfl

/-- Where `lookup` looks: a key of that very name comes first. -/
def location (vars : HostVars) (path : String) : List String :=
  if vars.contains path then [path] else segments path

theorem location_of_some {vars : HostVars} {path : String} {value : Json}
    (h : vars[path]? = some value) : location vars path = [path] :=
  if_pos (Std.ExtTreeMap.contains_iff_mem.mpr (StrMap.mem_of_some h))

theorem location_of_none {vars : HostVars} {path : String} (h : vars[path]? = none) :
    location vars path = segments path :=
  if_neg fun hmem => StrMap.not_mem_of_none h (Std.ExtTreeMap.contains_iff_mem.mp hmem)

theorem location_ne_nil (vars : HostVars) (path : String) : location vars path ≠ [] := by
  unfold location
  split
  · exact List.cons_ne_nil _ _
  · exact segments_ne_nil path

theorem lookup_eq_walk (vars : HostVars) (path : String) :
    lookup vars path = walk vars (location vars path) := by
  rw [lookup_eq]
  cases h : vars[path]? with
  | none => rw [location_of_none h, Option.none_or]
  | some value => rw [location_of_some h, walk_singleton, h, Option.some_or]

theorem canonical_walk {vars : HostVars} (hvars : CanonicalVars vars) {path : List String}
    {value : Json} (h : walk vars path = some value) : value.Canonical := by
  cases path with
  | nil => cases h
  | cons root rest =>
    obtain ⟨top, htop, hvalue⟩ := Option.bind_eq_some_iff.mp h
    exact (hvars root top htop).walk hvalue

theorem canonical_insert {vars : HostVars} (hvars : CanonicalVars vars) {root : String}
    {value : Json} (hvalue : value.Canonical) : CanonicalVars (vars.insert root value) := by
  intro name found hfound
  rw [StrMap.getElem?_insert] at hfound
  split at hfound
  · exact Option.some.inj hfound ▸ hvalue
  · exact hvars name found hfound

/-! ## One insertion -/

/-- The variables after `value` was inserted at `path`, seen from every path. -/
structure Inserted (before after : HostVars) (path : List String) (value : Json) : Prop where
  below : ∀ more, walk after (path ++ more) = value.walk more
  above : ∀ init more, init ≠ [] → more ≠ [] → path = init ++ more →
    walk after init = some (insertPath ((walk before init).getD (.object [])) more value)
  apart : ∀ other, ¬ path <+: other → ¬ other <+: path → walk after other = walk before other

theorem walk_insert (vars : HostVars) (root name : String) (value : Json) (rest : List String) :
    walk (vars.insert root value) (name :: rest) =
      if root = name then value.walk rest else walk vars (name :: rest) := by
  rw [walk, StrMap.getElem?_insert]
  split <;> rfl

/-- A path of one key has nothing above it. -/
theorem not_split {root : String} {init more : List String} (hinit : init ≠ [])
    (hmore : more ≠ []) : [root] ≠ init ++ more := by
  intro h
  have hlength := congrArg List.length h
  rw [List.length_append, List.length_singleton] at hlength
  have := List.length_pos_of_ne_nil hinit
  have := List.length_pos_of_ne_nil hmore
  omega

theorem ne_nil_of_walk {vars : HostVars} {path : List String} {value : Json}
    (h : walk vars path = some value) : path ≠ [] := by
  rintro rfl
  cases h

theorem inserted_root (vars : HostVars) (root : String) (value : Json) :
    Inserted vars (vars.insert root value) [root] value where
  below more := by rw [List.singleton_append, walk_insert, if_pos rfl]
  above init more hinit hmore h := (not_split hinit hmore h).elim
  apart other h h' := by
    cases other with
    | nil => exact absurd List.nil_prefix h'
    | cons name rest =>
      rw [walk_insert, if_neg]
      rintro rfl
      exact h (List.prefix_append [root] rest)

theorem inserted_below {vars : HostVars} {root : String} {rest : List String}
    (hrest : rest ≠ []) (hopen : Open rest (vars[root]?.getD (.object []))) (value : Json) :
    Inserted vars (vars.insert root (insertPath (vars[root]?.getD (.object [])) rest value))
      (root :: rest) value where
  below more := by
    rw [List.cons_append, walk_insert, if_pos rfl, walk_insertPath_below hopen hrest]
  above init more hinit hmore h := by
    cases init with
    | nil => exact absurd rfl hinit
    | cons name init =>
      obtain ⟨rfl, rfl⟩ : root = name ∧ rest = init ++ more := List.cons.inj h
      rw [walk_insert, if_pos rfl, walk_insertPath_above hopen hmore, walk]
      cases vars[root]? with
      | none => cases init <;> rfl
      | some top => rfl
  apart other h h' := by
    cases other with
    | nil => exact absurd List.nil_prefix h'
    | cons name other =>
      rw [walk_insert]
      split
      · rename_i hname
        subst hname
        have hapart : ¬ rest <+: other := fun hp => h (List.cons_prefix_cons.mpr ⟨rfl, hp⟩)
        have hapart' : ¬ other <+: rest := fun hp => h' (List.cons_prefix_cons.mpr ⟨rfl, hp⟩)
        rw [walk_insertPath_apart hapart hapart', walk]
        cases vars[root]? with
        | none =>
          cases other with
          | nil => exact absurd List.nil_prefix hapart'
          | cons next below => rfl
        | some top => rfl
      · rfl

/-! ## One path of `fields` -/

/-- What is in `kept` is what `actual` has there, except that an object may lack
some of its fields. -/
def Within (actual kept : List String → Option Json) : Prop :=
  ∀ path value, kept path = some value → ∃ whole, actual path = some whole ∧
    (value = whole ∨ value.isObject = true ∧ whole.isObject = true)

theorem Within.none {actual kept : List String → Option Json} (h : Within actual kept)
    {path : List String} (hnone : actual path = none) : kept path = none := by
  cases hkept : kept path with
  | none => rfl
  | some value =>
    obtain ⟨whole, hwhole, _⟩ := h path value hkept
    rw [hnone] at hwhole
    cases hwhole

/-- Where the variables can be walked, nothing in `kept` is in the way. -/
theorem open_of_within {actual kept value : Json} {path : List String}
    (h : Within actual.walk kept.walk) (hvalue : actual.walk path = some value) :
    Open path kept := by
  induction path generalizing actual kept with
  | nil => trivial
  | cons name rest ih =>
    have hactual := isObject_of_walk (List.cons_ne_nil _ _) hvalue
    obtain ⟨whole, hwhole, hkept⟩ := h [] kept rfl
    obtain rfl := Option.some.inj hwhole
    refine ⟨?_, fun child hchild => ?_⟩
    · obtain rfl | ⟨hobject, _⟩ := hkept
      · exact hactual
      · exact hobject
    · obtain ⟨below, hbelow, hrest⟩ := Option.bind_eq_some_iff.mp hvalue
      refine ih (fun path value hpath => ?_) hrest
      have hfound := h (name :: path) value (by rw [walk_cons, hchild, Option.bind_some, hpath])
      rwa [walk_cons, hbelow, Option.bind_some] at hfound

theorem keepPath_of_none {vars : HostVars} {path : String} (out : HostVars)
    (h : lookup vars path = none) : keepPath vars out path = out := by
  have hkey : vars[path]? = none := by
    rw [lookup_eq] at h
    exact (Option.or_eq_none_iff.mp h).1
  rw [keepPath, hkey, h]

theorem canonical_keepPaths {vars : HostVars} (hvars : CanonicalVars vars) (paths : List String) :
    CanonicalVars (keepPaths vars paths) := by
  have hfold : ∀ (out : HostVars), CanonicalVars out →
      CanonicalVars (paths.foldl (keepPath vars) out) := by
    induction paths with
    | nil => exact fun out hout => hout
    | cons path rest ih =>
      intro out hout
      refine ih _ ?_
      unfold keepPath
      split
      · rename_i value hvalue
        exact canonical_insert hout (hvars path value hvalue)
      · split
        · rename_i value root rest hvalue hsegments
          rw [lookup_eq_walk] at hvalue
          have hcanonical := canonical_walk hvars hvalue
          split
          · exact canonical_insert hout (canonical_insertPath canonical_empty hcanonical)
          · rename_i kept hkept
            split
            · exact canonical_insert hout (canonical_insertPath (hout root kept hkept) hcanonical)
            · exact hout
        · exact hout
  refine hfold ∅ fun name value hvalue => ?_
  rw [Std.ExtTreeMap.getElem?_empty] at hvalue
  cases hvalue

theorem keepPath_inserted {vars out : HostVars} {path : String} {value : Json}
    (hwithin : Within (walk vars) (walk out)) (h : lookup vars path = some value) :
    Inserted out (keepPath vars out path) (location vars path) value := by
  cases hkey : vars[path]? with
  | some top =>
    have htop : top = value := by
      rw [lookup_eq, hkey, Option.some_or] at h
      exact Option.some.inj h
    rw [keepPath, hkey, location_of_some hkey, htop]
    exact inserted_root out path value
  | none =>
    have hwalk : walk vars (segments path) = some value := by
      rw [lookup_eq, hkey, Option.none_or] at h
      exact h
    rw [location_of_none hkey]
    cases hsegments : segments path with
    | nil => exact absurd hsegments (segments_ne_nil path)
    | cons root rest =>
      rw [hsegments] at hwalk
      obtain ⟨top, htop, hvalue⟩ := Option.bind_eq_some_iff.mp hwalk
      have hrest : rest ≠ [] := by
        rintro rfl
        rw [eq_of_segments_eq hsegments, hkey] at htop
        cases htop
      have hopen : Open rest (out[root]?.getD (.object [])) := by
        cases hout : out[root]? with
        | none => exact open_empty rest
        | some kept =>
          refine open_of_within (fun path value hpath => ?_) hvalue
          have hfound := hwithin (root :: path) value (by rw [walk, hout]; exact hpath)
          rwa [walk, htop] at hfound
      have hkeep : keepPath vars out path =
          out.insert root (insertPath (out[root]?.getD (.object [])) rest value) := by
        rw [keepPath, hkey, h, hsegments]
        dsimp only
        cases hout : out[root]? with
        | none => rfl
        | some kept =>
          rw [hout, Option.getD_some] at hopen
          cases rest with
          | nil => exact absurd rfl hrest
          | cons next rest => exact if_pos hopen.1
      rw [hkeep]
      exact inserted_below hrest hopen value

/-! ## All of them -/

/-- What has been kept after the paths `done`. -/
structure Kept (vars : HostVars) (done : List String) (out : HostVars) : Prop where
  within : Within (walk vars) (walk out)
  named : ∀ path value, walk out path = some value → value.isObject = false →
    ∃ listed ∈ done, location vars listed <+: path
  copied : ∀ listed ∈ done, ∀ value, walk vars (location vars listed) = some value →
    walk out (location vars listed) = some value

theorem kept_nothing (vars : HostVars) : Kept vars [] ∅ where
  within path value h := by cases path <;> simp [walk] at h
  named path value h := by cases path <;> simp [walk] at h
  copied listed hlisted := by cases hlisted

/-- Two paths are one below the other or they part. -/
theorem prefix_trichotomy (path other : List String) :
    (∃ more, other = path ++ more) ∨ (∃ more, more ≠ [] ∧ path = other ++ more) ∨
      ¬ path <+: other ∧ ¬ other <+: path := by
  by_cases h : path <+: other
  · obtain ⟨more, rfl⟩ := h
    exact .inl ⟨more, rfl⟩
  · by_cases h' : other <+: path
    · obtain ⟨more, rfl⟩ := h'
      refine .inr (.inl ⟨more, ?_, rfl⟩)
      rintro rfl
      exact h (by simp)
    · exact .inr (.inr ⟨h, h'⟩)

/-- An object on the way to a path stays one, and the variables have one there. -/
theorem object_above {vars out : HostVars} {path other more : List String} {value : Json}
    (hwithin : Within (walk vars) (walk out)) (hvalue : walk vars path = some value)
    (hother : other ≠ []) (hmore : more ≠ []) (heq : path = other ++ more) :
    ∃ whole, walk vars other = some whole ∧ whole.isObject = true ∧
      ((walk out other).getD (.object [])).isObject = true := by
  subst heq
  rw [walk_append vars hother] at hvalue
  obtain ⟨whole, hwhole, hrest⟩ := Option.bind_eq_some_iff.mp hvalue
  have hobject := isObject_of_walk hmore hrest
  refine ⟨whole, hwhole, hobject, ?_⟩
  cases hout : walk out other with
  | none => rfl
  | some found =>
    obtain ⟨_, hfound, rfl | ⟨hkept, _⟩⟩ := hwithin other found hout
    · obtain rfl := Option.some.inj (hwhole.symm.trans hfound)
      exact hobject
    · exact hkept

namespace Inserted
variable {vars out after : HostVars} {path : List String} {value : Json}

/-- Inserting what the variables have there leaves a part of the variables. -/
theorem within (hins : Inserted out after path value) (hwithin : Within (walk vars) (walk out))
    (hvalue : walk vars path = some value) : Within (walk vars) (walk after) := by
  have hne := ne_nil_of_walk hvalue
  intro other found hfound
  obtain ⟨more, rfl⟩ | ⟨more, hmore, heq⟩ | ⟨hapart, hapart'⟩ := prefix_trichotomy path other
  · rw [hins.below] at hfound
    exact ⟨found, by rw [walk_append vars hne, hvalue, Option.bind_some, hfound], .inl rfl⟩
  · have hother := ne_nil_of_walk hfound
    obtain ⟨whole, hwhole, hobject, hkept⟩ := object_above hwithin hvalue hother hmore heq
    rw [hins.above other more hother hmore heq] at hfound
    obtain rfl := Option.some.inj hfound
    exact ⟨whole, hwhole, .inr ⟨by rw [isObject_insertPath, hkept], hobject⟩⟩
  · rw [hins.apart other hapart hapart'] at hfound
    exact hwithin other found hfound

/-- A value that is no object is at or below the path, or was there before. -/
theorem leaf (hins : Inserted out after path value) (hwithin : Within (walk vars) (walk out))
    (hvalue : walk vars path = some value) {other : List String} {found : Json}
    (hfound : walk after other = some found) (hleaf : found.isObject = false) :
    path <+: other ∨ walk out other = some found := by
  obtain ⟨more, rfl⟩ | ⟨more, hmore, heq⟩ | ⟨hapart, hapart'⟩ := prefix_trichotomy path other
  · exact .inl (List.prefix_append path more)
  · have hother := ne_nil_of_walk hfound
    obtain ⟨_, _, _, hkept⟩ := object_above hwithin hvalue hother hmore heq
    rw [hins.above other more hother hmore heq] at hfound
    obtain rfl := Option.some.inj hfound
    rw [isObject_insertPath, hkept] at hleaf
    cases hleaf
  · exact .inr (by rw [← hins.apart other hapart hapart', hfound])

/-- What was copied whole stays a whole copy. -/
theorem copied (hins : Inserted out after path value) (hvars : CanonicalVars vars)
    (hvalue : walk vars path = some value) {other : List String} {found : Json}
    (hfound : walk vars other = some found) (hcopied : walk out other = some found) :
    walk after other = some found := by
  have hne := ne_nil_of_walk hvalue
  have hother := ne_nil_of_walk hfound
  obtain ⟨more, rfl⟩ | ⟨more, hmore, heq⟩ | ⟨hapart, hapart'⟩ := prefix_trichotomy path other
  · rw [hins.below, ← hfound, walk_append vars hne, hvalue, Option.bind_some]
  · have hbelow : found.walk more = some value := by
      rw [heq, walk_append vars hother, hfound, Option.bind_some] at hvalue
      exact hvalue
    rw [hins.above other more hother hmore heq, hcopied, Option.getD_some,
      insertPath_of_walk (canonical_walk hvars hfound) hbelow]
  · rw [hins.apart other hapart hapart', hcopied]

end Inserted

theorem Kept.keepPath {vars : HostVars} {done : List String} {out : HostVars}
    (hvars : CanonicalVars vars) (h : Kept vars done out) (path : String) :
    Kept vars (done ++ [path]) (VarPath.keepPath vars out path) := by
  cases hlookup : lookup vars path with
  | none =>
    rw [keepPath_of_none out hlookup]
    refine ⟨h.within, fun path value hwalk hvalue => ?_, fun listed hlisted value hvalue => ?_⟩
    · obtain ⟨listed, hlisted, hbelow⟩ := h.named path value hwalk hvalue
      exact ⟨listed, List.mem_append_left _ hlisted, hbelow⟩
    · obtain hlisted | hlisted := List.mem_append.mp hlisted
      · exact h.copied listed hlisted value hvalue
      · obtain rfl := List.mem_singleton.mp hlisted
        rw [← lookup_eq_walk, hlookup] at hvalue
        cases hvalue
  | some value =>
    have hins := keepPath_inserted h.within hlookup
    rw [lookup_eq_walk] at hlookup
    refine ⟨hins.within h.within hlookup, ?_, ?_⟩
    · intro other found hfound hleaf
      obtain hbelow | hfound := hins.leaf h.within hlookup hfound hleaf
      · exact ⟨path, by simp, hbelow⟩
      · obtain ⟨listed, hlisted, hbelow⟩ := h.named other found hfound hleaf
        exact ⟨listed, List.mem_append_left _ hlisted, hbelow⟩
    · intro listed hlisted found hfound
      obtain hlisted | hlisted := List.mem_append.mp hlisted
      · exact hins.copied hvars hlookup hfound (h.copied listed hlisted found hfound)
      · obtain rfl := List.mem_singleton.mp hlisted
        have hself := hins.below []
        rw [List.append_nil] at hself
        rw [hself, ← hfound, hlookup, walk_nil]

theorem Kept.keepPaths {vars : HostVars} (hvars : CanonicalVars vars) {done : List String}
    {out : HostVars} (h : Kept vars done out) (paths : List String) :
    Kept vars (done ++ paths) (paths.foldl (VarPath.keepPath vars) out) := by
  induction paths generalizing done out with
  | nil => rwa [List.append_nil]
  | cons path rest ih =>
    have hstep := ih (h.keepPath hvars path)
    rwa [List.append_assoc, List.singleton_append] at hstep

/-- `fields` keeps what it names: every listed path finds what it found in the
variables, and whatever is no object lies at or below one and is unchanged. -/
theorem keepPaths_kept {vars : HostVars} (hvars : CanonicalVars vars) (paths : List String) :
    (∀ path ∈ paths, lookup (keepPaths vars paths) path = lookup vars path) ∧
    ∀ path value, walk (keepPaths vars paths) path = some value → value.isObject = false →
      walk vars path = some value ∧ ∃ listed ∈ paths, location vars listed <+: path := by
  have h : Kept vars paths (keepPaths vars paths) := (kept_nothing vars).keepPaths hvars paths
  refine ⟨fun path hpath => ?_, fun path value hwalk hvalue =>
    ⟨?_, h.named path value hwalk hvalue⟩⟩
  · cases hkey : vars[path]? with
    | some value =>
      have hwalk := h.copied path hpath value
      rw [location_of_some hkey, walk_singleton, walk_singleton] at hwalk
      rw [lookup_eq, hwalk hkey, lookup_eq, hkey, Option.some_or, Option.some_or]
    | none =>
      have hnone : (keepPaths vars paths)[path]? = none := by
        rw [← walk_singleton]
        exact h.within.none (by rw [walk_singleton, hkey])
      rw [lookup_eq, hnone, Option.none_or, lookup_eq, hkey, Option.none_or]
      cases hfound : walk vars (segments path) with
      | none => exact h.within.none hfound
      | some value =>
        have hwalk := h.copied path hpath value
        rw [location_of_none hkey] at hwalk
        exact hwalk hfound
  · obtain ⟨whole, hwhole, rfl | ⟨hobject, _⟩⟩ := h.within path value hwalk
    · exact hwhole
    · rw [hobject] at hvalue
      cases hvalue

/-- An object and a key with a dot, kept whole, in part and again. -/
def monitored : HostVars :=
  ((∅ : HostVars).insert "a.b" (.string "literal")).insert "monitor"
    (.object [("name", .string "motoko"), ("status", .string "UP")])

theorem monitored_canonical : CanonicalVars monitored := by
  intro name value h
  rw [monitored, StrMap.getElem?_insert, StrMap.getElem?_insert] at h
  split at h
  · obtain rfl := Option.some.inj h
    exact .object (by decide) (by simp [Json.Canonical.string])
  · split at h
    · obtain rfl := Option.some.inj h
      exact .string "literal"
    · rw [Std.ExtTreeMap.getElem?_empty] at h
      cases h

theorem monitored_kept :
    lookup (keepPaths monitored ["monitor.name", "a.b", "monitor", "monitor.name"]) "monitor.name" =
      lookup monitored "monitor.name" :=
  (keepPaths_kept monitored_canonical ["monitor.name", "a.b", "monitor", "monitor.name"]).1
    "monitor.name" (by decide)

end VarPath

end UnifiedApi

import UnifiedApi.Domain.VarPath

/-! # Walking into objects

The value below a value, by the names on the way to it, and what inserting and
removing at one path leaves at every other. Two paths are one below the other or
they part, and then neither sees what happens at the other's end. -/

namespace UnifiedApi

namespace Json

/-- The value below `value` at `path`, through objects only. -/
def walk (value : Json) (path : List String) : Option Json := path.foldlM Json.field? value

@[simp] theorem walk_nil (value : Json) : value.walk [] = some value := rfl

theorem walk_cons (value : Json) (name : String) (path : List String) :
    value.walk (name :: path) = (value.field? name).bind (·.walk path) := rfl

@[simp] theorem walk_object_cons (fields : List (String × Json)) (name : String)
    (path : List String) :
    (object fields).walk (name :: path) = (fields.lookup name).bind (·.walk path) := rfl

theorem walk_append (value : Json) (path more : List String) :
    value.walk (path ++ more) = (value.walk path).bind (·.walk more) := List.foldlM_append

/-- Nothing is below a value that is no object. -/
theorem walk_of_not_object {value : Json} (h : value.isObject = false) {path : List String}
    (hpath : path ≠ []) : value.walk path = none := by
  cases path with
  | nil => exact absurd rfl hpath
  | cons name rest =>
    cases value with
    | object fields => cases h
    | null | bool b | number n | string s | array items => rfl

theorem isObject_of_walk {value found : Json} {path : List String} (hpath : path ≠ [])
    (h : value.walk path = some found) : value.isObject = true := by
  cases hobject : value.isObject with
  | true => rfl
  | false =>
    rw [walk_of_not_object hobject hpath] at h
    cases h

theorem exists_fields {value : Json} (h : value.isObject = true) :
    ∃ fields, value = object fields := by
  cases value with
  | object fields => exact ⟨fields, rfl⟩
  | null | bool b | number n | string s | array items => cases h

/-! ## Fields -/

theorem lookup_cons_ite {β : Type} (name key : String) (value : β) (fields : List (String × β)) :
    ((key, value) :: fields).lookup name =
      if name = key then some value else fields.lookup name := by
  rw [List.lookup_cons]
  by_cases h : name = key
  · rw [if_pos h, beq_iff_eq.mpr h]
  · rw [if_neg h, beq_false_of_ne h]

theorem lookup_setField (name other : String) (value : Json) (fields : List (String × Json)) :
    (setField name value fields).lookup other =
      if other = name then some value else fields.lookup other := by
  induction fields with
  | nil => exact lookup_cons_ite other name value []
  | cons field rest ih =>
    obtain ⟨key, old⟩ := field
    unfold setField
    split
    · rw [lookup_cons_ite]
    · split
      · rename_i hkey
        subst hkey
        rw [lookup_cons_ite, lookup_cons_ite]
        split_ifs <;> rfl
      · rename_i hkey
        rw [lookup_cons_ite, ih, lookup_cons_ite]
        split_ifs with h h'
        · exact absurd (h'.symm.trans h) hkey
        · rfl
        · rfl
        · rfl

/-- A field that was not there only comes in. -/
theorem setField_perm {name : String} {fields : List (String × Json)} (value : Json)
    (hnew : fields.lookup name = none) :
    (setField name value fields).Perm ((name, value) :: fields) := by
  induction fields with
  | nil => exact .refl _
  | cons field rest ih =>
    obtain ⟨key, old⟩ := field
    rw [lookup_cons_ite] at hnew
    unfold setField
    split
    · exact .refl _
    · split
      · rename_i hkey
        rw [if_pos hkey] at hnew
        cases hnew
      · rename_i hkey
        rw [if_neg hkey] at hnew
        exact ((ih hnew).cons _).trans (.swap _ _ _)

theorem lookup_removeField (name other : String) (fields : List (String × Json)) :
    (removeField name fields).lookup other =
      if other = name then none else fields.lookup other := by
  unfold removeField
  induction fields with
  | nil => rw [List.filter_nil, List.lookup_nil, ite_self]
  | cons field rest ih =>
    obtain ⟨key, old⟩ := field
    rw [List.filter_cons, lookup_cons_ite]
    by_cases hkey : key = name
    · rw [if_neg (by simpa using hkey), ih, hkey]
      split_ifs <;> rfl
    · rw [if_pos (by simpa using hkey), lookup_cons_ite, ih]
      split_ifs with h h'
      · exact absurd (h.symm.trans h') hkey
      · rfl
      · rfl
      · rfl

theorem nodup_of_sorted {names : List String} (h : names.Pairwise (· < ·)) : names.Nodup := by
  refine h.imp ?_
  rintro a b hlt rfl
  exact String.lt_irrefl a hlt

theorem Canonical.sorted {fields : List (String × Json)} (h : Canonical (.object fields)) :
    (fields.map Prod.fst).Pairwise (· < ·) := by
  cases h with
  | object hsorted _ => exact hsorted

theorem Canonical.nodup {fields : List (String × Json)} (h : Canonical (.object fields)) :
    (fields.map Prod.fst).Nodup := nodup_of_sorted h.sorted

theorem Canonical.field {fields : List (String × Json)} {field : String × Json}
    (h : Canonical (.object fields)) (hfield : field ∈ fields) : field.2.Canonical := by
  cases h with
  | object _ hfields => exact hfields field hfield

theorem Canonical.field? {value inner : Json} {name : String} (h : value.Canonical)
    (hinner : value.field? name = some inner) : inner.Canonical := by
  cases value with
  | object fields => exact h.field ((StrMap.lookup_eq_some_iff_mem h.nodup).mp hinner)
  | null | bool b | number n | string s | array items => cases hinner

theorem Canonical.walk {value found : Json} {path : List String} (h : value.Canonical)
    (hfound : value.walk path = some found) : found.Canonical := by
  induction path generalizing value with
  | nil => exact Option.some.inj hfound ▸ h
  | cons name rest ih =>
    obtain ⟨inner, hinner, hfound⟩ := Option.bind_eq_some_iff.mp hfound
    exact ih (h.field? hinner) hfound

/-- Setting a field to the value it has. -/
theorem setField_of_lookup {fields : List (String × Json)} {name : String} {value : Json}
    (hsorted : (fields.map Prod.fst).Pairwise (· < ·)) (h : fields.lookup name = some value) :
    setField name value fields = fields := by
  induction fields with
  | nil => cases h
  | cons field rest ih =>
    obtain ⟨key, old⟩ := field
    obtain ⟨hkey, hrest⟩ := List.pairwise_cons.mp hsorted
    rw [lookup_cons_ite] at h
    unfold setField
    by_cases heq : name = key
    · subst heq
      rw [if_pos rfl] at h
      rw [if_neg (String.lt_irrefl name), if_pos rfl, Option.some.inj h]
    · rw [if_neg heq] at h
      have hmem : name ∈ rest.map Prod.fst := List.mem_map_of_mem (f := Prod.fst)
        ((StrMap.lookup_eq_some_iff_mem (nodup_of_sorted hrest)).mp h)
      have hge : ¬ name < key := fun hlt =>
        String.lt_irrefl key (String.lt_trans (hkey name hmem) hlt)
      rw [if_neg hge, if_neg heq, ih hrest h]

theorem mem_setField {fields : List (String × Json)} {name : String} {value : Json}
    {field : String × Json} (h : field ∈ setField name value fields) :
    field = (name, value) ∨ field ∈ fields := by
  induction fields with
  | nil => exact .inl (List.mem_singleton.mp h)
  | cons first rest ih =>
    unfold setField at h
    split at h
    · exact List.mem_cons.mp h
    · split at h
      · exact (List.mem_cons.mp h).imp_right (List.mem_cons_of_mem _)
      · obtain rfl | hrest := List.mem_cons.mp h
        · exact .inr List.mem_cons_self
        · exact (ih hrest).imp_right (List.mem_cons_of_mem _)

theorem sorted_setField {fields : List (String × Json)} (name : String) (value : Json)
    (h : (fields.map Prod.fst).Pairwise (· < ·)) :
    ((setField name value fields).map Prod.fst).Pairwise (· < ·) := by
  induction fields with
  | nil => exact List.pairwise_singleton _ _
  | cons first rest ih =>
    obtain ⟨key, old⟩ := first
    obtain ⟨hkey, hrest⟩ := List.pairwise_cons.mp h
    unfold setField
    split
    · rename_i hlt
      refine List.pairwise_cons.mpr ⟨fun other hother => ?_, h⟩
      obtain rfl | hother := List.mem_cons.mp hother
      · exact hlt
      · exact String.lt_trans hlt (hkey other hother)
    · split
      · rename_i heq
        subst heq
        exact List.pairwise_cons.mpr ⟨hkey, hrest⟩
      · rename_i hge hne
        refine List.pairwise_cons.mpr ⟨fun other hother => ?_, ih hrest⟩
        obtain ⟨field, hfield, rfl⟩ := List.mem_map.mp hother
        obtain rfl | hold := mem_setField hfield
        · by_contra hlt
          exact hne (String.le_antisymm (String.not_lt.mp hlt) (String.not_lt.mp hge))
        · exact hkey _ (List.mem_map_of_mem hold)

theorem canonical_setField {fields : List (String × Json)} {name : String} {value : Json}
    (h : Canonical (.object fields)) (hvalue : value.Canonical) :
    Canonical (.object (setField name value fields)) := by
  refine .object (sorted_setField name value h.sorted) fun field hfield => ?_
  obtain rfl | hold := mem_setField hfield
  · exact hvalue
  · exact h.field hold

theorem canonical_removeField {fields : List (String × Json)} (name : String)
    (h : Canonical (.object fields)) : Canonical (.object (removeField name fields)) :=
  .object (h.sorted.sublist (List.filter_sublist.map _)) fun _ hfield =>
    h.field (List.mem_of_mem_filter hfield)

theorem canonical_empty : Canonical (.object []) := .object List.Pairwise.nil (by simp)

theorem Canonical.child {fields : List (String × Json)} (h : Canonical (.object fields))
    (name : String) : ((fields.lookup name).getD (.object [])).Canonical := by
  cases hchild : fields.lookup name with
  | none => exact canonical_empty
  | some child => exact h.field? hchild

/-- Every value on the way to `path` is an object. -/
def Open : List String → Json → Prop
  | [], _ => True
  | name :: rest, value =>
    value.isObject = true ∧ ∀ child, value.field? name = some child → Open rest child

theorem open_empty (path : List String) : Open path (object []) := by
  cases path with
  | nil => trivial
  | cons name rest => exact ⟨rfl, fun child hchild => by cases hchild⟩

/-- The child that an insertion goes on in. -/
theorem open_child {fields : List (String × Json)} {name : String} {path : List String}
    (h : Open (name :: path) (object fields)) :
    Open path ((fields.lookup name).getD (object [])) := by
  cases hchild : fields.lookup name with
  | none => exact open_empty path
  | some child => exact h.2 child hchild

theorem walk_child (fields : List (String × Json)) (name : String) {path : List String}
    (hpath : path ≠ []) : ((fields.lookup name).getD (object [])).walk path =
      (object fields).walk (name :: path) := by
  rw [walk_object_cons]
  cases fields.lookup name with
  | none =>
    cases path with
    | nil => exact absurd rfl hpath
    | cons next rest => rfl
  | some child => rfl

end Json

namespace VarPath
open Json

/-! ## Inserting -/

theorem insertPath_cons (fields : List (String × Json)) (name : String) {path : List String}
    (hpath : path ≠ []) (value : Json) :
    insertPath (.object fields) (name :: path) value = .object (setField name
      (insertPath ((fields.lookup name).getD (.object [])) path value) fields) := by
  cases path with
  | nil => exact absurd rfl hpath
  | cons next rest => rfl

theorem insertPath_of_not_object {target : Json} (h : target.isObject = false)
    (path : List String) (value : Json) : insertPath target path value = target := by
  cases target with
  | object fields => cases h
  | null | bool b | number n | string s | array items =>
    cases path with
    | nil => rfl
    | cons name rest => cases rest <;> rfl

theorem isObject_insertPath (target : Json) (path : List String) (value : Json) :
    (insertPath target path value).isObject = target.isObject := by
  cases hobject : target.isObject with
  | false => rw [insertPath_of_not_object hobject, hobject]
  | true =>
    obtain ⟨fields, rfl⟩ := exists_fields hobject
    cases path with
    | nil => rfl
    | cons name rest => cases rest <;> rfl

/-- At and below the path is what was inserted. -/
theorem walk_insertPath_below {path : List String} {target : Json} (hopen : Open path target)
    (hpath : path ≠ []) (value : Json) (more : List String) :
    (insertPath target path value).walk (path ++ more) = value.walk more := by
  induction path generalizing target with
  | nil => exact absurd rfl hpath
  | cons name rest ih =>
    obtain ⟨fields, rfl⟩ := exists_fields hopen.1
    cases rest with
    | nil =>
      rw [insertPath, List.singleton_append, walk_object_cons, lookup_setField, if_pos rfl,
        Option.bind_some]
    | cons next rest =>
      rw [insertPath_cons fields name (List.cons_ne_nil _ _), List.cons_append, walk_object_cons,
        lookup_setField, if_pos rfl, Option.bind_some]
      exact ih (open_child hopen) (List.cons_ne_nil _ _)

/-- On the way to it, objects with the rest of the path inserted. -/
theorem walk_insertPath_above {path more : List String} {target : Json}
    (hopen : Open (path ++ more) target) (hmore : more ≠ []) (value : Json) :
    (insertPath target (path ++ more) value).walk path =
      some (insertPath ((target.walk path).getD (.object [])) more value) := by
  induction path generalizing target with
  | nil => rfl
  | cons name rest ih =>
    obtain ⟨fields, rfl⟩ := exists_fields hopen.1
    have hrest : rest ++ more ≠ [] := List.append_ne_nil_of_right_ne_nil rest hmore
    rw [List.cons_append, insertPath_cons fields name hrest, walk_object_cons, lookup_setField,
      if_pos rfl, Option.bind_some, ih (open_child hopen)]
    cases rest with
    | nil => cases hchild : fields.lookup name <;> simp [walk_cons, field?, hchild]
    | cons next rest => rw [walk_child fields name (List.cons_ne_nil _ _)]

/-- Where the paths part, nothing changes. -/
theorem walk_insertPath_apart {path other : List String} (h : ¬ path <+: other)
    (h' : ¬ other <+: path) (target value : Json) :
    (insertPath target path value).walk other = target.walk other := by
  induction path generalizing target other with
  | nil => exact absurd (List.nil_prefix) h
  | cons name rest ih =>
    cases hobject : target.isObject with
    | false => rw [insertPath_of_not_object hobject]
    | true =>
      obtain ⟨fields, rfl⟩ := exists_fields hobject
      cases other with
      | nil => exact absurd List.nil_prefix h'
      | cons next below =>
        by_cases hname : next = name
        · subst hname
          have hrest : ¬ rest <+: below := fun hp => h (List.cons_prefix_cons.mpr ⟨rfl, hp⟩)
          have hbelow : ¬ below <+: rest := fun hp => h' (List.cons_prefix_cons.mpr ⟨rfl, hp⟩)
          have hne : rest ≠ [] := fun heq => hrest (heq ▸ List.nil_prefix)
          have hne' : below ≠ [] := fun heq => hbelow (heq ▸ List.nil_prefix)
          rw [insertPath_cons fields next hne, walk_object_cons, lookup_setField, if_pos rfl,
            Option.bind_some, ih hrest hbelow, walk_child fields next hne']
        · cases rest with
          | nil =>
            rw [insertPath, walk_object_cons, lookup_setField, if_neg hname, walk_object_cons]
          | cons next' rest =>
            rw [insertPath_cons fields name (List.cons_ne_nil _ _), walk_object_cons,
              lookup_setField, if_neg hname, walk_object_cons]

/-- Inserting what is there changes nothing. -/
theorem insertPath_of_walk {path : List String} {target value : Json} (htarget : target.Canonical)
    (h : target.walk path = some value) : insertPath target path value = target := by
  induction path generalizing target with
  | nil => cases target <;> rfl
  | cons name rest ih =>
    obtain ⟨fields, rfl⟩ := exists_fields (isObject_of_walk (List.cons_ne_nil _ _) h)
    obtain ⟨child, hchild, hrest⟩ := Option.bind_eq_some_iff.mp h
    have hsame := setField_of_lookup htarget.sorted hchild
    cases rest with
    | nil =>
      obtain rfl := Option.some.inj hrest
      rw [insertPath, hsame]
    | cons next rest =>
      have hlookup : fields.lookup name = some child := hchild
      rw [insertPath_cons fields name (List.cons_ne_nil _ _), hlookup, Option.getD_some,
        ih (htarget.field? hchild) hrest, hsame]

theorem canonical_insertPath {path : List String} {target value : Json}
    (htarget : target.Canonical) (hvalue : value.Canonical) :
    (insertPath target path value).Canonical := by
  induction path generalizing target with
  | nil => cases target <;> exact htarget
  | cons name rest ih =>
    cases hobject : target.isObject with
    | false => rwa [insertPath_of_not_object hobject]
    | true =>
      obtain ⟨fields, rfl⟩ := exists_fields hobject
      cases rest with
      | nil => exact canonical_setField htarget hvalue
      | cons next rest => exact canonical_setField htarget (ih (htarget.child name))

/-! ## Removing -/

theorem removePath_of_not_object {value : Json} (h : value.isObject = false)
    (path : List String) : removePath value path = value := by
  cases value with
  | object fields => cases h
  | null | bool b | number n | string s | array items =>
    cases path with
    | nil => rfl
    | cons name rest => cases rest <;> rfl

theorem removePath_cons (fields : List (String × Json)) (name : String) {path : List String}
    (hpath : path ≠ []) : removePath (.object fields) (name :: path) =
      match fields.lookup name with
      | some child => .object (setField name (removePath child path) fields)
      | none => .object fields := by
  cases path with
  | nil => exact absurd rfl hpath
  | cons next rest => rfl

/-- The fields of the object a path is removed from. -/
theorem walk_removePath_cons (fields : List (String × Json)) (name : String) {path : List String}
    (hpath : path ≠ []) (next : String) (more : List String) :
    (removePath (.object fields) (name :: path)).walk (next :: more) =
      if next = name then (fields.lookup name).bind fun child => (removePath child path).walk more
      else (Json.object fields).walk (next :: more) := by
  rw [removePath_cons fields name hpath]
  cases hchild : fields.lookup name with
  | none =>
    by_cases hname : next = name
    · subst hname
      rw [if_pos rfl, walk_object_cons, hchild]
      rfl
    · rw [if_neg hname]
  | some child =>
    dsimp only
    rw [walk_object_cons, lookup_setField]
    split <;> rfl

theorem isObject_removePath (value : Json) (path : List String) :
    (removePath value path).isObject = value.isObject := by
  cases hobject : value.isObject with
  | false => rw [removePath_of_not_object hobject, hobject]
  | true =>
    obtain ⟨fields, rfl⟩ := exists_fields hobject
    cases path with
    | nil => rfl
    | cons name rest =>
      cases rest with
      | nil => rfl
      | cons next rest =>
        rw [removePath_cons fields name (List.cons_ne_nil _ _)]
        cases fields.lookup name <;> rfl

theorem walk_removePath_below {path : List String} (hpath : path ≠ []) (value : Json)
    (more : List String) : (removePath value path).walk (path ++ more) = none := by
  induction path generalizing value with
  | nil => exact absurd rfl hpath
  | cons name rest ih =>
    cases hobject : value.isObject with
    | false =>
      rw [removePath_of_not_object hobject, List.cons_append,
        walk_of_not_object hobject (List.cons_ne_nil _ _)]
    | true =>
      obtain ⟨fields, rfl⟩ := exists_fields hobject
      cases rest with
      | nil =>
        rw [removePath, List.singleton_append, walk_object_cons, lookup_removeField, if_pos rfl]
        rfl
      | cons next rest =>
        rw [List.cons_append, walk_removePath_cons fields name (List.cons_ne_nil _ _), if_pos rfl]
        cases fields.lookup name with
        | none => rfl
        | some child => exact ih (List.cons_ne_nil _ _) child

theorem walk_removePath_above {path more : List String} (hmore : more ≠ []) (value : Json) :
    (removePath value (path ++ more)).walk path = (value.walk path).map (removePath · more) := by
  induction path generalizing value with
  | nil => rfl
  | cons name rest ih =>
    cases hobject : value.isObject with
    | false =>
      rw [removePath_of_not_object hobject, walk_of_not_object hobject (List.cons_ne_nil _ _)]
      rfl
    | true =>
      obtain ⟨fields, rfl⟩ := exists_fields hobject
      rw [List.cons_append, walk_removePath_cons fields name
        (List.append_ne_nil_of_right_ne_nil rest hmore), if_pos rfl, walk_object_cons]
      cases fields.lookup name with
      | none => rfl
      | some child => exact ih child

theorem walk_removePath_apart {path other : List String} (h : ¬ path <+: other)
    (h' : ¬ other <+: path) (value : Json) :
    (removePath value path).walk other = value.walk other := by
  induction path generalizing value other with
  | nil => exact absurd List.nil_prefix h
  | cons name rest ih =>
    cases hobject : value.isObject with
    | false => rw [removePath_of_not_object hobject]
    | true =>
      obtain ⟨fields, rfl⟩ := exists_fields hobject
      cases other with
      | nil => exact absurd List.nil_prefix h'
      | cons next below =>
        cases rest with
        | nil =>
          have hname : next ≠ name := by
            rintro rfl
            exact h (List.prefix_append [next] below)
          rw [removePath, walk_object_cons, lookup_removeField, if_neg hname, walk_object_cons]
        | cons first rest =>
          rw [walk_removePath_cons fields name (List.cons_ne_nil _ _)]
          split
          · rename_i hname
            subst hname
            have hrest : ¬ first :: rest <+: below := fun hp =>
              h (List.cons_prefix_cons.mpr ⟨rfl, hp⟩)
            have hbelow : ¬ below <+: first :: rest := fun hp =>
              h' (List.cons_prefix_cons.mpr ⟨rfl, hp⟩)
            rw [walk_object_cons]
            cases fields.lookup next with
            | none => rfl
            | some child => exact ih hrest hbelow child
          · rfl

/-- Removing what is not there changes nothing. -/
theorem removePath_of_walk {path : List String} {value : Json} (hvalue : value.Canonical)
    (h : value.walk path = none) : removePath value path = value := by
  induction path generalizing value with
  | nil => cases h
  | cons name rest ih =>
    cases hobject : value.isObject with
    | false => exact removePath_of_not_object hobject _
    | true =>
      obtain ⟨fields, rfl⟩ := exists_fields hobject
      rw [walk_object_cons] at h
      cases rest with
      | nil =>
        have hnone : fields.lookup name = none := by
          cases hchild : fields.lookup name with
          | none => rfl
          | some child =>
            rw [hchild] at h
            cases h
        rw [removePath, removeField, List.filter_eq_self.mpr]
        exact fun field hfield => bne_comm.trans (List.lookup_eq_none_iff.mp hnone field hfield)
      | cons next rest =>
        rw [removePath_cons fields name (List.cons_ne_nil _ _)]
        cases hchild : fields.lookup name with
        | none => rfl
        | some child =>
          rw [hchild] at h
          dsimp only
          rw [ih (hvalue.field? hchild) h, setField_of_lookup hvalue.sorted hchild]

theorem canonical_removePath {path : List String} {value : Json} (hvalue : value.Canonical) :
    (removePath value path).Canonical := by
  induction path generalizing value with
  | nil => cases value <;> exact hvalue
  | cons name rest ih =>
    cases hobject : value.isObject with
    | false => rwa [removePath_of_not_object hobject]
    | true =>
      obtain ⟨fields, rfl⟩ := exists_fields hobject
      cases rest with
      | nil => exact canonical_removeField name hvalue
      | cons next rest =>
        rw [removePath_cons fields name (List.cons_ne_nil _ _)]
        cases hchild : fields.lookup name with
        | none => exact hvalue
        | some child => exact canonical_setField hvalue (ih (hvalue.field? hchild))

end VarPath

end UnifiedApi

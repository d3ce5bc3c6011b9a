import Mathlib.Data.List.Nodup
import UnifiedApi.Domain.JsonPaths
import UnifiedApi.Domain.YamlDocument

/-! # The two readings of a document

`toJson` resolves numbers and booleans, `toTextJson` keeps their text. Both
walk one document, and the results go side by side unless an alias makes a
mapping key of a scalar whose text is not what its value prints as. -/

namespace UnifiedApi.Yaml
open Json

/-- What `toTextJson` keeps the text of. -/
def isNumeric : Json → Bool
  | .number _ | .bool _ => true
  | _ => false

section
variable (ops : TextOps)

mutual
/-- The two values of one document: the same arrays, the same keys, and the
same scalars, or a number or boolean and its text. -/
inductive Parallel : Doc → Json → Json → Prop
  | same {text : String} {style : ScalarStyle} {tag : Option Tag}
      (h : isNumeric (scalar ops text style tag) = false) :
      Parallel (.scalar text style tag) (scalar ops text style tag) (scalar ops text style tag)
  | source {text : String} {style : ScalarStyle} {tag : Option Tag}
      (h : isNumeric (scalar ops text style tag) = true) :
      Parallel (.scalar text style tag) (scalar ops text style tag) (.string text)
  | copy {target : Doc} {value text : Json} (h : Parallel target value text) :
      Parallel (.copy target) value text
  | sequence {docs : List Doc} {values texts : List Json} (h : ParallelItems docs values texts) :
      Parallel (.sequence docs) (.array values) (.array texts)
  | mapping {entries sorted : List (MapKey × Doc)} {fields texts : List (String × Json)}
      (hperm : sorted.Perm entries) (h : ParallelFields sorted fields texts) :
      Parallel (.mapping entries) (.object fields) (.object texts)

inductive ParallelItems : List Doc → List Json → List Json → Prop
  | nil : ParallelItems [] [] []
  | cons {doc : Doc} {docs : List Doc} {value text : Json} {values texts : List Json}
      (h : Parallel doc value text) (hrest : ParallelItems docs values texts) :
      ParallelItems (doc :: docs) (value :: values) (text :: texts)

inductive ParallelFields :
    List (MapKey × Doc) → List (String × Json) → List (String × Json) → Prop
  | nil : ParallelFields [] [] []
  | cons {key : MapKey} {doc : Doc} {entries : List (MapKey × Doc)} {name : String}
      {value text : Json} {fields texts : List (String × Json)}
      (hkey : key.read ops false = name) (h : Parallel doc value text)
      (hrest : ParallelFields entries fields texts) :
      ParallelFields ((key, doc) :: entries) ((name, value) :: fields) ((name, text) :: texts)
end

/-- Both readings succeed, with parallel values, or both fail. -/
def StayParallel (events : Events) : Prop :=
  ((∃ value, toJson ops events = .ok value) ↔ ∃ text, toTextJson ops events = .ok text) ∧
    ∀ value text, toJson ops events = .ok value → toTextJson ops events = .ok text →
      ∃ doc, compose events = some doc ∧ Parallel ops doc value text

mutual
/-- Every key that is an alias has one text in both readings. -/
def Doc.keysAgree : Doc → Bool
  | .copy target => target.keysAgree
  | .scalar _ _ _ => true
  | .sequence items => itemsAgree items
  | .mapping entries => entriesAgree entries

def itemsAgree : List Doc → Bool
  | [] => true
  | doc :: rest => doc.keysAgree && itemsAgree rest

def entriesAgree : List (MapKey × Doc) → Bool
  | [] => true
  | (key, doc) :: rest =>
    key.read ops false == key.read ops true && (doc.keysAgree && entriesAgree rest)
end

mutual
/-- Some mapping has a key twice. -/
def Doc.repeats (verbatim : Bool) : Doc → Bool
  | .copy target => target.repeats verbatim
  | .scalar _ _ _ => false
  | .sequence items => itemsRepeat verbatim items
  | .mapping entries =>
    !decide (entries.map fun entry => entry.1.read ops verbatim).Nodup ||
      entriesRepeat verbatim entries

def itemsRepeat (verbatim : Bool) : List Doc → Bool
  | [] => false
  | doc :: rest => doc.repeats verbatim || itemsRepeat verbatim rest

def entriesRepeat (verbatim : Bool) : List (MapKey × Doc) → Bool
  | [] => false
  | (_, doc) :: rest => doc.repeats verbatim || entriesRepeat verbatim rest
end

end

theorem readScalar_false (ops : TextOps) (text : String) (style : ScalarStyle)
    (tag : Option Tag) : readScalar ops false text style tag = scalar ops text style tag := by
  unfold readScalar
  split
  · rename_i hscalar
    rw [if_neg (by simp), hscalar]
  · rename_i hscalar
    rw [if_neg (by simp), hscalar]
  · rfl

theorem readScalar_true (ops : TextOps) (text : String) (style : ScalarStyle)
    (tag : Option Tag) : readScalar ops true text style tag =
      if isNumeric (scalar ops text style tag) then .string text
      else scalar ops text style tag := by
  unfold readScalar
  cases scalar ops text style tag <;> rfl

/-- Only a plain scalar is a number or a boolean, whatever tag it has. -/
theorem scalar_plain {ops : TextOps} {text : String} {style : ScalarStyle} {tag : Option Tag}
    (h : isNumeric (scalar ops text style tag) = true) :
    scalar ops text .plain none = scalar ops text style tag := by
  unfold scalar at h
  split at h
  · cases h
  · rename_i htag
    split at h
    · cases h
    · rename_i hstyle
      have hplain : style = .plain := by simpa using hstyle
      subst hplain
      conv => rhs; unfold scalar; rw [if_neg htag]
      conv => lhs; unfold scalar; rw [if_neg (by simp)]

/-! ## What a mapping's value holds -/

section
variable {ops : TextOps} {verbatim : Bool}

/-- The fields that the entries add, in their order. -/
def Added (ops : TextOps) (verbatim : Bool) (entries : List (MapKey × Doc))
    (added : List (String × Json)) : Prop :=
  List.Forall₂ (fun entry field => entry.1.read ops verbatim = field.1 ∧
    entry.2.value ops verbatim = some field.2) entries added

theorem Added.keys {entries : List (MapKey × Doc)} {added : List (String × Json)}
    (h : Added ops verbatim entries added) :
    added.map Prod.fst = entries.map fun entry => entry.1.read ops verbatim := by
  induction h with
  | nil => rfl
  | cons hentry _ ih => rw [List.map_cons, List.map_cons, ih, hentry.1]

theorem Added.mem {entries : List (MapKey × Doc)} {added : List (String × Json)}
    (h : Added ops verbatim entries added) {entry : MapKey × Doc} (hentry : entry ∈ entries) :
    ∃ value, entry.2.value ops verbatim = some value ∧
      (entry.1.read ops verbatim, value) ∈ added := by
  induction h with
  | nil => cases hentry
  | @cons first field _ _ hfirst _ ih =>
    obtain rfl | hentry := List.mem_cons.mp hentry
    · exact ⟨field.2, hfirst.2, by rw [hfirst.1]; exact List.mem_cons_self ..⟩
    · obtain ⟨value, hvalue, hmem⟩ := ih hentry
      exact ⟨value, hvalue, List.mem_cons_of_mem _ hmem⟩

theorem nodup_setField {name : String} {map : List (String × Json)} (value : Json)
    (hnew : map.lookup name = none) (hmap : (map.map Prod.fst).Nodup) :
    ((setField name value map).map Prod.fst).Nodup := by
  rw [((setField_perm value hnew).map Prod.fst).nodup_iff, List.map_cons, List.nodup_cons]
  exact ⟨StrMap.lookup_eq_none_iff.mp hnew, hmap⟩

theorem valueEntries_added {map map' : List (String × Json)} {entries : List (MapKey × Doc)}
    (h : valueEntries ops verbatim map entries = some map') (hmap : (map.map Prod.fst).Nodup) :
    ∃ added, Added ops verbatim entries added ∧ map'.Perm (added ++ map) ∧
      (map'.map Prod.fst).Nodup := by
  induction entries generalizing map with
  | nil =>
    rw [valueEntries] at h
    obtain rfl := Option.some.inj h
    exact ⟨[], .nil, .refl _, hmap⟩
  | cons entry rest ih =>
    obtain ⟨key, doc⟩ := entry
    rw [valueEntries] at h
    obtain ⟨value, hvalue, h⟩ := Option.bind_eq_some_iff.mp h
    split at h
    · cases h
    · rename_i hnew
      have hnew := Option.not_isSome_iff_eq_none.mp hnew
      obtain ⟨added, hadded, hperm, hnodup⟩ := ih h (nodup_setField value hnew hmap)
      refine ⟨(key.read ops verbatim, value) :: added, .cons ⟨rfl, hvalue⟩ hadded, ?_, hnodup⟩
      refine (hperm.trans ((setField_perm value hnew).append_left added)).trans ?_
      exact List.perm_middle

mutual
/-- What a reading refuses of a composed document is repeated keys. -/
theorem value_eq_none_iff : ∀ doc : Doc,
    doc.value ops verbatim = none ↔ doc.repeats ops verbatim = true
  | .copy target => by
    rw [Doc.value, Doc.repeats]
    exact value_eq_none_iff target
  | .scalar text style tag => by
    rw [Doc.value, Doc.repeats]
    simp
  | .sequence items => by
    rw [Doc.value, Doc.repeats, Option.map_eq_none_iff]
    exact valueItems_eq_none_iff items
  | .mapping entries => by
    have hempty : (([] : List (String × Json)).map Prod.fst).Nodup := List.nodup_nil
    rw [Doc.value, Doc.repeats, Option.map_eq_none_iff, valueEntries_eq_none_iff entries hempty]
    simp

theorem valueItems_eq_none_iff : ∀ docs : List Doc,
    valueItems ops verbatim docs = none ↔ itemsRepeat ops verbatim docs = true
  | [] => by
    rw [valueItems, itemsRepeat]
    simp
  | doc :: rest => by
    rw [itemsRepeat, Bool.or_eq_true, ← value_eq_none_iff doc, ← valueItems_eq_none_iff rest,
      valueItems]
    cases doc.value ops verbatim with
    | none => simp
    | some value =>
      cases valueItems ops verbatim rest with
      | none => simp
      | some values => simp

theorem valueEntries_eq_none_iff : ∀ (entries : List (MapKey × Doc)) {map : List (String × Json)},
    (map.map Prod.fst).Nodup →
      (valueEntries ops verbatim map entries = none ↔
        ¬ (map.map Prod.fst ++ entries.map fun entry => entry.1.read ops verbatim).Nodup ∨
          entriesRepeat ops verbatim entries = true)
  | [], map, hmap => by
    rw [valueEntries, entriesRepeat]
    simp [hmap]
  | (key, doc) :: rest, map, hmap => by
    rw [valueEntries, entriesRepeat, Bool.or_eq_true, ← value_eq_none_iff doc]
    cases doc.value ops verbatim with
    | none => simp
    | some value =>
      cases hnew : map.lookup (key.read ops verbatim) with
      | some old =>
        have hmem : key.read ops verbatim ∈ map.map Prod.fst := by
          by_contra hnot
          rw [StrMap.lookup_eq_none_iff.mpr hnot] at hnew
          cases hnew
        have hrepeated : ¬ (map.map Prod.fst ++ key.read ops verbatim :: rest.map
            fun entry => entry.1.read ops verbatim).Nodup := by
          intro h
          exact (List.nodup_append.mp h).2.2 _ hmem _ List.mem_cons_self rfl
        simp [hrepeated]
      | none =>
        have hperm := (setField_perm value hnew).map Prod.fst
        rw [List.map_cons] at hperm
        have hkeys := (hperm.append_right (rest.map fun entry => entry.1.read ops verbatim)).trans
          List.perm_middle.symm
        have hrest := valueEntries_eq_none_iff rest (nodup_setField value hnew hmap)
        rw [hkeys.nodup_iff] at hrest
        simpa [hnew] using hrest
end

/-! ## Keys that agree -/

theorem ParallelFields.names : ∀ {entries : List (MapKey × Doc)}
    {fields texts : List (String × Json)}, ParallelFields ops entries fields texts →
      texts.map Prod.fst = fields.map Prod.fst
  | _, _, _, .nil => rfl
  | _, _, _, .cons _ _ hrest => by rw [List.map_cons, List.map_cons, hrest.names]

theorem ParallelFields.insert {key : MapKey} {doc : Doc} {value text : Json} (name : String)
    (hkey : key.read ops false = name) (hdoc : Parallel ops doc value text) :
    ∀ {entries : List (MapKey × Doc)} {fields texts : List (String × Json)},
      ParallelFields ops entries fields texts → fields.lookup name = none →
        ∃ sorted, sorted.Perm ((key, doc) :: entries) ∧
          ParallelFields ops sorted (setField name value fields) (setField name text texts) := by
  intro entries fields texts h hnew
  induction entries generalizing fields texts with
  | nil =>
    cases h
    exact ⟨_, .refl _, .cons hkey hdoc .nil⟩
  | cons entry entries ih =>
    cases h with
    | @cons other old _ first _ _ _ _ hother hold hrest =>
      rw [lookup_cons_ite] at hnew
      unfold setField
      by_cases hlt : name < first
      · rw [if_pos hlt, if_pos hlt]
        exact ⟨_, .refl _, .cons hkey hdoc (.cons hother hold hrest)⟩
      · rw [if_neg hlt, if_neg hlt]
        by_cases heq : name = first
        · rw [if_pos heq] at hnew
          cases hnew
        · rw [if_neg heq] at hnew ⊢
          rw [if_neg heq]
          obtain ⟨sorted, hperm, hsorted⟩ := ih hrest hnew
          exact ⟨_, (hperm.cons _).trans (.swap _ _ _), .cons hother hold hsorted⟩

mutual
theorem parallel_of_keysAgree : ∀ doc : Doc, doc.keysAgree ops = true →
    (doc.value ops false = none ∧ doc.value ops true = none) ∨
      ∃ value text, doc.value ops false = some value ∧ doc.value ops true = some text ∧
        Parallel ops doc value text
  | .copy target, h => by
    rw [Doc.keysAgree] at h
    rw [Doc.value, Doc.value]
    obtain hnone | ⟨value, text, hvalue, htext, hparallel⟩ := parallel_of_keysAgree target h
    · exact .inl hnone
    · exact .inr ⟨value, text, hvalue, htext, .copy hparallel⟩
  | .scalar text style tag, _ => by
    rw [Doc.value, Doc.value]
    refine .inr ⟨_, _, rfl, rfl, ?_⟩
    rw [readScalar_false, readScalar_true]
    split
    · rename_i hnumeric
      exact .source hnumeric
    · rename_i hother
      exact .same (Bool.eq_false_iff.mpr hother)
  | .sequence items, h => by
    rw [Doc.keysAgree] at h
    rw [Doc.value, Doc.value]
    obtain ⟨hvalue, htext⟩ | ⟨values, texts, hvalues, htexts, hparallel⟩ :=
      parallel_of_itemsAgree items h
    · exact .inl ⟨by rw [hvalue]; rfl, by rw [htext]; rfl⟩
    · exact .inr ⟨_, _, by rw [hvalues]; rfl, by rw [htexts]; rfl, .sequence hparallel⟩
  | .mapping entries, h => by
    rw [Doc.keysAgree] at h
    rw [Doc.value, Doc.value]
    obtain ⟨hvalue, htext⟩ | ⟨sorted, fields, texts, hfields, htexts, hperm, hparallel⟩ :=
      parallel_of_entriesAgree entries h .nil
    · exact .inl ⟨by rw [hvalue]; rfl, by rw [htext]; rfl⟩
    · rw [List.append_nil] at hperm
      exact .inr ⟨_, _, by rw [hfields]; rfl, by rw [htexts]; rfl, .mapping hperm hparallel⟩

theorem parallel_of_itemsAgree : ∀ docs : List Doc, itemsAgree ops docs = true →
    (valueItems ops false docs = none ∧ valueItems ops true docs = none) ∨
      ∃ values texts, valueItems ops false docs = some values ∧
        valueItems ops true docs = some texts ∧ ParallelItems ops docs values texts
  | [], _ => .inr ⟨[], [], by rw [valueItems], by rw [valueItems], .nil⟩
  | doc :: rest, h => by
    rw [itemsAgree, Bool.and_eq_true] at h
    rw [valueItems, valueItems]
    obtain ⟨hvalue, htext⟩ | ⟨value, text, hvalue, htext, hparallel⟩ :=
      parallel_of_keysAgree doc h.1
    · exact .inl ⟨by rw [hvalue]; rfl, by rw [htext]; rfl⟩
    · rw [hvalue, htext]
      obtain ⟨hvalues, htexts⟩ | ⟨values, texts, hvalues, htexts, hrest⟩ :=
        parallel_of_itemsAgree rest h.2
      · exact .inl ⟨by rw [hvalues]; rfl, by rw [htexts]; rfl⟩
      · exact .inr ⟨_, _, by rw [hvalues]; rfl, by rw [htexts]; rfl, .cons hparallel hrest⟩

theorem parallel_of_entriesAgree : ∀ entries : List (MapKey × Doc),
    entriesAgree ops entries = true → ∀ {sorted : List (MapKey × Doc)}
      {fields texts : List (String × Json)}, ParallelFields ops sorted fields texts →
      (valueEntries ops false fields entries = none ∧ valueEntries ops true texts entries = none) ∨
        ∃ sorted' fields' texts', valueEntries ops false fields entries = some fields' ∧
          valueEntries ops true texts entries = some texts' ∧
          sorted'.Perm (entries ++ sorted) ∧ ParallelFields ops sorted' fields' texts'
  | [], _, sorted, fields, texts, hfields =>
    .inr ⟨sorted, fields, texts, by rw [valueEntries], by rw [valueEntries], .refl _, hfields⟩
  | (key, doc) :: rest, h, sorted, fields, texts, hfields => by
    rw [entriesAgree, Bool.and_eq_true, Bool.and_eq_true, beq_iff_eq] at h
    obtain ⟨hkey, hdoc, hrest⟩ := h
    rw [valueEntries, valueEntries]
    obtain ⟨hvalue, htext⟩ | ⟨value, text, hvalue, htext, hparallel⟩ :=
      parallel_of_keysAgree doc hdoc
    · exact .inl ⟨by rw [hvalue]; rfl, by rw [htext]; rfl⟩
    · simp only [hvalue, htext, bind, Option.bind, ← hkey]
      have hnew : texts.lookup (key.read ops false) = none ↔
          fields.lookup (key.read ops false) = none := by
        rw [StrMap.lookup_eq_none_iff, StrMap.lookup_eq_none_iff, hfields.names]
      cases hfound : fields.lookup (key.read ops false) with
      | some old =>
        have hsome : (texts.lookup (key.read ops false)).isSome = true := by
          rw [Option.isSome_iff_ne_none, Ne, hnew, hfound]
          simp
        exact .inl ⟨rfl, by rw [if_pos hsome]⟩
      | none =>
        rw [hnew.mpr hfound]
        obtain ⟨sorted', hperm, hsorted⟩ := hfields.insert _ rfl hparallel hfound
        obtain hnone | ⟨sorted'', fields', texts', hfields', htexts', hperm', hparallel'⟩ :=
          parallel_of_entriesAgree rest hrest hsorted
        · exact .inl hnone
        · refine .inr ⟨sorted'', fields', texts', hfields', htexts', ?_, hparallel'⟩
          exact hperm'.trans ((hperm.append_left rest).trans List.perm_middle)
end

/-! ## Keys that do not -/

/-- Where a key reads differently, its text resolves to a number or boolean
that prints as another. -/
theorem read_ne {key : MapKey} (h : key.read ops false ≠ key.read ops true) :
    isNumeric (scalar ops (key.read ops true) .plain none) = true ∧
      key.read ops false =
        String.ofList (ops.jsonText (scalar ops (key.read ops true) .plain none)) := by
  cases key with
  | text s => exact absurd rfl h
  | copied s style tag =>
    simp only [MapKey.read, readScalar_false, readScalar_true] at h ⊢
    by_cases hnumeric : isNumeric (scalar ops s style tag) = true
    · rw [if_pos hnumeric]
      simp only [scalarText]
      rw [scalar_plain hnumeric]
      refine ⟨hnumeric, ?_⟩
      cases hvalue : scalar ops s style tag with
      | number n | bool b | null | array items | object fields => rfl
      | string s =>
        rw [hvalue] at hnumeric
        cases hnumeric
    · rw [if_neg hnumeric] at h
      exact absurd rfl h

/-- A number or boolean printed, and read again as one, prints the same. -/
def PrintsStably (ops : TextOps) : Prop :=
  ∀ text printed : String, isNumeric (scalar ops text .plain none) = true →
    printed = String.ofList (ops.jsonText (scalar ops text .plain none)) →
      isNumeric (scalar ops printed .plain none) = true →
        String.ofList (ops.jsonText (scalar ops printed .plain none)) = printed

/-- Keys that come out the same all in all come out the same each. -/
theorem read_eq_of_names {entries : List (MapKey × Doc)} (hstable : PrintsStably ops)
    (hnodup : (entries.map fun entry => entry.1.read ops true).Nodup)
    (hnames : ∀ name, name ∈ (entries.map fun entry => entry.1.read ops true) →
      name ∈ (entries.map fun entry => entry.1.read ops false))
    {entry : MapKey × Doc} (hentry : entry ∈ entries) :
    entry.1.read ops false = entry.1.read ops true := by
  by_contra hne
  obtain ⟨hnumeric, hprints⟩ := read_ne hne
  obtain ⟨other, hother, hread⟩ :=
    List.mem_map.mp (hnames _ (List.mem_map.mpr ⟨entry, hentry, rfl⟩))
  by_cases hsame : other.1.read ops false = other.1.read ops true
  · -- then two entries have one text
    have heq : other = entry :=
      List.inj_on_of_nodup_map hnodup hother hentry (hsame.symm.trans hread)
    exact hne (heq ▸ hread)
  · obtain ⟨hothernumeric, hotherprints⟩ := read_ne hsame
    rw [hread] at hotherprints
    exact hne (hprints.trans (hstable _ _ hothernumeric hotherprints hnumeric))

/-- Both values of a document, side by side. -/
def Doc.Beside (ops : TextOps) (doc : Doc) (value text : Json) : Prop :=
  doc.value ops false = some value ∧ doc.value ops true = some text ∧
    Parallel ops doc value text

theorem ParallelFields.mem {key : MapKey} {doc : Doc} : ∀ {entries : List (MapKey × Doc)}
    {fields texts : List (String × Json)}, ParallelFields ops entries fields texts →
      (key, doc) ∈ entries → ∃ value text, (key.read ops false, value) ∈ fields ∧
        (key.read ops false, text) ∈ texts ∧ Parallel ops doc value text
  | _, _, _, .nil, hmem => nomatch hmem
  | _, _, _, .cons hkey hdoc hrest, hmem => by
    obtain heq | hmem := List.mem_cons.mp hmem
    · obtain ⟨rfl, rfl⟩ := Prod.mk.inj heq
      exact ⟨_, _, hkey ▸ List.mem_cons_self, hkey ▸ List.mem_cons_self, hdoc⟩
    · obtain ⟨value, text, hvalue, htext, hparallel⟩ := hrest.mem hmem
      exact ⟨value, text, List.mem_cons_of_mem _ hvalue, List.mem_cons_of_mem _ htext, hparallel⟩

/-- The entries of mappings that go side by side have the same keys, and
documents that do too. -/
theorem entries_beside (hstable : PrintsStably ops) {entries : List (MapKey × Doc)}
    {value text : Json} (h : (Doc.mapping entries).Beside ops value text) :
    ∀ entry ∈ entries, entry.1.read ops false = entry.1.read ops true ∧
      ∃ value text, entry.2.Beside ops value text := by
  obtain ⟨hvalue, htext, hparallel⟩ := h
  rw [Doc.value] at hvalue htext
  obtain ⟨fields, hfields, rfl⟩ := Option.map_eq_some_iff.mp hvalue
  obtain ⟨texts, htexts, rfl⟩ := Option.map_eq_some_iff.mp htext
  cases hparallel with
  | @mapping _ sorted _ _ hperm hparallel =>
    obtain ⟨added, hadded, hfieldsperm, hfieldsnodup⟩ := valueEntries_added hfields List.nodup_nil
    obtain ⟨added', hadded', htextsperm, htextsnodup⟩ := valueEntries_added htexts List.nodup_nil
    rw [List.append_nil] at hfieldsperm htextsperm
    have hfieldnames := hfieldsperm.map Prod.fst
    rw [hadded.keys] at hfieldnames
    have htextnames := htextsperm.map Prod.fst
    rw [hadded'.keys] at htextnames
    have hread : ∀ entry ∈ entries, entry.1.read ops false = entry.1.read ops true := by
      intro entry hentry
      refine read_eq_of_names hstable (htextnames.nodup_iff.mp htextsnodup) ?_ hentry
      intro name hname
      rw [← htextnames.mem_iff, hparallel.names, hfieldnames.mem_iff] at hname
      exact hname
    intro entry hentry
    refine ⟨hread entry hentry, ?_⟩
    obtain ⟨value, hvalue, hmem⟩ := hadded.mem hentry
    obtain ⟨text, htext, hmem'⟩ := hadded'.mem hentry
    obtain ⟨v, t, hv, ht, hdoc⟩ := hparallel.mem (hperm.mem_iff.mpr hentry)
    -- each key is there once, so these are the entry's own values
    have hv' := (StrMap.lookup_eq_some_iff_mem hfieldsnodup).mpr hv
    rw [(StrMap.lookup_eq_some_iff_mem hfieldsnodup).mpr (hfieldsperm.mem_iff.mpr hmem)] at hv'
    rw [hread entry hentry] at ht
    have ht' := (StrMap.lookup_eq_some_iff_mem htextsnodup).mpr ht
    rw [(StrMap.lookup_eq_some_iff_mem htextsnodup).mpr (htextsperm.mem_iff.mpr hmem')] at ht'
    obtain rfl := Option.some.inj hv'
    obtain rfl := Option.some.inj ht'
    exact ⟨_, _, hvalue, htext, hdoc⟩

theorem items_beside : ∀ {docs : List Doc} {values texts : List Json},
    valueItems ops false docs = some values → valueItems ops true docs = some texts →
      ParallelItems ops docs values texts → ∀ doc ∈ docs, ∃ value text, doc.Beside ops value text
  | _, _, _, _, _, .nil, _, hdoc => nomatch hdoc
  | first :: rest, value :: values, text :: texts, hvalues, htexts, .cons h hrest, doc, hdoc => by
    rw [valueItems] at hvalues htexts
    obtain ⟨value', hvalue, hvalues⟩ := Option.bind_eq_some_iff.mp hvalues
    obtain ⟨values', hvalues', hvalues⟩ := Option.bind_eq_some_iff.mp hvalues
    obtain ⟨text', htext, htexts⟩ := Option.bind_eq_some_iff.mp htexts
    obtain ⟨texts', htexts', htexts⟩ := Option.bind_eq_some_iff.mp htexts
    obtain ⟨rfl, rfl⟩ := List.cons.inj (Option.some.inj hvalues)
    obtain ⟨rfl, rfl⟩ := List.cons.inj (Option.some.inj htexts)
    obtain rfl | hdoc := List.mem_cons.mp hdoc
    · exact ⟨_, _, hvalue, htext, h⟩
    · exact items_beside hvalues' htexts' hrest doc hdoc

mutual
theorem keysAgree_of_beside (hstable : PrintsStably ops) : ∀ (doc : Doc) {value text : Json},
    doc.Beside ops value text → doc.keysAgree ops = true
  | .copy target, value, text, ⟨hvalue, htext, hparallel⟩ => by
    rw [Doc.value] at hvalue htext
    rw [Doc.keysAgree]
    cases hparallel with
    | copy h => exact keysAgree_of_beside hstable target ⟨hvalue, htext, h⟩
  | .scalar _ _ _, _, _, _ => by rw [Doc.keysAgree]
  | .sequence items, value, text, ⟨hvalue, htext, hparallel⟩ => by
    rw [Doc.value] at hvalue htext
    obtain ⟨values, hvalues, rfl⟩ := Option.map_eq_some_iff.mp hvalue
    obtain ⟨texts, htexts, rfl⟩ := Option.map_eq_some_iff.mp htext
    rw [Doc.keysAgree]
    cases hparallel with
    | sequence h => exact itemsAgree_of_beside hstable items (items_beside hvalues htexts h)
  | .mapping entries, value, text, h => by
    rw [Doc.keysAgree]
    exact entriesAgree_of_beside hstable entries (entries_beside hstable h)

theorem itemsAgree_of_beside (hstable : PrintsStably ops) : ∀ docs : List Doc,
    (∀ doc ∈ docs, ∃ value text, doc.Beside ops value text) → itemsAgree ops docs = true
  | [], _ => by rw [itemsAgree]
  | doc :: rest, h => by
    obtain ⟨value, text, hdoc⟩ := h doc List.mem_cons_self
    rw [itemsAgree, keysAgree_of_beside hstable doc hdoc, Bool.true_and]
    exact itemsAgree_of_beside hstable rest fun other hother =>
      h other (List.mem_cons_of_mem _ hother)

theorem entriesAgree_of_beside (hstable : PrintsStably ops) : ∀ entries : List (MapKey × Doc),
    (∀ entry ∈ entries, entry.1.read ops false = entry.1.read ops true ∧
      ∃ value text, entry.2.Beside ops value text) → entriesAgree ops entries = true
  | [], _ => by rw [entriesAgree]
  | (key, doc) :: rest, h => by
    obtain ⟨hkey, value, text, hdoc⟩ := h (key, doc) List.mem_cons_self
    rw [entriesAgree, keysAgree_of_beside hstable doc hdoc, Bool.true_and, Bool.and_eq_true,
      beq_iff_eq]
    exact ⟨hkey, entriesAgree_of_beside hstable rest fun other hother =>
      h other (List.mem_cons_of_mem _ hother)⟩
end

theorem read_ok_iff {events : Events} {value : Json} : read ops verbatim events = .ok value ↔
    ∃ doc, compose events = some doc ∧ doc.value ops verbatim = some value := by
  rw [← Results.toOption_eq_some_iff, read_eq, Option.bind_eq_some_iff]

/-- The readings of a document go side by side exactly if the aliases among
its keys have one text in both, or both readings refuse it for a key that
comes twice. -/
theorem stayParallel_iff (hstable : PrintsStably ops) (events : Events) :
    StayParallel ops events ↔
      ∀ doc, compose events = some doc → doc.keysAgree ops = true ∨
        doc.repeats ops false = true ∧ doc.repeats ops true = true := by
  unfold StayParallel toJson toTextJson
  simp only [read_ok_iff]
  cases hcompose : compose events with
  | none => simp
  | some doc =>
    simp only [Option.some.injEq, exists_eq_left']
    rw [forall_eq', ← value_eq_none_iff doc, ← value_eq_none_iff doc]
    constructor
    · rintro ⟨hiff, hparallel⟩
      cases hvalue : doc.value ops false with
      | none =>
        refine .inr ⟨rfl, ?_⟩
        cases htext : doc.value ops true with
        | none => rfl
        | some text =>
          obtain ⟨value, hsome⟩ := hiff.mpr ⟨text, htext⟩
          rw [hvalue] at hsome
          cases hsome
      | some value =>
        obtain ⟨text, htext⟩ := hiff.mp ⟨value, hvalue⟩
        exact .inl (keysAgree_of_beside hstable doc
          ⟨hvalue, htext, hparallel value text hvalue htext⟩)
    · rintro (hagree | ⟨hvalue, htext⟩)
      · obtain ⟨hvalue, htext⟩ | ⟨value, text, hvalue, htext, hparallel⟩ :=
          parallel_of_keysAgree doc hagree
        · simp [hvalue, htext]
        · simpa [hvalue, htext] using hparallel
      · simp [hvalue, htext]

end

/-- Prints the one number that the documents below have as a key. -/
def printsSixteen : TextOps where
  toLowercase := id
  parseF64 _ := none
  jsonText
    | .number (.posInt 16) => "16".toList
    | _ => []

theorem printsSixteen_stable : PrintsStably printsSixteen := by
  intro text printed _ hprinted hnumeric
  by_cases h : scalar printsSixteen text .plain none = .number (.posInt 16)
  · rw [h] at hprinted
    subst hprinted
    decide
  · have hempty : printsSixteen.jsonText (scalar printsSixteen text .plain none) = [] := by
      unfold printsSixteen
      dsimp only
      split
      · exact absurd (by assumption) h
      · rfl
    rw [hempty] at hprinted
    subst hprinted
    cases hnumeric

/-- `[&1 TEXT, {*1 : x}]` -/
def numberKey (text : String) : Events :=
  [.streamStart, .documentStart, .sequenceStart 0, .scalar text .plain 1 none,
    .mappingStart 0, .alias 1, .scalar "x" .plain 0 none, .mappingEnd,
    .sequenceEnd, .documentEnd, .streamEnd].map .ok

theorem decimalKey_stayParallel : StayParallel printsSixteen (numberKey "16") := by
  refine (stayParallel_iff printsSixteen_stable (numberKey "16")).mpr ?_
  intro doc hdoc
  have hkeys : (compose (numberKey "16")).map (Doc.keysAgree printsSixteen) = some true := by
    decide +kernel
  rw [hdoc] at hkeys
  exact .inl (Option.some.inj hkeys)

theorem hexKey_not_parallel : ¬ StayParallel printsSixteen (numberKey "0x10") := by
  intro h
  have hvalue : toJson printsSixteen (numberKey "0x10") = .ok (.array [.number (.posInt 16),
      .object [("16", .string "x")]]) := by decide +kernel
  have htext : toTextJson printsSixteen (numberKey "0x10") = .ok (.array [.string "0x10",
      .object [("0x10", .string "x")]]) := by decide +kernel
  have hkeys : (compose (numberKey "0x10")).map (Doc.keysAgree printsSixteen) = some false := by
    decide +kernel
  obtain ⟨doc, hdoc, hparallel⟩ := h.2 _ _ hvalue htext
  obtain ⟨read, hread, hvalue⟩ := read_ok_iff.mp hvalue
  obtain ⟨read', hread', htext⟩ := read_ok_iff.mp htext
  obtain rfl := Option.some.inj (hdoc.symm.trans hread)
  obtain rfl := Option.some.inj (hdoc.symm.trans hread')
  rw [hdoc, Option.map_some, keysAgree_of_beside printsSixteen_stable doc
    ⟨hvalue, htext, hparallel⟩] at hkeys
  cases hkeys

end UnifiedApi.Yaml

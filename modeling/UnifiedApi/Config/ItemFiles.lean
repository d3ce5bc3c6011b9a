import UnifiedApi.Domain.Yaml
import UnifiedApi.Lib.Lists

/-! # The item files of a configuration directory

Every file but config.yaml holds items, as lists under the names of sections.
All files are read before anything is reported; then the items of each section
are typed, each name once. Which paths and names are allowed, and what the type
of a section makes of an item's two readings, are parameters. -/

namespace UnifiedApi

inductive ConfigSection where
  | sources | hosts | groups | views | endpoints | enrichers | connectors | projects | credentials
  | apiKeys
  deriving DecidableEq

namespace ConfigSection

def name : ConfigSection → String
  | sources => "sources"
  | hosts => "hosts"
  | groups => "groups"
  | views => "views"
  | endpoints => "endpoints"
  | enrichers => "enrichers"
  | connectors => "connectors"
  | projects => "projects"
  | credentials => "credentials"
  | apiKeys => "api_keys"

/-- What an error calls an item of the section. -/
def label : ConfigSection → String
  | sources => "source"
  | hosts => "host"
  | groups => "group"
  | views => "view"
  | endpoints => "endpoint"
  | enrichers => "enricher"
  | connectors => "connector"
  | projects => "project"
  | credentials => "credential"
  | apiKeys => "API key"

/-- As a file's error lists them. -/
def all : List ConfigSection :=
  [sources, hosts, groups, views, endpoints, enrichers, connectors, projects, credentials, apiKeys]

/-- In the order in which they are typed. -/
def taken : List ConfigSection :=
  [credentials, projects, connectors, sources, hosts, groups, views, enrichers, endpoints, apiKeys]

theorem mem_taken (kind : ConfigSection) : kind ∈ taken := by
  cases kind <;> decide

def names : String := ", ".intercalate (all.map name)

end ConfigSection

/-- One item as found: which file, its name, and the rest of its keys, in the
typed reading and in the one that keeps every scalar's text. -/
structure Entry where
  file : String
  name : String
  body : List (String × Json)
  text : List (String × Json)
  deriving DecidableEq

/-- A file of the directory: what it parses to, or why it could not be read. -/
structure ItemFile where
  path : String
  contents : Except String Yaml.Events

section Reading
variable (ops : TextOps) (isConfigPath isSafeId : String → Bool)

def readItem (file key : String) (i : Nat) (item : Json) (text : Option Json) :
    Except String Entry :=
  match item with
  | .object body =>
    let text := match text with
      | some (.object text) => text
      | _ => []
    let nameless := file ++ ": " ++ key ++ " item " ++ toString (i + 1) ++
      " needs a 'name', its identity"
    -- by its text: `name: 2024` is the item "2024"
    match text.lookup "name" with
    | some (.string name) =>
      if (Text.trim name.toList).isEmpty then .error nameless
      else if isSafeId name then
        .ok ⟨file, name, Json.removeField "name" body, Json.removeField "name" text⟩
      else .error (file ++ ": " ++ key ++ " item '" ++ name ++
        "' — a name may only use letters, " ++
        "digits, '-', '_' and '.', and may not start with a dot (it is used in URLs)")
    | _ => .error nameless
  | _ => .error (file ++ ": " ++ key ++ " item " ++ toString (i + 1) ++ " is not a mapping")

/-- The items under one key of a file, or what is wrong with the key. -/
def readSection (file key : String) (value : Json) (text : Option Json) :
    List (Except String (ConfigSection × Entry)) :=
  match ConfigSection.all.find? (·.name == key) with
  | none =>
    -- items keyed by id were the layout of 0.34
    let hint := if value.isObject then
      " — this is the 0.34 layout (items keyed by id), which this version does not read: " ++
        "write it as items, or convert it with unified-api 0.36's --migrate-config"
      else ""
    [.error (file ++ ": unknown key '" ++ key ++ "' (expected one of: " ++ ConfigSection.names ++
      ")" ++ hint)]
  | some kind =>
    match value with
    | .array items =>
      let texts := match text with
        | some (.array texts) => texts
        | _ => []
      items.zipIdx.map fun (item, i) =>
        (readItem isSafeId file key i item texts[i]?).map (kind, ·)
    | .null => []
    | _ => [.error (file ++ ": '" ++ key ++ "' must be a list of items")]

/-- What one file's items come to, in order: an entry of a section, or an error. -/
def readItems (file : String) (events : Yaml.Events) :
    List (Except String (ConfigSection × Entry)) :=
  match Yaml.toJson ops events with
  | .ok (.object top) =>
    let texts := match Yaml.toTextJson ops events with
      | .ok (.object texts) => texts
      | _ => []
    top.flatMap fun (key, value) => readSection isSafeId file key value (texts.lookup key)
  | .ok .null => []
  | .ok _ => [.error (file ++ ": expected a mapping with one of: " ++ ConfigSection.names)]
  | .error e => [.error (file ++ ": " ++ e)]

def readFile (file : ItemFile) : List (Except String (ConfigSection × Entry)) :=
  if isConfigPath file.path then
    match file.contents with
    | .ok events => readItems ops isSafeId file.path events
    | .error e => [.error (file.path ++ ": " ++ e)]
  else [.error (file.path ++ ": rename it — configuration paths may only use letters, digits, " ++
    "'-', '_' and '.', in segments that do not start with a dot")]

def readFiles (files : List ItemFile) : List (Except String (ConfigSection × Entry)) :=
  files.flatMap (readFile ops isConfigPath isSafeId)

end Reading

def entriesOf (outcomes : List (Except String (ConfigSection × Entry))) (kind : ConfigSection) :
    List Entry :=
  outcomes.filterMap fun
    | .ok (other, entry) => if other = kind then some entry else none
    | .error _ => none

def errorsOf (outcomes : List (Except String (ConfigSection × Entry))) : List String :=
  outcomes.filterMap fun
    | .ok _ => none
    | .error e => some e

/-! ## One section's items, typed -/

/-- The label people read: the description, else the identity. -/
def Entry.display (entry : Entry) : Option String :=
  match entry.body.lookup "description" with
  | some (.string text) =>
    some (if (Text.trim text.toList).isEmpty then entry.name else text)
  | some (.number _) | some (.bool _) =>
    match entry.text.lookup "description" with
    | some (.string text) => some text
    | _ => some entry.name
  | some .null | none => some entry.name
  | some _ => none

section Taking
variable {Item : Type} (parse : Json → Json → Except String Item) (label : String)

def Entry.typed (entry : Entry) : Except String Item :=
  match entry.display with
  | none => .error (entry.file ++ ": " ++ label ++ " '" ++ entry.name ++
      "': description must be text")
  | some display =>
    let body := Json.setField "name" (.string display) (Json.removeField "description" entry.body)
    match parse (.object body) (.object (Json.removeField "description" entry.text)) with
    | .ok item => .ok item
    | .error e => .error (entry.file ++ ": " ++ label ++ " '" ++ entry.name ++ "': " ++ e)

structure Taken (Item : Type) where
  out : StrMap Item := ∅
  /-- The file of each name so far. -/
  seen : StrMap String := ∅
  errors : List String := []

def takeEntry (taken : Taken Item) (entry : Entry) : Taken Item :=
  match taken.seen[entry.name]? with
  | some first => { taken with
      errors := taken.errors ++ [entry.file ++ ": " ++ label ++ " '" ++ entry.name ++
        "' is already defined in " ++ first] }
  | none =>
    let taken := { taken with seen := taken.seen.insert entry.name entry.file }
    match entry.typed parse label with
    | .ok item => { taken with out := taken.out.insert entry.name item }
    | .error e => { taken with errors := taken.errors ++ [e] }

def take (entries : List Entry) : Taken Item := entries.foldl (takeEntry parse label) {}

/-- Each name stands once, and every item has its type. -/
def Takable (entries : List Entry) : Prop :=
  (entries.map (·.name)).Nodup ∧ ∀ entry ∈ entries, ∃ item, entry.typed parse label = .ok item

/-- The first entry of a name is the one that counts. -/
structure Taken.Of (entries : List Entry) (taken : Taken Item) : Prop where
  seen (name : String) : taken.seen[name]? = (entries.find? (·.name == name)).map (·.file)
  out (name : String) : taken.out[name]? =
    (entries.find? (·.name == name)).bind fun entry => (entry.typed parse label).toOption
  errors : taken.errors = [] ↔ Takable parse label entries

variable {parse label}

theorem find?_name_append (entries : List Entry) (entry : Entry) (name : String) :
    (entries ++ [entry]).find? (·.name == name) =
      (entries.find? (·.name == name)).or (if entry.name = name then some entry else none) := by
  rw [List.find?_append]
  by_cases h : entry.name = name <;> simp [h]

theorem takable_append {entries : List Entry} {entry : Entry} :
    Takable parse label (entries ++ [entry]) ↔ Takable parse label entries ∧
      entries.find? (·.name == entry.name) = none ∧
        ∃ item, entry.typed parse label = .ok item := by
  have hnew : entries.find? (·.name == entry.name) = none ↔
      ∀ other ∈ entries, other.name ≠ entry.name := by
    simp [List.find?_eq_none]
  rw [hnew]
  simp only [Takable, List.map_append, List.map_cons, List.map_nil, List.nodup_append,
    List.nodup_singleton, List.mem_map, List.mem_append, List.mem_singleton, or_imp, forall_and,
    forall_eq, true_and, forall_exists_index, and_imp, forall_apply_eq_imp_iff₂]
  tauto

theorem Taken.Of.entry {entries : List Entry} {taken : Taken Item}
    (h : taken.Of parse label entries)
    (entry : Entry) : (takeEntry parse label taken entry).Of parse label (entries ++ [entry]) := by
  cases hseen : entries.find? (·.name == entry.name) with
  | some first =>
    -- the name stands already: only an error is added
    have hfound : taken.seen[entry.name]? = some first.file := by rw [h.seen, hseen]; rfl
    have hsame : ∀ name, (entries ++ [entry]).find? (·.name == name) =
        entries.find? (·.name == name) := by
      intro name
      rw [find?_name_append]
      split
      · subst name
        rw [hseen]
        rfl
      · exact Option.or_none
    rw [takeEntry, hfound]
    refine ⟨fun name => by rw [hsame]; exact h.seen name,
      fun name => by rw [hsame]; exact h.out name, ?_⟩
    rw [takable_append, hseen]
    simp
  | none =>
    have hfound : taken.seen[entry.name]? = none := by rw [h.seen, hseen]; rfl
    have hseen' : ∀ name, (taken.seen.insert entry.name entry.file)[name]? =
        ((entries ++ [entry]).find? (·.name == name)).map (·.file) := by
      intro name
      rw [StrMap.getElem?_insert, find?_name_append]
      split
      · subst name
        rw [hseen]
        rfl
      · rw [Option.or_none, h.seen]
    rw [takeEntry, hfound]
    cases htyped : entry.typed parse label with
    | ok item =>
      refine ⟨hseen', fun name => ?_, ?_⟩
      · show (taken.out.insert entry.name item)[name]? = _
        rw [StrMap.getElem?_insert, find?_name_append]
        split
        · subst name
          simp [hseen, htyped, Except.toOption]
        · rw [Option.or_none, h.out]
      · rw [takable_append, ← h.errors]
        simp [hseen, htyped]
    | error e =>
      refine ⟨hseen', fun name => ?_, ?_⟩
      · show taken.out[name]? = _
        rw [find?_name_append, h.out]
        split
        · subst name
          simp [hseen, htyped, Except.toOption]
        · rw [Option.or_none]
      · rw [takable_append]
        simp [htyped]

theorem take_of (entries : List Entry) : (take parse label entries).Of parse label entries := by
  induction entries using List.reverseRecOn with
  | nil => exact ⟨fun _ => by simp [take], fun _ => by simp [take], by simp [take, Takable]⟩
  | append_singleton entries entry ih =>
    rw [take, List.foldl_append]
    exact ih.entry entry

theorem of_find?_name {entries : List Entry} {name : String} {entry : Entry}
    (h : entries.find? (·.name == name) = some entry) : entry ∈ entries ∧ entry.name = name := by
  have hname := List.find?_some h
  exact ⟨List.mem_of_find?_eq_some h, eq_of_beq hname⟩

/-- Where nothing is wrong, every entry has become the item of its name. -/
theorem getElem?_take {entries : List Entry} (h : Takable parse label entries) {name : String}
    {item : Item} : (take parse label entries).out[name]? = some item ↔
      ∃ entry ∈ entries, entry.name = name ∧ entry.typed parse label = .ok item := by
  rw [(take_of entries).out, Option.bind_eq_some_iff]
  constructor
  · rintro ⟨entry, hfind, htyped⟩
    obtain ⟨hentry, hname⟩ := of_find?_name hfind
    exact ⟨entry, hentry, hname, Results.toOption_eq_some_iff.mp htyped⟩
  · rintro ⟨entry, hentry, rfl, htyped⟩
    refine ⟨entry, ?_, Results.toOption_eq_some_iff.mpr htyped⟩
    have hsome : (entries.find? (·.name == entry.name)).isSome = true := by
      rw [List.find?_isSome]
      exact ⟨entry, hentry, beq_self_eq_true entry.name⟩
    obtain ⟨first, hfirst⟩ := Option.isSome_iff_exists.mp hsome
    obtain ⟨hmem, hname⟩ := of_find?_name hfirst
    rw [hfirst, List.inj_on_of_nodup_map h.1 hmem hentry hname]

end Taking

/-- What the item files come to. -/
structure LoadedItems (Item : ConfigSection → Type) where
  items : ∀ kind, StrMap (Item kind)
  errors : List String

section Loading
variable (ops : TextOps) (isConfigPath isSafeId : String → Bool) {Item : ConfigSection → Type}
  (parse : ∀ kind, Json → Json → Except String (Item kind))

def loadItems (files : List ItemFile) : LoadedItems Item :=
  let outcomes := readFiles ops isConfigPath isSafeId files
  let taken := fun kind => take (parse kind) kind.label (entriesOf outcomes kind)
  { items := fun kind => (taken kind).out
    errors := errorsOf outcomes ++ ConfigSection.taken.flatMap fun kind => (taken kind).errors }

/-! ## What is accepted, and what it means -/

theorem errorsOf_eq_nil {outcomes : List (Except String (ConfigSection × Entry))} :
    errorsOf outcomes = [] ↔ ∀ outcome ∈ outcomes, ∃ found, outcome = .ok found := by
  rw [errorsOf, List.filterMap_eq_nil_iff]
  refine forall₂_congr fun outcome _ => ?_
  cases outcome <;> simp

theorem errorsOf_append (outcomes more : List (Except String (ConfigSection × Entry))) :
    errorsOf (outcomes ++ more) = errorsOf outcomes ++ errorsOf more := List.filterMap_append

theorem mem_entriesOf {outcomes : List (Except String (ConfigSection × Entry))}
    {kind : ConfigSection} {entry : Entry} :
    entry ∈ entriesOf outcomes kind ↔ .ok (kind, entry) ∈ outcomes := by
  rw [entriesOf, List.mem_filterMap]
  constructor
  · rintro ⟨outcome, houtcome, hentry⟩
    rcases outcome with e | ⟨other, found⟩
    · cases hentry
    · obtain ⟨rfl, hfound⟩ := Option.ite_none_right_eq_some.mp hentry
      rwa [Option.some.inj hfound] at houtcome
  · exact fun hentry => ⟨_, hentry, by simp⟩

variable {ops isConfigPath isSafeId parse}

theorem loadItems_errors_eq_nil {files : List ItemFile} :
    (loadItems ops isConfigPath isSafeId parse files).errors = [] ↔
      (∀ outcome ∈ readFiles ops isConfigPath isSafeId files, ∃ found, outcome = .ok found) ∧
      ∀ kind, Takable (parse kind) kind.label
        (entriesOf (readFiles ops isConfigPath isSafeId files) kind) := by
  rw [loadItems, List.append_eq_nil_iff, errorsOf_eq_nil, List.flatMap_eq_nil_iff]
  refine and_congr_right fun _ => ⟨fun h kind => ?_, fun h kind _ => ?_⟩
  · exact (take_of _).errors.mp (h kind kind.mem_taken)
  · exact (take_of _).errors.mpr (h kind)

/-- The items of a directory load without an error exactly when each of its files
is in order, each name of a section stands once and each item has its type. The
sections then hold the items of the files and nothing else; and whatever is wrong
with one file is reported in full, whatever is wrong with the others. -/
theorem loadItems_exact (files : List ItemFile) :
    ((loadItems ops isConfigPath isSafeId parse files).errors = [] ↔
      (∀ file ∈ files, ∀ outcome ∈ readFile ops isConfigPath isSafeId file,
        ∃ found, outcome = .ok found) ∧
      ∀ kind, Takable (parse kind) kind.label
        (entriesOf (readFiles ops isConfigPath isSafeId files) kind)) ∧
    ((loadItems ops isConfigPath isSafeId parse files).errors = [] → ∀ kind name item,
      ((loadItems ops isConfigPath isSafeId parse files).items kind)[name]? = some item ↔
        ∃ file ∈ files, ∃ entry, .ok (kind, entry) ∈ readFile ops isConfigPath isSafeId file ∧
          entry.name = name ∧ entry.typed (parse kind) kind.label = .ok item) ∧
    ∀ file ∈ files, errorsOf (readFile ops isConfigPath isSafeId file) <:+:
      (loadItems ops isConfigPath isSafeId parse files).errors := by
  refine ⟨?_, fun hnone kind name item => ?_, fun file hfile => ?_⟩
  · rw [loadItems_errors_eq_nil]
    refine and_congr_left fun _ =>
      ⟨fun h file hfile outcome houtcome => ?_, fun h outcome hread => ?_⟩
    · exact h outcome (List.mem_flatMap.mpr ⟨file, hfile, houtcome⟩)
    · obtain ⟨file, hfile, houtcome⟩ := List.mem_flatMap.mp hread
      exact h file hfile outcome houtcome
  · show (take (parse kind) kind.label _).out[name]? = some item ↔ _
    rw [getElem?_take ((loadItems_errors_eq_nil.mp hnone).2 kind)]
    constructor
    · rintro ⟨entry, hentry, hname, htyped⟩
      obtain ⟨file, hfile, hfound⟩ := List.mem_flatMap.mp (mem_entriesOf.mp hentry)
      exact ⟨file, hfile, entry, hfound, hname, htyped⟩
    · rintro ⟨file, hfile, entry, hfound, hname, htyped⟩
      exact ⟨entry, mem_entriesOf.mpr (List.mem_flatMap.mpr ⟨file, hfile, hfound⟩), hname, htyped⟩
  · obtain ⟨before, after, rfl⟩ := List.append_of_mem hfile
    simp only [loadItems, readFiles, List.flatMap_append, List.flatMap_cons, errorsOf_append,
      List.append_assoc]
    exact ⟨_, _, List.append_assoc _ _ _⟩

/-! ## Where an item stands does not matter -/

/-- What a file says of an item. -/
def Entry.content (entry : Entry) : String × List (String × Json) × List (String × Json) :=
  (entry.name, entry.body, entry.text)

/-- What a section's type makes of it. -/
def typedContent {Value : Type} (parse : Json → Json → Except String Value)
    (content : String × List (String × Json) × List (String × Json)) : Option Value :=
  (Entry.typed parse "" ⟨"", content.1, content.2.1, content.2.2⟩).toOption

section
variable {Value : Type} {parse : Json → Json → Except String Value} {label : String}

/-- The file and the label are only told of in errors. -/
theorem typed_iff {entry : Entry} {item : Value} :
    entry.typed parse label = .ok item ↔ typedContent parse entry.content = some item := by
  have hdisplay : Entry.display ⟨"", entry.name, entry.body, entry.text⟩ = entry.display := rfl
  simp only [Entry.typed, typedContent, Entry.content, hdisplay]
  cases entry.display with
  | none => exact iff_of_false (fun h => by cases h) (fun h => by cases h)
  | some display =>
    simp only
    split
    · exact Results.toOption_eq_some_iff.symm
    · exact iff_of_false (fun h => by cases h) (fun h => by cases h)

theorem takable_iff {entries : List Entry} : Takable parse label entries ↔
    ((entries.map Entry.content).map Prod.fst).Nodup ∧
      ∀ content ∈ entries.map Entry.content, ∃ item, typedContent parse content = some item := by
  rw [Takable, List.map_map, List.forall_mem_map]
  exact and_congr_right fun _ => forall₂_congr fun entry _ => exists_congr fun item => typed_iff

theorem exists_typed_iff {entries : List Entry} {name : String} {item : Value} :
    (∃ entry ∈ entries, entry.name = name ∧ entry.typed parse label = .ok item) ↔
      ∃ content ∈ entries.map Entry.content,
        content.1 = name ∧ typedContent parse content = some item := by
  constructor
  · rintro ⟨entry, hentry, hname, htyped⟩
    exact ⟨_, List.mem_map_of_mem hentry, hname, typed_iff.mp htyped⟩
  · rintro ⟨content, hcontent, hname, htyped⟩
    obtain ⟨entry, hentry, rfl⟩ := List.mem_map.mp hcontent
    exact ⟨entry, hentry, hname, typed_iff.mpr htyped⟩

end

/-- The same items, in whatever files and whatever order, are the same
configuration: one is accepted if the other is, and means the same. -/
theorem loadItems_rearranged {files files' : List ItemFile}
    (hread : (∃ outcome ∈ readFiles ops isConfigPath isSafeId files, ∃ e, outcome = .error e) ↔
      ∃ outcome ∈ readFiles ops isConfigPath isSafeId files', ∃ e, outcome = .error e)
    (hsame : ∀ kind,
      ((entriesOf (readFiles ops isConfigPath isSafeId files) kind).map Entry.content).Perm
        ((entriesOf (readFiles ops isConfigPath isSafeId files') kind).map Entry.content)) :
    ((loadItems ops isConfigPath isSafeId parse files).errors = [] ↔
      (loadItems ops isConfigPath isSafeId parse files').errors = []) ∧
    ((loadItems ops isConfigPath isSafeId parse files).errors = [] →
      (loadItems ops isConfigPath isSafeId parse files).items =
        (loadItems ops isConfigPath isSafeId parse files').items) := by
  have htake : ∀ kind,
      Takable (parse kind) kind.label
        (entriesOf (readFiles ops isConfigPath isSafeId files) kind) ↔
      Takable (parse kind) kind.label
        (entriesOf (readFiles ops isConfigPath isSafeId files') kind) := by
    intro kind
    rw [takable_iff, takable_iff]
    refine and_congr ((hsame kind).map _).nodup_iff (forall_congr' fun content => ?_)
    rw [(hsame kind).mem_iff]
  have hok : ∀ files, (∀ outcome ∈ readFiles ops isConfigPath isSafeId files,
      ∃ found, outcome = .ok found) ↔
      ¬ ∃ outcome ∈ readFiles ops isConfigPath isSafeId files, ∃ e, outcome = .error e := by
    intro files
    rw [not_exists]
    refine forall_congr' fun outcome => ?_
    rcases outcome with e | found <;> simp
  have haccepted : (loadItems ops isConfigPath isSafeId parse files).errors = [] ↔
      (loadItems ops isConfigPath isSafeId parse files').errors = [] := by
    rw [loadItems_errors_eq_nil, loadItems_errors_eq_nil, hok, hok, hread]
    exact and_congr_right fun _ => forall_congr' htake
  refine ⟨haccepted, fun hnone => funext fun kind => ?_⟩
  have htakable := (loadItems_errors_eq_nil.mp hnone).2 kind
  refine Std.ExtTreeMap.ext_getElem? fun name => Option.ext fun item => ?_
  show (take (parse kind) kind.label _).out[name]? = some item ↔
    (take (parse kind) kind.label _).out[name]? = some item
  rw [getElem?_take htakable, getElem?_take ((htake kind).mp htakable), exists_typed_iff,
    exists_typed_iff]
  exact exists_congr fun content => and_congr_left fun _ => (hsame kind).mem_iff

end Loading

end UnifiedApi

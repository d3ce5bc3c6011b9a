import UnifiedApi.Domain.HostFilter
import UnifiedApi.Domain.VarPath
import UnifiedApi.Lib.FormUrl
import UnifiedApi.Lib.Text

/-! # The facts one host prints

One stream carries every file: a record separator, the file's name, a line
break, its content. What the separators stand in is not looked at. -/

namespace UnifiedApi.Ssh

/-! ## Reading the stream -/

section Reading
variable (ops : TextOps) (fromStr : List Char → Option Json)

/-- The name in a line of the form `[name]`. -/
def sectionName? : List Char → Option (List Char)
  | '[' :: rest => if rest.getLast? = some ']' then some (Text.trim rest.dropLast) else none
  | _ => none

/-- One line: blank, a comment, a section's header, or a key of the section
that is open. -/
def iniLine (state : List (String × Json) × Option String) (line : List Char) :
    Option (List (String × Json) × Option String) :=
  let (sections, current) := state
  let line := Text.trim line
  if line.isEmpty || line.head? == some '#' || line.head? == some ';' then some state
  else match sectionName? line with
    | some name =>
      let name := String.ofList name
      let sections := match sections.lookup name with
        | some _ => sections
        | none => Json.setField name (.object []) sections
      some (sections, some name)
    | none => do
      let name ← current
      let (key, value) ← Text.splitOnce (fun c => c == '=' || c == ':') line
      let key := String.ofList (ops.toLowercase (Text.trim key))
      let value := Json.string (String.ofList (Text.trim value))
      match sections.lookup name with
      | some (.object fields) =>
        some (Json.setField name (.object (Json.setField key value fields)) sections, current)
      | _ => some state

def parseIni (content : List Char) : Option Json := do
  let (sections, _) ← (Text.lines content).foldlM (iniLine ops) ([], none)
  if sections.isEmpty then none else some (.object sections)

def parseFact (content : List Char) : Json :=
  match fromStr content with
  | some value => value
  | none => (parseIni ops content).getD (.string "error loading fact - please check content")

/-- `0x1e` as a character. -/
def recordSeparator : Char := '\x1e'

/-- One record: its first line is the name, and what follows the fact. -/
def insertRecord (vars : HostVars) (record : List Char) : HostVars :=
  let (name, content) := (Text.splitOnce (· == '\n') record).getD (record, [])
  if name.isEmpty then vars
  else vars.insert (String.ofList name) (parseFact ops fromStr (Text.trim content))

def parseFactsOutput (output : List Char) : HostVars :=
  ((output.splitOn recordSeparator).drop 1).foldl (insertRecord ops fromStr) ∅

end Reading

/-! ## Writing it -/

/-- A file that matched: its name without the extension, and what it holds
or, run, prints. -/
structure FactFile where
  name : List UInt8
  content : List UInt8
  deriving DecidableEq

namespace FactFile

/-- `printf "\036%s\n"`, the content and `echo`. -/
def announced (file : FactFile) : List UInt8 :=
  0x1E :: file.name ++ 0x0A :: file.content ++ [0x0A]

/-- The name as the fact has it. -/
def key (file : FactFile) : String := String.ofList (FormUrl.fromUtf8Lossy file.name)

end FactFile

def factsStream (files : List FactFile) : List UInt8 := files.flatMap FactFile.announced

/-- What the host's facts are, when it prints these files. -/
def facts (ops : TextOps) (fromStr : List Char → Option Json) (files : List FactFile) : HostVars :=
  parseFactsOutput ops fromStr (FormUrl.fromUtf8Lossy (factsStream files))

/-! ## What one record does -/

/-- The first line of a record, which is its name. -/
def recordName (record : List Char) : List Char := record.takeWhile (· != '\n')

/-- The fact that a record writes; a record without a name writes none. -/
def recordKey? (record : List Char) : Option String :=
  if (recordName record).isEmpty then none else some (String.ofList (recordName record))

theorem recordKey?_eq_some {record : List Char} {a : String} :
    recordKey? record = some a ↔ recordName record = a.toList ∧ a ≠ "" := by
  unfold recordKey?
  constructor
  · intro h
    split at h
    · cases h
    · rename_i hne
      obtain rfl := Option.some.inj h
      rw [List.isEmpty_iff] at hne
      refine ⟨String.toList_ofList.symm, fun hempty => hne ?_⟩
      rw [← String.toList_ofList (l := recordName record), hempty]
      rfl
  · intro h
    obtain ⟨hname, hne⟩ := h
    rw [hname, if_neg, String.ofList_toList]
    rwa [List.isEmpty_iff, String.toList_eq_nil_iff]

section Facts
variable {ops : TextOps} {fromStr : List Char → Option Json}

/-- What a record's fact would be. -/
def recordFact (ops : TextOps) (fromStr : List Char → Option Json) (record : List Char) : Json :=
  parseFact ops fromStr (Text.trim ((Text.splitOnce (· == '\n') record).getD (record, [])).2)

theorem splitOnce_name (record : List Char) :
    ((Text.splitOnce (· == '\n') record).getD (record, [])).1 = recordName record := by
  unfold Text.splitOnce recordName
  split
  · rfl
  · rename_i hdrop
    rw [List.dropWhile_eq_nil_iff] at hdrop
    exact (List.takeWhile_eq_self_iff.mpr hdrop).symm

theorem insertRecord_getElem? (vars : HostVars) (record : List Char) (a : String) :
    (insertRecord ops fromStr vars record)[a]? =
      if recordKey? record = some a then some (recordFact ops fromStr record) else vars[a]? := by
  unfold insertRecord recordKey? recordFact
  rw [← splitOnce_name record]
  obtain ⟨name, content⟩ := (Text.splitOnce (· == '\n') record).getD (record, [])
  dsimp only
  split
  · rw [if_neg (fun h => by cases h)]
  · rw [StrMap.getElem?_insert]
    congr 1
    rw [Option.some.injEq]

/-- What the records leave under one name. -/
def lastFact (ops : TextOps) (fromStr : List Char → Option Json) (a : String)
    (old : Option Json) (records : List (List Char)) : Option Json :=
  records.foldl (fun old record =>
    if recordKey? record = some a then some (recordFact ops fromStr record) else old) old

theorem foldl_insertRecord (records : List (List Char)) (vars : HostVars) (a : String) :
    (records.foldl (insertRecord ops fromStr) vars)[a]? =
      lastFact ops fromStr a vars[a]? records := by
  induction records generalizing vars with
  | nil => rfl
  | cons record records ih =>
    rw [List.foldl_cons, ih, insertRecord_getElem?]
    rfl

theorem lastFact_append (a : String) (old : Option Json) (records more : List (List Char)) :
    lastFact ops fromStr a old (records ++ more) =
      lastFact ops fromStr a (lastFact ops fromStr a old records) more := List.foldl_append

theorem lastFact_of_unnamed {records : List (List Char)} {a : String} (old : Option Json)
    (h : ∀ record ∈ records, recordKey? record ≠ some a) :
    lastFact ops fromStr a old records = old := by
  induction records with
  | nil => rfl
  | cons record records ih =>
    unfold lastFact
    rw [List.foldl_cons, if_neg (h record List.mem_cons_self)]
    exact ih fun record hrecord => h record (List.mem_cons_of_mem _ hrecord)

variable (ops fromStr) in
/-- A name that is written has a value that does not depend on what stood
there before. -/
theorem lastFact_of_named {records : List (List Char)} {a : String} {record : List Char}
    (hrecord : record ∈ records) (h : recordKey? record = some a) :
    ∃ value, ∀ old, lastFact ops fromStr a old records = some value := by
  induction records generalizing record with
  | nil => cases hrecord
  | cons first records ih =>
    by_cases hrest : ∃ record ∈ records, recordKey? record = some a
    · obtain ⟨later, hlater, hkey⟩ := hrest
      obtain ⟨value, hvalue⟩ := ih hlater hkey
      exact ⟨value, fun old => hvalue _⟩
    · have hunnamed : ∀ later ∈ records, recordKey? later ≠ some a :=
        fun later hlater hkey => hrest ⟨later, hlater, hkey⟩
      rcases List.mem_cons.mp hrecord with rfl | hmem
      · refine ⟨recordFact ops fromStr record, fun old => ?_⟩
        unfold lastFact
        rw [List.foldl_cons, if_pos h]
        exact lastFact_of_unnamed _ hunnamed
      · exact absurd h (hunnamed record hmem)

end Facts

/-! ## What one file does -/

namespace FactFile

/-- What is read of the file: its name, a line break, its content and another. -/
def text (file : FactFile) : List Char :=
  FormUrl.fromUtf8Lossy file.name ++ '\n' :: FormUrl.fromUtf8Lossy file.content ++ ['\n']

def records (file : FactFile) : List (List Char) := file.text.splitOn recordSeparator

/-- Some record of the file has this name. -/
def Opens (file : FactFile) (a : String) : Prop :=
  ∃ record ∈ file.records, recordKey? record = some a

/-- The name has no record separator, and behind every one in the content
stands the file's own name, up to a line break or the next one, or nothing. -/
def OpensOnlyItself (file : FactFile) : Prop :=
  recordSeparator ∉ file.key.toList ∧
  ∀ before after, FormUrl.fromUtf8Lossy file.content = before ++ recordSeparator :: after →
    (after.takeWhile fun c => c != '\n' && c != recordSeparator) ∈ [[], file.key.toList]

/-- In particular where there is no separator. -/
theorem opensOnlyItself_of_notMem {file : FactFile} (hname : recordSeparator ∉ file.key.toList)
    (hcontent : recordSeparator ∉ FormUrl.fromUtf8Lossy file.content) : file.OpensOnlyItself := by
  refine ⟨hname, fun before after heq => absurd ?_ hcontent⟩
  rw [heq]
  exact List.mem_append_right _ List.mem_cons_self

theorem fromUtf8Lossy_announced (file : FactFile) (rest : List UInt8) :
    FormUrl.fromUtf8Lossy (file.announced ++ rest) =
      recordSeparator :: file.text ++ FormUrl.fromUtf8Lossy rest := by
  have hbreak : (0x0A : UInt8).toNat < 0x80 := by decide
  have hseparator : (0x1E : UInt8).toNat < 0x80 := by decide
  unfold announced text
  rw [List.append_assoc, List.append_assoc, List.cons_append,
    FormUrl.fromUtf8Lossy_ascii_cons hseparator, List.singleton_append, List.cons_append,
    FormUrl.fromUtf8Lossy_append_cons hbreak, FormUrl.fromUtf8Lossy_ascii_cons hbreak,
    FormUrl.fromUtf8Lossy_append_cons hbreak, FormUrl.fromUtf8Lossy_ascii_cons hbreak]
  simp [recordSeparator]

/-- The name of a record that a separator opens; the last one ends with the
break that `echo` writes. -/
theorem recordName_takeWhile (more : List Char) :
    recordName ((more ++ ['\n']).takeWhile (· != recordSeparator)) =
      more.takeWhile fun c => c != '\n' && c != recordSeparator := by
  unfold recordName
  rw [List.takeWhile_takeWhile]
  induction more with
  | nil => rfl
  | cons first more ih =>
    rw [List.cons_append, List.takeWhile_cons, List.takeWhile_cons, ih]
    simp

theorem eq_append_of_notMem {xs ys before after : List Char} {c : Char} (h : c ∉ xs)
    (heq : xs ++ ys = before ++ c :: after) :
    ∃ more, before = xs ++ more ∧ ys = more ++ c :: after := by
  rcases List.append_eq_append_iff.mp heq with ⟨more, hbefore, hys⟩ | ⟨excess, hxs, hrest⟩
  · exact ⟨more, hbefore, hys⟩
  · cases excess with
    | nil => exact ⟨[], by rw [hxs, List.append_nil, List.append_nil], hrest.symm⟩
    | cons first excess =>
      obtain ⟨rfl, -⟩ := List.cons.inj hrest
      exact absurd (hxs ▸ List.mem_append_right _ List.mem_cons_self) h

theorem eq_append_of_ne {ys before after : List Char} {c last : Char} (h : c ≠ last)
    (heq : ys ++ [last] = before ++ c :: after) :
    ∃ more, after = more ++ [last] ∧ ys = before ++ c :: more := by
  rcases List.eq_nil_or_concat after with rfl | ⟨more, z, rfl⟩
  · obtain ⟨-, hlast⟩ := List.append_inj' heq rfl
    exact absurd (List.singleton_inj.mp hlast).symm h
  · rw [List.concat_eq_append, ← List.cons_append, ← List.append_assoc] at heq
    obtain ⟨hys, hlast⟩ := List.append_inj' heq rfl
    obtain rfl := List.singleton_inj.mp hlast
    exact ⟨more, List.concat_eq_append, hys⟩

/-- The names that a file's records have: its own, and what stands behind the
separators in its content. -/
theorem opens_iff {file : FactFile} (hne : file.key ≠ "") (hline : '\n' ∉ file.key.toList)
    (hseparator : recordSeparator ∉ file.key.toList) (a : String) :
    file.Opens a ↔ a = file.key ∨ a ≠ "" ∧ ∃ before after,
      FormUrl.fromUtf8Lossy file.content = before ++ recordSeparator :: after ∧
      a.toList = after.takeWhile fun c => c != '\n' && c != recordSeparator := by
  have hname : FormUrl.fromUtf8Lossy file.name = file.key.toList := String.toList_ofList.symm
  obtain ⟨others, hsplit, hothers⟩ := Text.splitOn_eq recordSeparator file.text
  have hfirst : recordName (file.text.takeWhile (· != recordSeparator)) = file.key.toList := by
    unfold recordName text
    rw [List.takeWhile_takeWhile, hname, List.append_assoc, List.takeWhile_append_of_pos]
    · simp
    · intro c hc
      have hbreak : c ≠ '\n' := fun heq => hline (heq ▸ hc)
      have hsep : c ≠ recordSeparator := fun heq => hseparator (heq ▸ hc)
      simp [hbreak, hsep]
  have hbreak : recordSeparator ∉ file.key.toList ++ ['\n'] := by
    rw [List.mem_append, not_or]
    exact ⟨hseparator, by decide⟩
  have htext : file.text =
      (file.key.toList ++ ['\n']) ++ (FormUrl.fromUtf8Lossy file.content ++ ['\n']) := by
    unfold text
    rw [hname]
    simp
  unfold Opens records
  rw [hsplit]
  constructor
  · intro h
    obtain ⟨record, hrecord, hkey⟩ := h
    obtain ⟨hrecordName, ha⟩ := recordKey?_eq_some.mp hkey
    rcases List.mem_cons.mp hrecord with rfl | hmem
    · exact .inl (String.toList_inj.mp (hrecordName.symm.trans hfirst))
    · obtain ⟨before, after, heq, rfl⟩ := (hothers record).mp hmem
      obtain ⟨front, -, heq⟩ := eq_append_of_notMem hbreak (htext.symm.trans heq)
      obtain ⟨more, rfl, hcontent⟩ := eq_append_of_ne (by decide) heq
      exact .inr ⟨ha, front, more, hcontent, by rw [← hrecordName, recordName_takeWhile]⟩
  · intro h
    obtain rfl | ⟨ha, before, after, hcontent, hafter⟩ := h
    · exact ⟨_, List.mem_cons_self, recordKey?_eq_some.mpr ⟨hfirst, hne⟩⟩
    · refine ⟨(after ++ ['\n']).takeWhile (· != recordSeparator), List.mem_cons_of_mem _ ?_,
        recordKey?_eq_some.mpr ⟨(recordName_takeWhile after).trans hafter.symm, ha⟩⟩
      refine (hothers _).mpr ⟨file.key.toList ++ '\n' :: before, after ++ ['\n'], ?_, rfl⟩
      rw [htext, hcontent]
      simp

theorem not_opens_of_separator {file : FactFile} {a : String} (h : recordSeparator ∈ a.toList) :
    ¬ file.Opens a := by
  intro h
  obtain ⟨record, hrecord, hkey⟩ := h
  obtain ⟨hname, -⟩ := recordKey?_eq_some.mp hkey
  have hmem : recordSeparator ∈ record := by
    rw [← hname] at h
    exact List.takeWhile_subset _ h
  obtain ⟨others, hsplit, hothers⟩ := Text.splitOn_eq recordSeparator file.text
  unfold records at hrecord
  rw [hsplit] at hrecord
  have hpiece : ∀ more : List Char,
      recordSeparator ∉ more.takeWhile (· != recordSeparator) := by
    intro more hpiece
    simpa using List.mem_takeWhile_imp hpiece
  rcases List.mem_cons.mp hrecord with rfl | hrecord
  · exact hpiece _ hmem
  · obtain ⟨before, after, -, rfl⟩ := (hothers record).mp hrecord
    exact hpiece _ hmem

/-- A file opens only itself exactly when its records have its name and no other. -/
theorem opensOnlyItself_iff {file : FactFile} (hne : file.key ≠ "")
    (hline : '\n' ∉ file.key.toList) :
    file.OpensOnlyItself ↔ file.Opens file.key ∧ ∀ a, file.Opens a → a = file.key := by
  constructor
  · intro h
    obtain ⟨hseparator, hcontent⟩ := h
    refine ⟨(opens_iff hne hline hseparator _).mpr (.inl rfl), fun a ha => ?_⟩
    rcases (opens_iff hne hline hseparator a).mp ha with rfl | ⟨hempty, before, after, heq, hname⟩
    · rfl
    · have hown := hcontent before after heq
      rw [← hname, List.mem_cons, List.mem_singleton, String.toList_eq_nil_iff,
        String.toList_inj] at hown
      exact hown.resolve_left hempty
  · intro h
    obtain ⟨hown, honly⟩ := h
    have hseparator : recordSeparator ∉ file.key.toList :=
      fun h => not_opens_of_separator h hown
    refine ⟨hseparator, fun before after heq => ?_⟩
    by_cases hempty : (after.takeWhile fun c => c != '\n' && c != recordSeparator) = []
    · rw [hempty]
      exact List.mem_cons_self
    · have hopens : file.Opens (String.ofList
          (after.takeWhile fun c => c != '\n' && c != recordSeparator)) := by
        refine (opens_iff hne hline hseparator _).mpr (.inr ⟨?_, before, after, heq, ?_⟩)
        · rwa [ne_eq, ← String.toList_eq_nil_iff, String.toList_ofList]
        · rw [String.toList_ofList]
      rw [← honly _ hopens, String.toList_ofList]
      exact List.mem_cons_of_mem _ List.mem_cons_self

end FactFile

/-! ## What all of them do -/

/-- Distinct names, each one line and not empty. -/
def Named (files : List FactFile) : Prop :=
  (files.map FactFile.key).Nodup ∧ ∀ file ∈ files, file.key ≠ "" ∧ '\n' ∉ file.key.toList

instance (files : List FactFile) : Decidable (Named files) := inferInstanceAs (Decidable (_ ∧ _))

/-- Whatever other files there are, the file changes no fact of theirs, adds
none and removes none. -/
def KeepsToItself (ops : TextOps) (fromStr : List Char → Option Json) (file : FactFile) : Prop :=
  ∀ before after, Named (before ++ file :: after) → ∀ a, a ≠ file.key →
    (facts ops fromStr (before ++ file :: after))[a]? = (facts ops fromStr (before ++ after))[a]?

/-- The names of the facts are the files', and each fact is what its file
alone would make it. -/
structure Isolated (ops : TextOps) (fromStr : List Char → Option Json)
    (files : List FactFile) : Prop where
  own : ∀ file ∈ files, ∃ value, (facts ops fromStr files)[file.key]? = some value ∧
    (facts ops fromStr [file])[file.key]? = some value
  only : ∀ a ∈ facts ops fromStr files, ∃ file ∈ files, file.key = a
  apart : ∀ file ∈ files, KeepsToItself ops fromStr file

variable {ops : TextOps} {fromStr : List Char → Option Json}

theorem splitOn_factsText (files : List FactFile) :
    ((files.flatMap fun file => recordSeparator :: file.text).splitOn recordSeparator).drop 1 =
      files.flatMap FactFile.records := by
  induction files with
  | nil => rfl
  | cons file files ih =>
    have hdrop : ∀ more : List Char,
        ((recordSeparator :: more).splitOn recordSeparator).drop 1 =
          more.splitOn recordSeparator := by
      intro more
      rw [List.splitOn_cons_eq_if_modifyHead, if_pos (beq_self_eq_true _), List.drop_succ_cons,
        List.drop_zero]
    rw [List.flatMap_cons, List.flatMap_cons, List.cons_append, hdrop]
    cases files with
    | nil => simp [FactFile.records]
    | cons next files =>
      rw [List.flatMap_cons, List.cons_append, hdrop] at ih
      rw [List.flatMap_cons, List.cons_append, List.splitOn_append_cons_self, ih]
      rfl

theorem fromUtf8Lossy_factsStream (files : List FactFile) :
    FormUrl.fromUtf8Lossy (factsStream files) =
      files.flatMap fun file => recordSeparator :: file.text := by
  unfold factsStream
  induction files with
  | nil => rfl
  | cons file files ih =>
    rw [List.flatMap_cons, List.flatMap_cons, FactFile.fromUtf8Lossy_announced, ih]

/-- The fact of a name is the last one that any file's records write. -/
theorem facts_getElem? (files : List FactFile) (a : String) :
    (facts ops fromStr files)[a]? =
      lastFact ops fromStr a none (files.flatMap FactFile.records) := by
  unfold facts parseFactsOutput
  rw [fromUtf8Lossy_factsStream, splitOn_factsText, foldl_insertRecord]
  rfl

theorem mem_facts_iff {files : List FactFile} {a : String} :
    a ∈ facts ops fromStr files ↔ ∃ file ∈ files, file.Opens a := by
  rw [StrMap.mem_iff, facts_getElem?]
  constructor
  · intro h
    by_contra hnone
    refine h (lastFact_of_unnamed _ fun record hrecord hkey => hnone ?_)
    obtain ⟨file, hfile, hmem⟩ := List.mem_flatMap.mp hrecord
    exact ⟨file, hfile, record, hmem, hkey⟩
  · intro h hnone
    obtain ⟨file, hfile, record, hrecord, hkey⟩ := h
    obtain ⟨value, hvalue⟩ := lastFact_of_named ops fromStr
      (List.mem_flatMap.mpr ⟨file, hfile, hrecord⟩) hkey
    rw [hvalue] at hnone
    cases hnone

/-- A file that does not open a name leaves its fact as it is without it. -/
theorem facts_of_not_opens {before after : List FactFile} {file : FactFile} {a : String}
    (h : ¬ file.Opens a) : (facts ops fromStr (before ++ file :: after))[a]? =
      (facts ops fromStr (before ++ after))[a]? := by
  rw [facts_getElem?, facts_getElem?, List.flatMap_append, List.flatMap_append, List.flatMap_cons,
    lastFact_append, lastFact_append, lastFact_append,
    lastFact_of_unnamed _ fun record hrecord hkey => h ⟨record, hrecord, hkey⟩]

/-- A name that no later file opens has the fact that its file gives it. -/
theorem facts_of_opens {before after : List FactFile} {file : FactFile} {a : String}
    (h : file.Opens a) (hafter : ∀ other ∈ after, ¬ other.Opens a) :
    ∃ value, (facts ops fromStr (before ++ file :: after))[a]? = some value ∧
      (facts ops fromStr [file])[a]? = some value := by
  obtain ⟨record, hrecord, hkey⟩ := h
  obtain ⟨value, hvalue⟩ := lastFact_of_named ops fromStr hrecord hkey
  refine ⟨value, ?_, ?_⟩
  · rw [facts_getElem?, List.flatMap_append, List.flatMap_cons, lastFact_append, lastFact_append,
      hvalue]
    refine lastFact_of_unnamed _ fun other hother hname => ?_
    obtain ⟨later, hlater, hmem⟩ := List.mem_flatMap.mp hother
    exact hafter later hlater ⟨other, hmem, hname⟩
  · rw [facts_getElem?, List.flatMap_cons, List.flatMap_nil, List.append_nil, hvalue]

theorem Named.key_ne {before after : List FactFile} {file : FactFile}
    (h : Named (before ++ file :: after)) : ∀ other ∈ after, other.key ≠ file.key := by
  intro other hother heq
  have hnodup := h.1
  rw [List.map_append, List.map_cons, List.nodup_append, List.nodup_cons] at hnodup
  exact hnodup.2.1.1 (List.mem_map.mpr ⟨other, hother, heq⟩)

theorem named_singleton {files : List FactFile} (h : Named files) {file : FactFile}
    (hfile : file ∈ files) : Named [file] := by
  refine ⟨by simp, fun other hother => ?_⟩
  obtain rfl := List.mem_singleton.mp hother
  exact h.2 other hfile

/-- **Facts are isolated exactly when no file's separators open a record of
another name.** -/
theorem isolated_iff (ops : TextOps) (fromStr : List Char → Option Json) (files : List FactFile)
    (h : Named files) :
    Isolated ops fromStr files ↔ ∀ file ∈ files, file.OpensOnlyItself := by
  constructor
  · intro hisolated file hfile
    obtain ⟨hne, hline⟩ := h.2 file hfile
    have hopens : ∀ a, file.Opens a ↔ a ∈ facts ops fromStr [file] := by
      intro a
      rw [mem_facts_iff]
      exact ⟨fun ha => ⟨file, List.mem_singleton_self file, ha⟩,
        fun ⟨other, hother, ha⟩ => List.mem_singleton.mp hother ▸ ha⟩
    refine (FactFile.opensOnlyItself_iff hne hline).mpr ⟨?_, fun a ha => ?_⟩
    · obtain ⟨value, -, halone⟩ := hisolated.own file hfile
      exact (hopens _).mpr (StrMap.mem_of_some halone)
    · -- alone, the file would add a fact to those of no files
      by_contra hother
      have hnone := hisolated.apart file hfile [] [] (named_singleton h hfile) a hother
      exact StrMap.not_mem_of_none hnone ((hopens a).mp ha)
  · intro honly
    have hopens : ∀ file ∈ files, file.Opens file.key ∧ ∀ a, file.Opens a → a = file.key := by
      intro file hfile
      obtain ⟨hne, hline⟩ := h.2 file hfile
      exact (FactFile.opensOnlyItself_iff hne hline).mp (honly file hfile)
    constructor
    · intro file hfile
      obtain ⟨before, after, rfl⟩ := List.append_of_mem hfile
      refine facts_of_opens (hopens file hfile).1 fun other hother ha => ?_
      have hmem : other ∈ before ++ file :: after :=
        List.mem_append_right _ (List.mem_cons_of_mem _ hother)
      exact h.key_ne other hother ((hopens other hmem).2 _ ha).symm
    · intro a ha
      obtain ⟨file, hfile, hopen⟩ := mem_facts_iff.mp ha
      exact ⟨file, hfile, ((hopens file hfile).2 a hopen).symm⟩
    · intro file hfile before after _ a ha
      exact facts_of_not_opens fun hopen => ha ((hopens file hfile).2 a hopen)

/-- A change of one file's content changes no other fact, if neither content
opens another record. -/
theorem facts_changed {before after : List FactFile} {file changed : FactFile}
    (hfile : KeepsToItself ops fromStr file) (hchanged : KeepsToItself ops fromStr changed)
    (hnamed : Named (before ++ file :: after)) (hnamed' : Named (before ++ changed :: after))
    (hkey : changed.key = file.key) {a : String} (ha : a ≠ file.key) :
    (facts ops fromStr (before ++ changed :: after))[a]? =
      (facts ops fromStr (before ++ file :: after))[a]? := by
  rw [hfile before after hnamed a ha, hchanged before after hnamed' a (hkey ▸ ha)]

/-! ## A file that holds a separator -/

/-- A file of text. -/
def ofText (name content : List Char) : FactFile := ⟨FormUrl.utf8 name, FormUrl.utf8 content⟩

theorem fromUtf8Lossy_utf8 (text : List Char) : FormUrl.fromUtf8Lossy (FormUrl.utf8 text) = text :=
  FormUrl.decodeUtf8_utf8 text (Nat.le_refl _)

@[simp] theorem ofText_key (name content : List Char) :
    (ofText name content).key = String.ofList name := by
  unfold FactFile.key ofText
  rw [fromUtf8Lossy_utf8]

@[simp] theorem ofText_text (name content : List Char) :
    (ofText name content).text = name ++ '\n' :: content ++ ['\n'] := by
  unfold FactFile.text ofText
  rw [fromUtf8Lossy_utf8, fromUtf8Lossy_utf8]

@[simp] theorem ofText_content (name content : List Char) :
    FormUrl.fromUtf8Lossy (ofText name content).content = content := fromUtf8Lossy_utf8 content

def rackFile : FactFile := ofText "rack".toList "[location]\nrow=4\n".toList

/-- Neither JSON nor INI. -/
def webFile : FactFile := ofText "web".toList "?".toList

/-- The same with a record of `rack` in it. -/
def forgedFile : FactFile := ofText "web".toList "?\x1erack\n[location]\nrow=9\n".toList

theorem named_rack_web : Named [rackFile, webFile] := by
  unfold Named
  simp only [rackFile, webFile, List.map_cons, List.map_nil, ofText_key, List.forall_mem_cons]
  decide

theorem plainFiles_isolated : Isolated .wordsOnly (fun _ => none) [rackFile, webFile] := by
  refine (isolated_iff .wordsOnly _ _ named_rack_web).mpr fun file hfile => ?_
  rcases List.mem_cons.mp hfile with rfl | hfile
  · refine FactFile.opensOnlyItself_of_notMem ?_ ?_ <;> simp only [rackFile, ofText_key,
      ofText_content] <;> decide
  · obtain rfl := List.mem_singleton.mp hfile
    refine FactFile.opensOnlyItself_of_notMem ?_ ?_ <;> simp only [webFile, ofText_key,
      ofText_content] <;> decide

/-- The fact that `rackFile` makes, with its row. -/
def location (row : String) : Json := .object [("location", .object [("row", .string row)])]

/-- What is not looked at makes `rack` another fact. -/
theorem forgedFile_not_isolated :
    Named [rackFile, webFile] ∧ Named [rackFile, forgedFile] ∧ forgedFile.name = webFile.name ∧
      (facts .wordsOnly (fun _ => none) [rackFile, webFile])["rack"]? = some (location "4") ∧
      (facts .wordsOnly (fun _ => none) [rackFile, forgedFile])["rack"]? = some (location "9") ∧
      ¬ Isolated .wordsOnly (fun _ => none) [rackFile, forgedFile] := by
  have hnamed : Named [rackFile, forgedFile] := by
    unfold Named
    simp only [rackFile, forgedFile, List.map_cons, List.map_nil, ofText_key,
      List.forall_mem_cons]
    decide
  have hplain : (facts .wordsOnly (fun _ => none) [rackFile, webFile])["rack"]? =
      some (location "4") := by
    rw [facts_getElem?]
    simp only [List.flatMap_cons, List.flatMap_nil, FactFile.records, rackFile, webFile,
      ofText_text]
    rfl
  have halone : (facts .wordsOnly (fun _ => none) [rackFile])["rack"]? = some (location "4") := by
    rw [facts_getElem?]
    simp only [List.flatMap_cons, List.flatMap_nil, FactFile.records, rackFile, ofText_text]
    rfl
  have hforged : (facts .wordsOnly (fun _ => none) [rackFile, forgedFile])["rack"]? =
      some (location "9") := by
    rw [facts_getElem?]
    simp only [List.flatMap_cons, List.flatMap_nil, FactFile.records, rackFile, forgedFile,
      ofText_text]
    rfl
  refine ⟨named_rack_web, hnamed, rfl, hplain, hforged, fun h => ?_⟩
  have hapart := h.apart forgedFile (by simp) [rackFile] [] hnamed "rack" (by
    simp only [forgedFile, ofText_key]
    decide)
  rw [List.append_nil, List.singleton_append, hforged, halone] at hapart
  simp [location] at hapart

end UnifiedApi.Ssh

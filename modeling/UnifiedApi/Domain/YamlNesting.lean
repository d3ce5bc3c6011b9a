import UnifiedApi.Domain.JsonPaths
import UnifiedApi.Domain.YamlDocument

/-! # How deep a value can nest

The reader counts how deep it stands when an event begins a node. An alias is
one event, whatever it copies, so a value nests deeper than `maxDepth` exactly
if an alias stands too deep for what it copies. -/

namespace UnifiedApi

namespace Json

mutual
/-- How many collections a value nests below its root. -/
def depth : Json → Nat
  | array items => depthItems items
  | object fields => depthFields fields
  | _ => 0

def depthItems : List Json → Nat
  | [] => 0
  | item :: rest => max (item.depth + 1) (depthItems rest)

def depthFields : List (String × Json) → Nat
  | [] => 0
  | (_, value) :: rest => max (value.depth + 1) (depthFields rest)
end

theorem depthFields_perm {fields fields' : List (String × Json)} (h : fields.Perm fields') :
    depthFields fields = depthFields fields' := by
  induction h with
  | nil => rfl
  | cons field _ ih => simp only [depthFields, ih]
  | swap field field' rest => simp only [depthFields, Nat.max_left_comm]
  | trans _ _ ih ih' => exact ih.trans ih'

end Json

namespace Yaml
open Json

theorem depth_of_isScalar {value : Json} (h : isScalar value = true) : value.depth = 0 := by
  cases value with
  | array items => cases h
  | object fields => cases h
  | null | bool b | number n | string s => simp only [depth]

mutual
/-- The depth of its value. -/
def Doc.height : Doc → Nat
  | .copy target => target.height
  | .scalar _ _ _ => 0
  | .sequence items => heightItems items
  | .mapping entries => heightEntries entries

def heightItems : List Doc → Nat
  | [] => 0
  | doc :: rest => max (doc.height + 1) (heightItems rest)

def heightEntries : List (MapKey × Doc) → Nat
  | [] => 0
  | (_, doc) :: rest => max (doc.height + 1) (heightEntries rest)
end

mutual
/-- What an alias copies fits below it. -/
def Doc.aliasesFit (depth : Nat) : Doc → Bool
  | .copy target => depth + target.height ≤ maxDepth
  | .scalar _ _ _ => true
  | .sequence items => itemsFit (depth + 1) items
  | .mapping entries => entriesFit (depth + 1) entries

def itemsFit (depth : Nat) : List Doc → Bool
  | [] => true
  | doc :: rest => doc.aliasesFit depth && itemsFit depth rest

def entriesFit (depth : Nat) : List (MapKey × Doc) → Bool
  | [] => true
  | (_, doc) :: rest => doc.aliasesFit depth && entriesFit depth rest
end

/-! ## Values -/

section
variable {ops : TextOps} {verbatim : Bool}

mutual
theorem depth_value : ∀ (doc : Doc) {value : Json}, doc.value ops verbatim = some value →
    value.depth = doc.height
  | .copy target, value, h => by
    rw [Doc.value] at h
    rw [Doc.height]
    exact depth_value target h
  | .scalar text style tag, value, h => by
    rw [Doc.value] at h
    obtain rfl := Option.some.inj h
    rw [Doc.height]
    exact depth_of_isScalar (isScalar_readScalar ops verbatim text style tag)
  | .sequence items, value, h => by
    rw [Doc.value] at h
    obtain ⟨values, hvalues, rfl⟩ := Option.map_eq_some_iff.mp h
    rw [Doc.height, depth]
    exact depth_valueItems items hvalues
  | .mapping entries, value, h => by
    rw [Doc.value] at h
    obtain ⟨map, hmap, rfl⟩ := Option.map_eq_some_iff.mp h
    rw [Doc.height, depth, depth_valueEntries entries hmap, depthFields, Nat.zero_max]

theorem depth_valueItems : ∀ (docs : List Doc) {values : List Json},
    valueItems ops verbatim docs = some values → depthItems values = heightItems docs
  | [], values, h => by
    rw [valueItems] at h
    obtain rfl := Option.some.inj h
    rfl
  | doc :: rest, values, h => by
    rw [valueItems] at h
    obtain ⟨value, hvalue, h⟩ := Option.bind_eq_some_iff.mp h
    obtain ⟨more, hmore, h⟩ := Option.bind_eq_some_iff.mp h
    obtain rfl := Option.some.inj h
    rw [depthItems, heightItems, depth_value doc hvalue, depth_valueItems rest hmore]

theorem depth_valueEntries : ∀ (entries : List (MapKey × Doc)) {map map' : List (String × Json)},
    valueEntries ops verbatim map entries = some map' →
      depthFields map' = max (depthFields map) (heightEntries entries)
  | [], map, map', h => by
    rw [valueEntries] at h
    obtain rfl := Option.some.inj h
    rw [heightEntries, Nat.max_zero]
  | (key, doc) :: rest, map, map', h => by
    rw [valueEntries] at h
    obtain ⟨value, hvalue, h⟩ := Option.bind_eq_some_iff.mp h
    split at h
    · cases h
    · rename_i hnew
      have hperm := setField_perm value (Option.not_isSome_iff_eq_none.mp hnew)
      rw [depth_valueEntries rest h, depthFields_perm hperm, depthFields, heightEntries,
        depth_value doc hvalue, Nat.max_assoc, Nat.max_left_comm]
end

end

/-! ## Composed documents -/

/-- Within the calls of some depth of fuel, only what aliases copy can be too
high for where it stands. -/
structure FittingCalls (fuel : Nat) : Prop where
  node : ∀ {event : Event} {depth : Nat} {composer composer' : Composer} {doc : Doc},
    composeNode fuel event depth composer = some (doc, composer') →
      (depth + doc.height ≤ maxDepth ↔ doc.aliasesFit depth = true)
  items : ∀ {depth : Nat} {composer composer' : Composer} {docs : List Doc},
    composeItems fuel depth composer = some (docs, composer') → depth ≤ maxDepth →
      (depth + heightItems docs ≤ maxDepth ↔ itemsFit (depth + 1) docs = true)
  entries : ∀ {depth : Nat} {composer composer' : Composer} {entries : List (MapKey × Doc)},
    composeEntries fuel depth composer = some (entries, composer') → depth ≤ maxDepth →
      (depth + heightEntries entries ≤ maxDepth ↔ entriesFit (depth + 1) entries = true)

/-- One more item or entry. -/
theorem fits_cons {depth height rest : Nat} {fits restFit : Bool}
    (h : depth + 1 + height ≤ maxDepth ↔ fits = true)
    (hrest : depth + rest ≤ maxDepth ↔ restFit = true) :
    depth + max (height + 1) rest ≤ maxDepth ↔ (fits && restFit) = true := by
  rw [Bool.and_eq_true, ← h, ← hrest]
  omega

section
variable {fuel depth : Nat} {event : Event} {composer composer' : Composer}

theorem FittingCalls.node_succ (ih : FittingCalls fuel) {doc : Doc}
    (h : composeNode (fuel + 1) event depth composer = some (doc, composer')) :
    depth + doc.height ≤ maxDepth ↔ doc.aliasesFit depth = true := by
  unfold composeNode at h
  split at h
  · cases h
  rename_i hdepth
  have hdepth : depth ≤ maxDepth := Nat.not_lt.mp hdepth
  split at h
  · obtain ⟨target, -, h⟩ := Option.bind_eq_some_iff.mp h
    split at h
    · cases h
    · cases h
      rw [Doc.height, Doc.aliasesFit, decide_eq_true_iff]
  · split at h
    · cases h
    · cases h
      simp only [Doc.height, Doc.aliasesFit, iff_true]
      exact hdepth
  · obtain ⟨⟨items, inner⟩, hitems, h⟩ := Option.bind_eq_some_iff.mp h
    cases h
    rw [Doc.height, Doc.aliasesFit]
    exact ih.items hitems hdepth
  · obtain ⟨⟨entries, inner⟩, hentries, h⟩ := Option.bind_eq_some_iff.mp h
    cases h
    rw [Doc.height, Doc.aliasesFit]
    exact ih.entries hentries hdepth
  · cases h

theorem FittingCalls.items_succ (ih : FittingCalls fuel) {docs : List Doc}
    (h : composeItems (fuel + 1) depth composer = some (docs, composer'))
    (hdepth : depth ≤ maxDepth) :
    depth + heightItems docs ≤ maxDepth ↔ itemsFit (depth + 1) docs = true := by
  unfold composeItems at h
  obtain ⟨⟨event, inner⟩, -, h⟩ := Option.bind_eq_some_iff.mp h
  dsimp only at h
  split at h
  · cases h
    simp only [heightItems, itemsFit, iff_true]
    exact hdepth
  · obtain ⟨⟨doc, after⟩, hdoc, h⟩ := Option.bind_eq_some_iff.mp h
    obtain ⟨⟨rest, final⟩, hrest, h⟩ := Option.bind_eq_some_iff.mp h
    cases h
    rw [heightItems, itemsFit]
    exact fits_cons (ih.node hdoc) (ih.items hrest hdepth)

theorem FittingCalls.entries_succ (ih : FittingCalls fuel) {entries : List (MapKey × Doc)}
    (h : composeEntries (fuel + 1) depth composer = some (entries, composer'))
    (hdepth : depth ≤ maxDepth) :
    depth + heightEntries entries ≤ maxDepth ↔ entriesFit (depth + 1) entries = true := by
  unfold composeEntries at h
  obtain ⟨⟨event, inner⟩, -, h⟩ := Option.bind_eq_some_iff.mp h
  dsimp only at h
  split at h
  · cases h
    simp only [heightEntries, entriesFit, iff_true]
    exact hdepth
  · obtain ⟨key, -, h⟩ := Option.bind_eq_some_iff.mp h
    obtain ⟨⟨first, before⟩, -, h⟩ := Option.bind_eq_some_iff.mp h
    obtain ⟨⟨doc, after⟩, hdoc, h⟩ := Option.bind_eq_some_iff.mp h
    obtain ⟨⟨rest, final⟩, hrest, h⟩ := Option.bind_eq_some_iff.mp h
    cases h
    rw [heightEntries, entriesFit]
    exact fits_cons (ih.node hdoc) (ih.entries hrest hdepth)

theorem fittingCalls (fuel : Nat) : FittingCalls fuel := by
  induction fuel with
  | zero =>
    constructor
    · intro event depth composer composer' doc h
      rw [composeNode] at h
      cases h
    · intro depth composer composer' docs h
      rw [composeItems] at h
      cases h
    · intro depth composer composer' entries h
      rw [composeEntries] at h
      cases h
  | succ fuel ih => exact ⟨ih.node_succ, ih.items_succ, ih.entries_succ⟩

theorem composeStream_fits {doc doc' : Doc} {documents : Nat}
    (h : composeStream fuel doc documents composer = some (doc', composer'))
    (hdoc : doc.height ≤ maxDepth ↔ doc.aliasesFit 0 = true) :
    doc'.height ≤ maxDepth ↔ doc'.aliasesFit 0 = true := by
  induction fuel generalizing doc documents composer with
  | zero => cases h
  | succ fuel ih =>
    unfold composeStream at h
    obtain ⟨⟨event, inner⟩, -, h⟩ := Option.bind_eq_some_iff.mp h
    dsimp only at h
    split at h
    · exact ih h hdoc
    · exact ih h hdoc
    · cases h
      exact hdoc
    · split at h
      · cases h
      · obtain ⟨⟨first, before⟩, -, h⟩ := Option.bind_eq_some_iff.mp h
        obtain ⟨⟨doc, after⟩, hnode, h⟩ := Option.bind_eq_some_iff.mp h
        have hfits := (fittingCalls _).node hnode
        rw [Nat.zero_add] at hfits
        exact ih h hfits
    · cases h

theorem compose_fits {events : Events} {doc : Doc} (h : compose events = some doc) :
    doc.height ≤ maxDepth ↔ doc.aliasesFit 0 = true := by
  obtain ⟨⟨doc, composer⟩, hstream, rfl⟩ := Option.map_eq_some_iff.mp h
  refine composeStream_fits hstream ?_
  simp [Doc.height, Doc.aliasesFit]

end

/-- What is read nests within `maxDepth` exactly if every alias stands high
enough for what it copies. -/
theorem nesting_bounded_iff (ops : TextOps) (verbatim : Bool) (events : Events) (value : Json)
    (h : read ops verbatim events = .ok value) :
    ∃ doc, compose events = some doc ∧
      (value.depth ≤ maxDepth ↔ doc.aliasesFit 0 = true) := by
  have hread := read_eq ops verbatim events
  rw [h] at hread
  obtain ⟨doc, hdoc, hvalue⟩ := Option.bind_eq_some_iff.mp hread.symm
  refine ⟨doc, hdoc, ?_⟩
  rw [depth_value doc hvalue]
  exact compose_fits hdoc

/-- `[&1 [x], *1]` -/
def copiedWord : Events :=
  [.streamStart, .documentStart, .sequenceStart 0,
    .sequenceStart 1, .scalar "x" .plain 0 none, .sequenceEnd,
    .alias 1, .sequenceEnd, .documentEnd, .streamEnd].map .ok

theorem copiedWord_nesting :
    ∃ doc, compose copiedWord = some doc ∧
      ((Json.array [.array [.string "x"], .array [.string "x"]]).depth ≤ maxDepth ↔
        doc.aliasesFit 0 = true) := by
  have hread : read .wordsOnly false copiedWord =
      .ok (.array [.array [.string "x"], .array [.string "x"]]) := by
    decide +kernel
  exact nesting_bounded_iff .wordsOnly false copiedWord _ hread

/-- `[&1 [… [] …], [… [*1] …]]`, each half within the depth. -/
def deepAlias : Events :=
  let events : List Event :=
    [.streamStart, .documentStart, .sequenceStart 0, .sequenceStart 1] ++
      List.replicate 99 (.sequenceStart 0) ++ List.replicate 100 .sequenceEnd ++
      List.replicate 99 (.sequenceStart 0) ++ [.alias 1] ++ List.replicate 99 .sequenceEnd ++
      [.sequenceEnd, .documentEnd, .streamEnd]
  events.map .ok

theorem deepAlias_too_deep :
    (∃ value, toJson .wordsOnly deepAlias = .ok value ∧ value.depth = 199) ∧
    ∃ value, toTextJson .wordsOnly deepAlias = .ok value ∧ value.depth = 199 := by
  have hplain : (read .wordsOnly false deepAlias).toOption.map depth = some 199 := by
    decide +kernel
  have htext : (read .wordsOnly true deepAlias).toOption.map depth = some 199 := by
    decide +kernel
  exact ⟨Results.ok_of_toOption_map hplain, Results.ok_of_toOption_map htext⟩

end Yaml

end UnifiedApi

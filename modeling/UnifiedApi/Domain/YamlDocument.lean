import UnifiedApi.Domain.Yaml

/-! # The document that a reading reads

What the events of a stream compose to, before any scalar is resolved: a tree
with its aliases. Composing refuses what both readings refuse. A reading then
resolves the scalars and the keys, and refuses a mapping where two keys come
out the same. -/

namespace UnifiedApi.Yaml

/-- A key by its text, or by an alias of a scalar. -/
inductive MapKey where
  | text (text : String)
  | copied (text : String) (style : ScalarStyle) (tag : Option Tag)

inductive Doc where
  | copy (target : Doc)
  | scalar (text : String) (style : ScalarStyle) (tag : Option Tag)
  | sequence (items : List Doc)
  | mapping (entries : List (MapKey × Doc))

mutual
/-- How many nodes it holds, with what the aliases copy. -/
def Doc.nodes : Doc → Nat
  | .copy target => target.nodes
  | .scalar _ _ _ => 1
  | .sequence items => 1 + nodesItems items
  | .mapping entries => 1 + nodesEntries entries

def nodesItems : List Doc → Nat
  | [] => 0
  | doc :: rest => doc.nodes + nodesItems rest

def nodesEntries : List (MapKey × Doc) → Nat
  | [] => 0
  | (_, doc) :: rest => doc.nodes + nodesEntries rest
end

def Doc.asKey : Doc → Option MapKey
  | .copy target => target.asKey
  | .scalar text style tag => some (.copied text style tag)
  | _ => none

/-! ## Composing -/

structure Composer where
  parser : Events
  anchors : Std.ExtTreeMap Nat Doc := ∅
  events : Nat := 0
  copied : Nat := 0

namespace Composer

def next (composer : Composer) : Option (Event × Composer) :=
  match composer.parser with
  | .ok event :: rest =>
    some (event, { composer with parser := rest, events := composer.events + 1 })
  | _ => none

def keep (composer : Composer) (anchor : Nat) (doc : Doc) : Composer :=
  if anchor = 0 then composer
  else { composer with anchors := composer.anchors.insert anchor doc }

def key (composer : Composer) : Event → Option MapKey
  | .scalar text _ _ _ => some (.text text)
  | .alias id => composer.anchors[id]?.bind Doc.asKey
  | _ => none

end Composer

mutual
/-- The node that begins with `event`. -/
def composeNode : Nat → Event → Nat → Composer → Option (Doc × Composer)
  | 0, _, _, _ => none
  | fuel + 1, event, depth, composer =>
    if depth > maxDepth then none
    else match event with
      | .alias id => do
        let target ← composer.anchors[id]?
        if composer.copied + target.nodes > max minAliasBudget (composer.events * 100) then none
        else some (.copy target, { composer with copied := composer.copied + target.nodes })
      | .scalar text style anchor tag =>
        if tag.any isVault then none
        else some (.scalar text style tag, composer.keep anchor (.scalar text style tag))
      | .sequenceStart anchor => do
        let (items, composer) ← composeItems fuel depth composer
        return (.sequence items, composer.keep anchor (.sequence items))
      | .mappingStart anchor => do
        let (entries, composer) ← composeEntries fuel depth composer
        return (.mapping entries, composer.keep anchor (.mapping entries))
      | _ => none

def composeItems : Nat → Nat → Composer → Option (List Doc × Composer)
  | 0, _, _ => none
  | fuel + 1, depth, composer => do
    let (event, composer) ← composer.next
    if event = .sequenceEnd then return ([], composer)
    else
      let (doc, composer) ← composeNode fuel event (depth + 1) composer
      let (rest, composer) ← composeItems fuel depth composer
      return (doc :: rest, composer)

def composeEntries : Nat → Nat → Composer → Option (List (MapKey × Doc) × Composer)
  | 0, _, _ => none
  | fuel + 1, depth, composer => do
    let (event, composer) ← composer.next
    if event = .mappingEnd then return ([], composer)
    else
      let key ← composer.key event
      let (event, composer) ← composer.next
      let (doc, composer) ← composeNode fuel event (depth + 1) composer
      let (rest, composer) ← composeEntries fuel depth composer
      return ((key, doc) :: rest, composer)
end

def composeStream : Nat → Doc → Nat → Composer → Option (Doc × Composer)
  | 0, _, _, _ => none
  | fuel + 1, doc, documents, composer => do
    let (event, composer) ← composer.next
    match event with
    | .streamStart | .documentEnd => composeStream fuel doc documents composer
    | .streamEnd => return (doc, composer)
    | .documentStart =>
      if documents + 1 > 1 then none
      else
        let (event, composer) ← composer.next
        let (doc, composer) ←
          composeNode (2 * composer.parser.length + 2) event 0 composer
        composeStream fuel doc (documents + 1) composer
    | _ => none

/-- No document is an empty scalar. -/
def compose (events : Events) : Option Doc :=
  (composeStream (events.length + 1) (.scalar "" .plain none) 0 { parser := events }).map (·.1)

/-! ## Resolving -/

section
variable (ops : TextOps) (verbatim : Bool)

/-- What `keyText` is for a scalar. -/
def scalarText : Json → String
  | .string s => s
  | value => String.ofList (ops.jsonText value)

def MapKey.read : MapKey → String
  | .text s => s
  | .copied s style tag => scalarText ops (readScalar ops verbatim s style tag)

mutual
def Doc.value : Doc → Option Json
  | .copy target => target.value
  | .scalar text style tag => some (readScalar ops verbatim text style tag)
  | .sequence items => (valueItems items).map .array
  | .mapping entries => (valueEntries [] entries).map .object

def valueItems : List Doc → Option (List Json)
  | [] => some []
  | doc :: rest => do return (← doc.value) :: (← valueItems rest)

def valueEntries : List (String × Json) → List (MapKey × Doc) → Option (List (String × Json))
  | map, [] => some map
  | map, (key, doc) :: rest => do
    let value ← doc.value
    if (map.lookup (key.read ops verbatim)).isSome then none
    else valueEntries (Json.setField (key.read ops verbatim) value map) rest
end

end

/-! ## The reader reads what is composed -/

section
variable {ops : TextOps} {verbatim : Bool} {composer composer' : Composer}
  {reader reader' : Reader} {event : Event} {depth : Nat}

/-- The reader is where the composer is, and holds the values of its anchors. -/
structure Follows (ops : TextOps) (verbatim : Bool) (composer : Composer) (reader : Reader) :
    Prop where
  parser : reader.parser = composer.parser
  events : reader.events = composer.events
  copied : reader.copied = composer.copied
  anchors : ∀ id : Nat, Option.Rel
    (fun (doc : Doc) kept => doc.value ops verbatim = some kept.1 ∧ kept.2 = doc.nodes)
    composer.anchors[id]? reader.anchors[id]?

/-- What a call of the reader makes of what the composer composed: its value,
or an error where that is no value. -/
inductive Reads {δ ν : Type} (ops : TextOps) (verbatim : Bool) (value : δ → Option ν)
    (nodes : δ → Nat) : Option (δ × Composer) → Except String (ν × Nat × Reader) → Prop
  | malformed (e : String) : Reads ops verbatim value nodes none (.error e)
  | repeated {doc : δ} (composer : Composer) (e : String) (hvalue : value doc = none) :
      Reads ops verbatim value nodes (some (doc, composer)) (.error e)
  | done {doc : δ} {v : ν} {composer : Composer} {reader : Reader} (hvalue : value doc = some v)
      (hfollows : Follows ops verbatim composer reader) :
      Reads ops verbatim value nodes (some (doc, composer)) (.ok (v, nodes doc, reader))

theorem Follows.next (h : Follows ops verbatim composer reader) :
    (composer.next = none ∧ ∃ e, reader.next = .error e) ∨
      ∃ event composer' reader', composer.next = some (event, composer') ∧
        reader.next = .ok (event, reader') ∧ Follows ops verbatim composer' reader' := by
  unfold Composer.next Reader.next
  rw [h.parser]
  cases composer.parser with
  | nil => exact .inl ⟨rfl, _, rfl⟩
  | cons first rest =>
    cases first with
    | error e => exact .inl ⟨rfl, _, rfl⟩
    | ok event =>
      refine .inr ⟨event, _, _, rfl, rfl, ?_⟩
      exact ⟨rfl, by simp only [h.events], h.copied, h.anchors⟩

theorem Follows.keep (h : Follows ops verbatim composer reader) (anchor : Nat) {doc : Doc}
    {value : Json} (hvalue : doc.value ops verbatim = some value) :
    Follows ops verbatim (composer.keep anchor doc) (reader.keep anchor value doc.nodes) := by
  unfold Composer.keep Reader.keep
  split
  · exact h
  · refine ⟨h.parser, h.events, h.copied, ?_⟩
    intro id
    simp only [Std.ExtTreeMap.getElem?_insert]
    split
    · exact .some ⟨hvalue, rfl⟩
    · exact h.anchors id

theorem Follows.anchor (h : Follows ops verbatim composer reader) (id : Nat) :
    (composer.anchors[id]? = none ∧ reader.anchors[id]? = none) ∨
      ∃ doc value, composer.anchors[id]? = some doc ∧ doc.value ops verbatim = some value ∧
        reader.anchors[id]? = some (value, doc.nodes) := by
  have hkept := h.anchors id
  cases hdoc : composer.anchors[id]? with
  | none =>
    rw [hdoc] at hkept
    generalize reader.anchors[id]? = kept at hkept ⊢
    cases hkept
    exact .inl ⟨rfl, rfl⟩
  | some doc =>
    rw [hdoc] at hkept
    generalize reader.anchors[id]? = kept at hkept ⊢
    cases hkept with
    | @some _ kept hkept =>
      obtain ⟨value, size⟩ := kept
      obtain ⟨hvalue, rfl⟩ := hkept
      exact .inr ⟨doc, value, rfl, hvalue, rfl⟩

theorem keyText_of_isScalar {value : Json} (h : isScalar value = true) :
    keyText ops value = some (scalarText ops value) := by
  cases value with
  | array items => cases h
  | object fields => cases h
  | null | bool b | number n | string s => rfl

/-- A value makes a key exactly if its document is an alias's scalar. -/
theorem keyText_value {value : Json} : ∀ (doc : Doc), doc.value ops verbatim = some value →
    keyText ops value = doc.asKey.map (MapKey.read ops verbatim)
  | .copy target, h => by
    rw [Doc.value] at h
    exact keyText_value target h
  | .scalar text style tag, h => by
    rw [Doc.value] at h
    obtain rfl := Option.some.inj h
    exact keyText_of_isScalar (isScalar_readScalar ops verbatim text style tag)
  | .sequence items, h => by
    rw [Doc.value] at h
    obtain ⟨items, -, rfl⟩ := Option.map_eq_some_iff.mp h
    rfl
  | .mapping entries, h => by
    rw [Doc.value] at h
    obtain ⟨map, -, rfl⟩ := Option.map_eq_some_iff.mp h
    rfl

theorem Follows.key (h : Follows ops verbatim composer reader) (event : Event) :
    (composer.key event = none ∧ ∃ e, reader.key ops event = .error e) ∨
      ∃ key, composer.key event = some key ∧
        reader.key ops event = .ok (key.read ops verbatim) := by
  cases event with
  | scalar text style anchor tag => exact .inr ⟨.text text, rfl, rfl⟩
  | «alias» id =>
    unfold Composer.key Reader.key
    obtain ⟨hdoc, hkept⟩ | ⟨doc, value, hdoc, hvalue, hkept⟩ := h.anchor id
    · exact .inl ⟨by simp only [hdoc, Option.bind_none], _, by simp only [hkept]; rfl⟩
    · have hkey := keyText_value doc hvalue
      simp only [hdoc, hkept, Option.bind_some]
      cases hdoc : doc.asKey with
      | none =>
        rw [hdoc] at hkey
        exact .inl ⟨rfl, _, by rw [hkey]; rfl⟩
      | some key =>
        rw [hdoc] at hkey
        exact .inr ⟨key, rfl, by rw [hkey]; rfl⟩
  | _ => exact .inl ⟨rfl, _, rfl⟩

section Rules
variable {δ δ' ν ν' : Type} {value : δ → Option ν} {nodes : δ → Nat} {value' : δ' → Option ν'}
  {nodes' : δ' → Nat} {composed : Option (δ × Composer)} {read : Except String (ν × Nat × Reader)}

/-- What follows a call reads what is composed behind it. Where the call has
refused a key, what is composed behind it has no value either. -/
theorem Reads.bind {next : δ × Composer → Option (δ' × Composer)}
    {next' : ν × Nat × Reader → Except String (ν' × Nat × Reader)}
    (h : Reads ops verbatim value nodes composed read)
    (hrepeated : ∀ doc composer, value doc = none → ∀ out, next (doc, composer) = some out →
      value' out.1 = none)
    (hdone : ∀ doc v composer reader, value doc = some v → Follows ops verbatim composer reader →
      Reads ops verbatim value' nodes' (next (doc, composer)) (next' (v, nodes doc, reader))) :
    Reads ops verbatim value' nodes' (composed >>= next) (read >>= next') := by
  cases h with
  | malformed e => exact .malformed e
  | @repeated doc composer e hvalue =>
    show Reads ops verbatim value' nodes' (next (doc, composer)) (.error e)
    cases hnext : next (doc, composer) with
    | none => exact .malformed e
    | some out => exact .repeated out.2 e (hrepeated doc composer hvalue out hnext)
  | done hvalue hfollows => exact hdone _ _ _ _ hvalue hfollows

/-- What is composed may stand in more, with the same value. -/
theorem Reads.within {whole : δ' → Option ν} {f : δ → δ'}
    (h : Reads ops verbatim value nodes composed read)
    (hvalue : ∀ doc, whole (f doc) = value doc) (hnodes : ∀ doc, nodes' (f doc) = nodes doc) :
    Reads ops verbatim whole nodes' (composed >>= fun out => pure (f out.1, out.2)) read := by
  cases h with
  | malformed e => exact .malformed e
  | repeated composer e hnone => exact .repeated composer e ((hvalue _).trans hnone)
  | @done doc v composer reader hsome hfollows =>
    rw [← hnodes]
    exact .done ((hvalue _).trans hsome) hfollows

theorem Follows.readsNext {next : Event × Composer → Option (δ × Composer)}
    {next' : Event × Reader → Except String (ν × Nat × Reader)}
    (h : Follows ops verbatim composer reader)
    (hnext : ∀ event composer reader, Follows ops verbatim composer reader →
      Reads ops verbatim value nodes (next (event, composer)) (next' (event, reader))) :
    Reads ops verbatim value nodes (composer.next >>= next) (reader.next >>= next') := by
  obtain ⟨hend, e, herror⟩ | ⟨event, composer, reader, hcomposed, hread, h⟩ := h.next
  · rw [hend, herror]
    exact .malformed e
  · rw [hcomposed, hread]
    exact hnext event composer reader h

theorem Follows.readsKey {next : MapKey → Option (δ × Composer)}
    {next' : String → Except String (ν × Nat × Reader)} (h : Follows ops verbatim composer reader)
    (event : Event)
    (hnext : ∀ key, Reads ops verbatim value nodes (next key) (next' (key.read ops verbatim))) :
    Reads ops verbatim value nodes (composer.key event >>= next)
      (reader.key ops event >>= next') := by
  obtain ⟨hnone, e, herror⟩ | ⟨key, hkey, hread⟩ := h.key event
  · rw [hnone, herror]
    exact .malformed e
  · rw [hkey, hread]
    exact hnext key

end Rules

/-- The calls of some depth of fuel read what is composed. -/
structure ReadsCalls (ops : TextOps) (verbatim : Bool) (fuel : Nat) : Prop where
  node : ∀ {composer : Composer} {reader : Reader}, Follows ops verbatim composer reader →
    ∀ event depth, Reads ops verbatim (Doc.value ops verbatim) Doc.nodes
      (composeNode fuel event depth composer) (node ops verbatim fuel event depth reader)
  items : ∀ {composer : Composer} {reader : Reader}, Follows ops verbatim composer reader →
    ∀ depth items size, Reads ops verbatim
      (fun docs => (valueItems ops verbatim docs).map (items ++ ·))
      (fun docs => size + nodesItems docs)
      (composeItems fuel depth composer) (nodeItems ops verbatim fuel depth items size reader)
  entries : ∀ {composer : Composer} {reader : Reader}, Follows ops verbatim composer reader →
    ∀ depth map size, Reads ops verbatim (valueEntries ops verbatim map)
      (fun entries => size + nodesEntries entries)
      (composeEntries fuel depth composer) (nodeEntries ops verbatim fuel depth map size reader)

variable {fuel : Nat}

theorem ReadsCalls.node_succ (ih : ReadsCalls ops verbatim fuel)
    (h : Follows ops verbatim composer reader) (event : Event) (depth : Nat) :
    Reads ops verbatim (Doc.value ops verbatim) Doc.nodes
      (composeNode (fuel + 1) event depth composer)
      (Yaml.node ops verbatim (fuel + 1) event depth reader) := by
  unfold composeNode Yaml.node
  split
  · exact .malformed _
  · cases event with
    | «alias» id =>
      obtain ⟨hdoc, hkept⟩ | ⟨doc, value, hdoc, hvalue, hkept⟩ := h.anchor id
      · simp only [hdoc, hkept]
        exact .malformed _
      · simp only [hdoc, hkept, bind, Option.bind, h.copied, h.events]
        split
        · exact .malformed _
        · have hcopy : (Doc.copy doc).value ops verbatim = some value := by
            rw [Doc.value]
            exact hvalue
          exact .done hcopy ⟨h.parser, rfl, rfl, h.anchors⟩
    | scalar text style anchor tag =>
      dsimp only
      split
      · exact .malformed _
      · have hvalue : (Doc.scalar text style tag).value ops verbatim =
            some (readScalar ops verbatim text style tag) := by rw [Doc.value]
        exact .done hvalue (h.keep anchor hvalue)
    | sequenceStart anchor =>
      refine (ih.items h depth [] 1).bind ?_ ?_
      · intro docs composer hvalue out hout
        obtain rfl := Option.some.inj hout
        rw [Doc.value, Option.map_eq_none_iff.mp hvalue]
        rfl
      · intro docs items composer reader hvalue h
        have hdoc : (Doc.sequence docs).value ops verbatim = some (.array items) := by
          rw [Doc.value]
          simpa using hvalue
        exact .done hdoc (h.keep anchor hdoc)
    | mappingStart anchor =>
      refine (ih.entries h depth [] 1).bind ?_ ?_
      · intro entries composer hvalue out hout
        obtain rfl := Option.some.inj hout
        rw [Doc.value, hvalue]
        rfl
      · intro entries map composer reader hvalue h
        have hdoc : (Doc.mapping entries).value ops verbatim = some (.object map) := by
          rw [Doc.value, hvalue]
          rfl
        exact .done hdoc (h.keep anchor hdoc)
    | _ => exact .malformed _

theorem ReadsCalls.items_succ (ih : ReadsCalls ops verbatim fuel)
    (h : Follows ops verbatim composer reader) (depth : Nat) (items : List Json) (size : Nat) :
    Reads ops verbatim (fun docs => (valueItems ops verbatim docs).map (items ++ ·))
      (fun docs => size + nodesItems docs) (composeItems (fuel + 1) depth composer)
      (nodeItems ops verbatim (fuel + 1) depth items size reader) := by
  rw [composeItems, nodeItems]
  refine h.readsNext fun event composer reader h => ?_
  dsimp only
  split
  · exact .done (by simp [valueItems]) h
  · refine (ih.node h event (depth + 1)).bind ?_ ?_
    · intro doc composer hvalue out hout
      obtain ⟨rest, -, hrest⟩ := Option.bind_eq_some_iff.mp hout
      obtain rfl := Option.some.inj hrest
      simp [valueItems, hvalue]
    · intro doc item composer reader hvalue h
      refine (ih.items h depth (items ++ [item]) (size + doc.nodes)).within (fun docs => ?_)
        fun docs => ?_
      · cases hdocs : valueItems ops verbatim docs <;> simp [valueItems, hvalue, hdocs]
      · rw [nodesItems, Nat.add_assoc]

theorem ReadsCalls.entries_succ (ih : ReadsCalls ops verbatim fuel)
    (h : Follows ops verbatim composer reader) (depth : Nat) (map : List (String × Json))
    (size : Nat) :
    Reads ops verbatim (valueEntries ops verbatim map)
      (fun entries => size + nodesEntries entries) (composeEntries (fuel + 1) depth composer)
      (nodeEntries ops verbatim (fuel + 1) depth map size reader) := by
  rw [composeEntries, nodeEntries]
  refine h.readsNext fun event composer reader h => ?_
  dsimp only
  split
  · exact .done (by rw [valueEntries]) h
  refine h.readsKey event fun key => ?_
  refine h.readsNext fun event composer reader h => ?_
  refine (ih.node h event (depth + 1)).bind ?_ ?_
  · intro doc composer hvalue out hout
    obtain ⟨rest, -, hrest⟩ := Option.bind_eq_some_iff.mp hout
    obtain rfl := Option.some.inj hrest
    simp [valueEntries, hvalue]
  · intro doc value composer reader hvalue h
    dsimp only
    by_cases hdup : (map.lookup (key.read ops verbatim)).isSome
    · rw [if_pos hdup]
      cases hrest : composeEntries fuel depth composer with
      | none => exact .malformed _
      | some rest =>
        refine .repeated _ _ ?_
        simp [valueEntries, hvalue, hdup]
    · rw [if_neg hdup]
      refine (ih.entries h depth (Json.setField (key.read ops verbatim) value map)
        (size + doc.nodes)).within (fun entries => ?_) fun entries => ?_
      · simp [valueEntries, hvalue, hdup]
      · rw [nodesEntries, Nat.add_assoc]

theorem readsCalls (ops : TextOps) (verbatim : Bool) (fuel : Nat) :
    ReadsCalls ops verbatim fuel := by
  induction fuel with
  | zero =>
    constructor
    · intro composer reader _ event depth
      rw [composeNode, node]
      exact .malformed _
    · intro composer reader _ depth items size
      rw [composeItems, nodeItems]
      exact .malformed _
    · intro composer reader _ depth map size
      rw [composeEntries, nodeEntries]
      exact .malformed _
  | succ fuel ih => exact ⟨ih.node_succ, ih.items_succ, ih.entries_succ⟩

/-- After a document there is no other. -/
theorem composeStream_document {doc doc' : Doc} {documents : Nat} (hone : 1 ≤ documents)
    (h : composeStream fuel doc documents composer = some (doc', composer')) : doc' = doc := by
  induction fuel generalizing composer with
  | zero => cases h
  | succ fuel ih =>
    unfold composeStream at h
    obtain ⟨⟨event, inner⟩, -, h⟩ := Option.bind_eq_some_iff.mp h
    dsimp only at h
    split at h
    · exact ih h
    · exact ih h
    · cases h
      rfl
    · rw [if_pos (by omega)] at h
      cases h
    · cases h

theorem stream_reads (ops : TextOps) (verbatim : Bool) {doc : Doc} {value : Json}
    (hvalue : doc.value ops verbatim = some value) {documents : Nat}
    (h : Follows ops verbatim composer reader) :
    (stream ops verbatim fuel value documents reader).toOption.map (·.1) =
      (composeStream fuel doc documents composer).bind (·.1.value ops verbatim) := by
  induction fuel generalizing doc value documents composer reader with
  | zero => rfl
  | succ fuel ih =>
    rw [stream, composeStream]
    obtain ⟨hend, e, herror⟩ | ⟨event, composer, reader, hnext, hread, h⟩ := h.next
    · rw [hend, herror]
      rfl
    simp only [hnext, hread, bind, Option.bind, Except.bind]
    cases event with
    | streamStart => exact ih hvalue h
    | documentEnd => exact ih hvalue h
    | streamEnd => exact hvalue.symm
    | documentStart =>
      dsimp only
      split
      · rfl
      obtain ⟨hend, e, herror⟩ | ⟨event, composer, reader, hnext, hread, h⟩ := h.next
      · rw [hend, herror]
        rfl
      simp only [hnext, hread]
      have hnode := (readsCalls ops verbatim (2 * composer.parser.length + 2)).node h event 0
      have henough : enough reader = 2 * composer.parser.length + 2 := by rw [enough, h.parser]
      rw [henough]
      generalize composeNode (2 * composer.parser.length + 2) event 0 composer = composed
        at hnode ⊢
      generalize node ops verbatim (2 * composer.parser.length + 2) event 0 reader = read
        at hnode ⊢
      cases hnode with
      | malformed e => rfl
      | @repeated doc composer e hnone =>
        dsimp only
        cases hrest : composeStream fuel doc (documents + 1) composer with
        | none => rfl
        | some rest =>
          obtain rfl := composeStream_document (Nat.le_add_left 1 documents) hrest
          exact hnone.symm
      | @done doc value composer reader hvalue h => exact ih hvalue h
    | _ => rfl

/-- What is read is the value of the document composed. -/
theorem read_eq (ops : TextOps) (verbatim : Bool) (events : Events) :
    (read ops verbatim events).toOption = (compose events).bind (Doc.value ops verbatim) := by
  have hempty : (Doc.scalar "" .plain none).value ops verbatim = some .null := by
    rw [Doc.value]
    rfl
  have hstart : Follows ops verbatim { parser := events } { parser := events } := by
    refine ⟨rfl, rfl, rfl, fun id => ?_⟩
    simp only [Std.ExtTreeMap.getElem?_empty]
    exact .none
  unfold read compose
  rw [Option.bind_map]
  refine Eq.trans ?_ (stream_reads ops verbatim hempty hstart)
  cases stream ops verbatim (events.length + 1) .null 0 { parser := events } <;> rfl

end

end UnifiedApi.Yaml

import UnifiedApi.Domain.HostFilter
import UnifiedApi.Lib.Results

/-! # YAML to JSON

A walk over the events of a YAML parser. What the parser makes of a document is
a parameter: a list of events, with an error where it stops. Plain scalars
resolve by the YAML 1.2 core schema, and aliases copy the value of their
anchor, within a budget. -/

namespace UnifiedApi.Yaml

inductive ScalarStyle where
  | plain | singleQuoted | doubleQuoted | literal | folded
  deriving DecidableEq

structure Tag where
  handle : String
  suffix : String
  deriving DecidableEq

/-- An anchor of 0 is none. -/
inductive Event where
  | streamStart | streamEnd | documentStart | documentEnd
  | alias (id : Nat)
  | scalar (text : String) (style : ScalarStyle) (anchor : Nat) (tag : Option Tag)
  | sequenceStart (anchor : Nat) | sequenceEnd
  | mappingStart (anchor : Nat) | mappingEnd
  /-- A comment, or nothing. -/
  | other
  deriving DecidableEq

/-- What the parser hands over, one at a time. -/
abbrev Events := List (Except String Event)

/-- Nesting deeper than this is an error rather than a stack overflow. -/
def maxDepth : Nat := 128

/-- The copies may add up to this many nodes, or 100 for each event read. -/
def minAliasBudget : Nat := 1000000

def coreTag : String := "tag:yaml.org,2002:"

/-! ## Scalars -/

/-- Ansible's inline encrypted value. -/
def isVault (tag : Tag) : Bool := tag.handle != coreTag && tag.suffix == "vault"

/-- Without its first character, if that is one of `chars`. -/
def stripChar (chars : List Char) : List Char → Option (List Char)
  | c :: rest => if chars.contains c then some rest else none
  | [] => none

def startsSigned (text : List Char) : Bool := (stripChar ['+', '-'] text).isSome

/-- Leading zeros followed by digits are a string. -/
def digitsButNotNumber (text : List Char) : Bool :=
  match (stripChar ['-', '+'] text).getD text with
  | '0' :: rest => !rest.isEmpty && rest.all Char.isDigit
  | _ => false

def digitOf? (radix : Nat) (c : Char) : Option Nat :=
  let value := if c.isDigit then some (c.toNat - '0'.toNat)
    else if 'a' ≤ c ∧ c ≤ 'z' then some (c.toNat - 'a'.toNat + 10)
    else if 'A' ≤ c ∧ c ≤ 'Z' then some (c.toNat - 'A'.toNat + 10)
    else none
  value.filter (· < radix)

/-- `u64::from_str_radix`, on text without a sign. -/
def fromStrRadix (radix : Nat) (digits : List Char) : Option Nat :=
  if digits.isEmpty then none
  else (digits.foldlM (fun value c => (digitOf? radix c).map (radix * value + ·)) 0).filter
    (· < 2 ^ 64)

/-- A decimal, `0x`, `0o` or `0b` number that fits. -/
def int (text : List Char) : Option Number :=
  let (negative, unsigned) := match stripChar ['-'] text with
    | some rest => (true, rest)
    | none => (false, (stripChar ['+'] text).getD text)
  -- a sign may come only once, and only before any radix prefix
  if startsSigned unsigned then none
  else
    let base := match unsigned with
      | '0' :: 'x' :: rest => some (16, rest)
      | '0' :: 'o' :: rest => some (8, rest)
      | '0' :: 'b' :: rest => some (2, rest)
      | _ => if digitsButNotNumber text then none else some (10, unsigned)
    match base with
    | none => none
    | some (radix, digits) =>
      if startsSigned digits then none
      else match fromStrRadix radix digits with
        | none => none
        | some magnitude =>
          if !negative || magnitude = 0 then some (.posInt magnitude)
          else if magnitude ≤ 2 ^ 63 then some (.negInt (-(magnitude : Int)))
          else none

/-- The bits of what Rust reads as a finite number, or of `.inf` and `.nan`. -/
def float (ops : TextOps) (text : List Char) : Option UInt64 :=
  let unsigned := (stripChar ['+'] text).getD text
  if startsSigned unsigned && text.head? == some '+' then none
  else if [".inf", ".Inf", ".INF"].contains (String.ofList unsigned) then some 0x7FF0000000000000
  else if ["-.inf", "-.Inf", "-.INF"].contains (String.ofList unsigned) then
    some 0xFFF0000000000000
  else if [".nan", ".NaN", ".NAN"].contains (String.ofList unsigned) then some 0x7FF8000000000000
  else (ops.parseF64 unsigned).filter isFinite

/-- `Number::from_f64`: JSON has no other numbers. -/
def fromF64 (bits : UInt64) : Json := if isFinite bits then .number (.float bits) else .null

def scalar (ops : TextOps) (text : String) (style : ScalarStyle) (tag : Option Tag) : Json :=
  if tag.any fun tag => tag.handle == coreTag && tag.suffix == "str" then .string text
  else if style != .plain then .string text
  else if ["", "~", "null", "Null", "NULL"].contains text then .null
  else if ["true", "True", "TRUE"].contains text then .bool true
  else if ["false", "False", "FALSE"].contains text then .bool false
  else match int text.toList with
    | some n => .number n
    | none =>
      if digitsButNotNumber text.toList then .string text
      else match float ops text.toList with
        | some f => fromF64 f
        | none => .string text

/-- A scalar as the reader keeps it: numbers and booleans as their text if
that is what is read for. -/
def readScalar (ops : TextOps) (verbatim : Bool) (text : String) (style : ScalarStyle)
    (tag : Option Tag) : Json :=
  match scalar ops text style tag with
  | .number n => if verbatim then .string text else .number n
  | .bool b => if verbatim then .string text else .bool b
  | value => value

/-- The text of an alias's value as a mapping key. -/
def keyText (ops : TextOps) : Json → Option String
  | .string s => some s
  | .array _ | .object _ => none
  | value => some (String.ofList (ops.jsonText value))

/-! ## The reader -/

structure Reader where
  /-- What the parser has left. -/
  parser : Events
  /-- The value of each anchor and its node count. -/
  anchors : Std.ExtTreeMap Nat (Json × Nat) := ∅
  events : Nat := 0
  copied : Nat := 0

namespace Reader

def next (reader : Reader) : Except String (Event × Reader) :=
  match reader.parser with
  | [] => .error "unexpected end of YAML"
  | .error e :: _ => .error e
  | .ok event :: rest => .ok (event, { reader with parser := rest, events := reader.events + 1 })

/-- What every node ends with: its value kept under its anchor. -/
def keep (reader : Reader) (anchor : Nat) (value : Json) (size : Nat) : Reader :=
  if anchor = 0 then reader
  else { reader with anchors := reader.anchors.insert anchor (value, size) }

/-- The key of a mapping, from its event. -/
def key (ops : TextOps) (reader : Reader) : Event → Except String String
  | .scalar text _ _ _ => .ok text
  | .alias id => match reader.anchors[id]?.bind fun (value, _) => keyText ops value with
    | some key => .ok key
    | none => .error "YAML mapping keys must be scalars"
  | _ => .error "YAML mapping keys must be scalars"

end Reader

section
variable (ops : TextOps) (verbatim : Bool)

mutual
/-- The value of the node that begins with `event`, and how many nodes it
holds. The fuel bounds the calls (`node_fuel`). -/
def node : Nat → Event → Nat → Reader → Except String (Json × Nat × Reader)
  | 0, _, _, _ => .error "out of fuel"
  | fuel + 1, event, depth, reader =>
    if depth > maxDepth then
      .error ("YAML nested more than " ++ toString maxDepth ++ " levels deep")
    else match event with
      | .alias id => match reader.anchors[id]? with
        | none => .error "YAML alias to an unknown anchor"
        | some (value, size) =>
          if reader.copied + size > max minAliasBudget (reader.events * 100) then
            .error "YAML aliases expand to too many nodes"
          else .ok (value, size, { reader with copied := reader.copied + size })
      | .scalar text style anchor tag =>
        if tag.any isVault then
          .error "an ansible-vault encrypted value (!vault): unified-api cannot decrypt it"
        else
          let value := readScalar ops verbatim text style tag
          .ok (value, 1, reader.keep anchor value 1)
      | .sequenceStart anchor => do
        let (items, size, reader) ← nodeItems fuel depth [] 1 reader
        return (.array items, size, reader.keep anchor (.array items) size)
      | .mappingStart anchor => do
        let (map, size, reader) ← nodeEntries fuel depth [] 1 reader
        return (.object map, size, reader.keep anchor (.object map) size)
      | _ => .error "unexpected YAML event"

/-- The loop over the items of a sequence. -/
def nodeItems : Nat → Nat → List Json → Nat → Reader → Except String (List Json × Nat × Reader)
  | 0, _, _, _, _ => .error "out of fuel"
  | fuel + 1, depth, items, size, reader => do
    let (event, reader) ← reader.next
    if event = .sequenceEnd then return (items, size, reader)
    else
      let (item, n, reader) ← node fuel event (depth + 1) reader
      nodeItems fuel depth (items ++ [item]) (size + n) reader

/-- The loop over the entries of a mapping. -/
def nodeEntries : Nat → Nat → List (String × Json) → Nat → Reader →
    Except String (List (String × Json) × Nat × Reader)
  | 0, _, _, _, _ => .error "out of fuel"
  | fuel + 1, depth, map, size, reader => do
    let (event, reader) ← reader.next
    if event = .mappingEnd then return (map, size, reader)
    else
      let key ← reader.key ops event
      let (event, reader) ← reader.next
      let (value, n, reader) ← node fuel event (depth + 1) reader
      if (map.lookup key).isSome then .error ("duplicate YAML key '" ++ key ++ "'")
      else nodeEntries fuel depth (Json.setField key value map) (size + n) reader
end

/-- Calls enough for what the parser has left. -/
def enough (reader : Reader) : Nat := 2 * reader.parser.length + 2

/-- One document, or none. -/
def stream : Nat → Json → Nat → Reader → Except String (Json × Reader)
  | 0, _, _, _ => .error "out of fuel"
  | fuel + 1, value, documents, reader => do
    let (event, reader) ← reader.next
    match event with
    | .streamStart | .documentEnd => stream fuel value documents reader
    | .streamEnd => return (value, reader)
    | .documentStart =>
      if documents + 1 > 1 then .error "more than one YAML document is not supported"
      else
        let (event, reader) ← reader.next
        let (value, _, reader) ← node ops verbatim (enough reader) event 0 reader
        stream fuel value (documents + 1) reader
    | _ => .error "unexpected YAML outside a document"

def read (events : Events) : Except String Json :=
  (stream ops verbatim (events.length + 1) .null 0 { parser := events }).map (·.1)

end

def toJson (ops : TextOps) (events : Events) : Except String Json := read ops false events

/-- The same tree, numbers and booleans as their source text. -/
def toTextJson (ops : TextOps) (events : Events) : Except String Json := read ops true events

/-! ## What a call that succeeds has done -/

/-- No collection. -/
def isScalar : Json → Bool
  | .array _ | .object _ => false
  | _ => true

theorem isScalar_fromF64 (bits : UInt64) : isScalar (fromF64 bits) = true := by
  unfold fromF64
  split <;> rfl

theorem isScalar_scalar (ops : TextOps) (text : String) (style : ScalarStyle) (tag : Option Tag) :
    isScalar (scalar ops text style tag) = true := by
  unfold scalar
  iterate 5
    split
    · rfl
  split
  · rfl
  · split
    · rfl
    · split
      · exact isScalar_fromF64 _
      · rfl

theorem isScalar_readScalar (ops : TextOps) (verbatim : Bool) (text : String)
    (style : ScalarStyle) (tag : Option Tag) :
    isScalar (readScalar ops verbatim text style tag) = true := by
  unfold readScalar
  split
  · split <;> rfl
  · split <;> rfl
  · exact isScalar_scalar ops text style tag

section
variable {ops : TextOps} {verbatim : Bool} {fuel depth : Nat} {event : Event}
  {reader reader' : Reader} {value : Json} {size size' : Nat}

theorem Reader.next_ok (h : reader.next = .ok (event, reader')) :
    reader.parser = .ok event :: reader'.parser ∧
      reader' = { reader with parser := reader'.parser, events := reader.events + 1 } := by
  unfold Reader.next at h
  split at h
  · cases h
  · cases h
  · rename_i first rest hparser
    obtain ⟨rfl, rfl⟩ := Prod.mk.inj (Except.ok.inj h)
    exact ⟨hparser, rfl⟩

@[simp] theorem node_zero : node ops verbatim 0 event depth reader = .error "out of fuel" := by
  rw [node]

@[simp] theorem nodeItems_zero (items : List Json) :
    nodeItems ops verbatim 0 depth items size reader = .error "out of fuel" := by
  rw [nodeItems]

@[simp] theorem nodeEntries_zero (map : List (String × Json)) :
    nodeEntries ops verbatim 0 depth map size reader = .error "out of fuel" := by
  rw [nodeEntries]

/-- The four kinds of node. -/
inductive NodeDone (ops : TextOps) (verbatim : Bool) (fuel depth : Nat) (reader : Reader) :
    Event → Json → Nat → Reader → Prop
  | copied {id : Nat} {value : Json} {size : Nat}
      (hanchor : reader.anchors[id]? = some (value, size))
      (hbudget : reader.copied + size ≤ max minAliasBudget (reader.events * 100)) :
      NodeDone ops verbatim fuel depth reader (.alias id) value size
        { reader with copied := reader.copied + size }
  | scalar {text : String} {style : ScalarStyle} {anchor : Nat} {tag : Option Tag}
      (htag : tag.any isVault = false) :
      NodeDone ops verbatim fuel depth reader (.scalar text style anchor tag)
        (readScalar ops verbatim text style tag) 1
        (reader.keep anchor (readScalar ops verbatim text style tag) 1)
  | sequence {anchor : Nat} {items : List Json} {size : Nat} {inner : Reader}
      (hitems : nodeItems ops verbatim fuel depth [] 1 reader = .ok (items, size, inner)) :
      NodeDone ops verbatim fuel depth reader (.sequenceStart anchor) (.array items) size
        (inner.keep anchor (.array items) size)
  | mapping {anchor : Nat} {map : List (String × Json)} {size : Nat} {inner : Reader}
      (hentries : nodeEntries ops verbatim fuel depth [] 1 reader = .ok (map, size, inner)) :
      NodeDone ops verbatim fuel depth reader (.mappingStart anchor) (.object map) size
        (inner.keep anchor (.object map) size)

theorem node_done
    (h : node ops verbatim (fuel + 1) event depth reader = .ok (value, size, reader')) :
    depth ≤ maxDepth ∧ NodeDone ops verbatim fuel depth reader event value size reader' := by
  unfold node at h
  split at h
  · cases h
  · rename_i hdepth
    refine ⟨Nat.not_lt.mp hdepth, ?_⟩
    split at h
    · split at h
      · cases h
      · rename_i id copied n hanchor
        split at h
        · cases h
        · rename_i hbudget
          cases h
          exact .copied hanchor (Nat.not_lt.mp hbudget)
    · split at h
      · cases h
      · rename_i htag
        cases h
        exact .scalar (Bool.eq_false_iff.mpr htag)
    · obtain ⟨⟨items, n, inner⟩, hitems, hdone⟩ := Results.ok_of_bind h
      cases hdone
      exact .sequence hitems
    · obtain ⟨⟨map, n, inner⟩, hentries, hdone⟩ := Results.ok_of_bind h
      cases hdone
      exact .mapping hentries
    · cases h

theorem nodeItems_done {items items' : List Json}
    (h : nodeItems ops verbatim (fuel + 1) depth items size reader = .ok (items', size', reader')) :
    ∃ event inner, reader.next = .ok (event, inner) ∧
      (event = .sequenceEnd ∧ items' = items ∧ size' = size ∧ reader' = inner ∨
        ∃ item n after, event ≠ .sequenceEnd ∧
          node ops verbatim fuel event (depth + 1) inner = .ok (item, n, after) ∧
          nodeItems ops verbatim fuel depth (items ++ [item]) (size + n) after =
            .ok (items', size', reader')) := by
  unfold nodeItems at h
  obtain ⟨⟨event, inner⟩, hnext, h⟩ := Results.ok_of_bind h
  refine ⟨event, inner, hnext, ?_⟩
  dsimp only at h
  split at h
  · rename_i hend
    cases h
    exact .inl ⟨hend, rfl, rfl, rfl⟩
  · rename_i hend
    obtain ⟨⟨item, n, after⟩, hnode, h⟩ := Results.ok_of_bind h
    exact .inr ⟨item, n, after, hend, hnode, h⟩

theorem nodeEntries_done {map map' : List (String × Json)}
    (h : nodeEntries ops verbatim (fuel + 1) depth map size reader = .ok (map', size', reader')) :
    ∃ event inner, reader.next = .ok (event, inner) ∧
      (event = .mappingEnd ∧ map' = map ∧ size' = size ∧ reader' = inner ∨
        ∃ key first before value n after, event ≠ .mappingEnd ∧ inner.key ops event = .ok key ∧
          inner.next = .ok (first, before) ∧
          node ops verbatim fuel first (depth + 1) before = .ok (value, n, after) ∧
          map.lookup key = none ∧
          nodeEntries ops verbatim fuel depth (Json.setField key value map) (size + n) after =
            .ok (map', size', reader')) := by
  unfold nodeEntries at h
  obtain ⟨⟨event, inner⟩, hnext, h⟩ := Results.ok_of_bind h
  refine ⟨event, inner, hnext, ?_⟩
  dsimp only at h
  split at h
  · rename_i hend
    cases h
    exact .inl ⟨hend, rfl, rfl, rfl⟩
  · rename_i hend
    obtain ⟨key, hkey, h⟩ := Results.ok_of_bind h
    obtain ⟨⟨first, before⟩, hfirst, h⟩ := Results.ok_of_bind h
    obtain ⟨⟨value, n, after⟩, hnode, h⟩ := Results.ok_of_bind h
    dsimp only at h
    split at h
    · cases h
    · rename_i hnew
      exact .inr ⟨key, first, before, value, n, after, hend, hkey, hfirst, hnode,
        Option.not_isSome_iff_eq_none.mp hnew, h⟩

end

end UnifiedApi.Yaml

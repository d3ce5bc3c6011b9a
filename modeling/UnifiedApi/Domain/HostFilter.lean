import UnifiedApi.Domain.VarPath
import UnifiedApi.Lib.Text

/-! # Host filters: name patterns and conditions on hostvars

What `host` patterns and `filter` conditions keep of an inventory. How the
standard library lower-cases a text, reads a number and writes a value as JSON
is a parameter. -/

namespace UnifiedApi

/-- Text operations of the Rust standard library and of `serde_json`. -/
structure TextOps where
  toLowercase : List Char → List Char
  /-- `str::parse::<f64>`, as the number's bits. -/
  parseF64 : List Char → Option UInt64
  /-- A value as compact JSON. -/
  jsonText : Json → List Char

/-- For texts without capital letters and numbers. -/
def TextOps.wordsOnly : TextOps := ⟨id, fun _ => none, fun _ => []⟩

/-- The exponent is not all ones. -/
def isFinite (bits : UInt64) : Bool := bits.toNat / 2 ^ 52 % 2 ^ 11 != 2 ^ 11 - 1

/-- What orders floats by their bits, as `f64::total_cmp` does: a negative
number's other bits count downwards. -/
def totalOrderKey (bits : UInt64) : Int :=
  if bits.toNat < 2 ^ 63 then bits.toNat else 2 ^ 63 - 1 - (bits.toNat : Int)

inductive FilterOp where
  | eq | ne | contains | notContains | gt | ge | lt | le
  deriving DecidableEq

/-- Two-character operators first. -/
def FilterOp.operators : List (List Char × FilterOp) :=
  [("!=".toList, .ne), ("!~".toList, .notContains), (">=".toList, .ge), ("<=".toList, .le),
    ("=".toList, .eq), ("~".toList, .contains), (">".toList, .gt), ("<".toList, .lt)]

structure Condition where
  key : String
  op : FilterOp
  value : List Char
  deriving DecidableEq

structure HostFilter where
  patterns : List (List Char) := []
  conditions : List Condition := []
  deriving DecidableEq

namespace HostFilter

def quoted (raw : List Char) : String := "filter condition '" ++ String.ofList raw ++ "'"

/-- The key ends where the first operator character starts. -/
def parseCondition (raw : List Char) : Except String Condition :=
  let start := raw.takeWhile fun c => !(['=', '!', '~', '<', '>'].contains c)
  let rest := raw.drop start.length
  if rest.isEmpty then .error (quoted raw ++ " has no operator (= != ~ !~ > >= < <=)")
  else
    let key := Text.trim start
    if key.isEmpty then .error (quoted raw ++ " has no key before the operator")
    else match FilterOp.operators.find? fun operator => operator.1.isPrefixOf rest with
      | none => .error (quoted raw ++ " has an unknown operator")
      | some (token, op) =>
        let value := Text.trim (rest.drop token.length)
        if value.isEmpty && op != .eq && op != .ne then
          .error (quoted raw ++ " has no value after '" ++ String.ofList token ++ "'")
        else .ok ⟨String.ofList key, op, value⟩

def fromConditions (ops : TextOps) (host : List Char) (conditions : List (List Char)) :
    Except String HostFilter := do
  let patterns := (((host.splitOn ',').map Text.trim).filter (!·.isEmpty)).map ops.toLowercase
  let conditions ← ((conditions.map Text.trim).filter (!·.isEmpty)).mapM parseCondition
  return { patterns, conditions }

def parse (ops : TextOps) (host filter : List Char) : Except String HostFilter :=
  fromConditions ops host (filter.splitOn ';')

def isEmpty (filter : HostFilter) : Bool := filter.patterns.isEmpty && filter.conditions.isEmpty

/-- A hostvar as text: a missing or null one is empty. -/
def text (ops : TextOps) : Option Json → List Char
  | none | some .null => []
  | some (.string s) => s.toList
  | some other => ops.jsonText other

/-- What `key=` matches. -/
def isEmptyVar : Option Json → Bool
  | none | some .null => true
  | some (.string s) => s.isEmpty
  | some (.array items) => items.isEmpty
  | some (.object fields) => fields.isEmpty
  | some _ => false

def containsText (text wanted : List Char) : Bool := text.tails.any (wanted.isPrefixOf ·)

/-- Finite numbers compare as numbers, everything else as text. -/
def compareText (ops : TextOps) (actual wanted : List Char) : Ordering :=
  match (ops.parseF64 actual).filter isFinite, (ops.parseF64 wanted).filter isFinite with
  | some a, some b => compare (totalOrderKey a) (totalOrderKey b)
  | _, _ => compare (String.ofList actual) (String.ofList wanted)

end HostFilter

def Condition.holds (ops : TextOps) (condition : Condition) (vars : HostVars) : Bool :=
  let var := VarPath.lookup vars condition.key
  if condition.value.isEmpty then (condition.op == .eq) == HostFilter.isEmptyVar var
  else
    let actual := HostFilter.text ops var
    let contains :=
      HostFilter.containsText (ops.toLowercase actual) (ops.toLowercase condition.value)
    let order := HostFilter.compareText ops actual condition.value
    match condition.op with
    | .eq => actual == condition.value
    | .ne => actual != condition.value
    | .contains => contains
    | .notContains => !contains
    -- nothing is neither older nor newer
    | .gt => !actual.isEmpty && order == .gt
    | .ge => !actual.isEmpty && order != .lt
    | .lt => !actual.isEmpty && order == .lt
    | .le => !actual.isEmpty && order != .gt

namespace HostFilter

theorem length_tail_lt {pattern : List Char} {c : Char} (h : pattern.head? = some c) :
    pattern.tail.length < pattern.length := by
  cases pattern with
  | nil => cases h
  | cons first rest => exact Nat.lt_succ_self _

/-- The walk of `glob`: what is left of the pattern and of the text, and after
a star the pattern behind it and the text where it stands, which is no shorter.
On a mismatch the star swallows one more character. -/
def globWalk (pattern text : List Char) (star : Option (List Char × List Char))
    (h : ∀ back ∈ star, text.length ≤ back.2.length) : Bool :=
  match text, h with
  | [], _ => pattern.all (· == '*')
  | c :: rest, h =>
    if _ : pattern.head? = some '?' ∨ pattern.head? = some c then
      globWalk pattern.tail rest star fun back hback => (Nat.le_succ _).trans (h back hback)
    else if _ : pattern.head? = some '*' then
      globWalk pattern.tail (c :: rest) (some (pattern.tail, c :: rest)) fun _ hback =>
        (Option.some.inj hback) ▸ le_refl _
    else match star with
      | some (behind, _ :: swallowed) =>
        globWalk behind swallowed (some (behind, swallowed)) fun _ hback =>
          (Option.some.inj hback) ▸ le_refl _
      | _ => false
termination_by (star.elim (text.length + 1) (·.2.length), pattern.length)
decreasing_by
  · rename_i hsame
    cases star with
    | none => exact .left _ _ (Nat.lt_succ_self _)
    | some back =>
      rcases hsame with hsame | hsame <;> exact .right _ (length_tail_lt hsame)
  · rename_i hstar
    cases star with
    | none => exact .left _ _ (Nat.lt_succ_self _)
    | some back =>
      rcases Nat.lt_or_eq_of_le (h back rfl) with hlt | heq
      · exact .left _ _ hlt
      · show Prod.Lex _ _ ((c :: rest).length, pattern.tail.length) (back.2.length, pattern.length)
        rw [heq]
        exact .right _ (length_tail_lt hstar)
  · exact .left _ _ (Nat.lt_succ_self _)

/-- `*` is any run, `?` one character. -/
def glob (pattern text : List Char) : Bool := globWalk pattern text none nofun

def «matches» (ops : TextOps) (filter : HostFilter) (host : String) (vars : HostVars) : Bool :=
  (filter.patterns.isEmpty || filter.patterns.any (glob · (ops.toLowercase host.toList))) &&
    filter.conditions.all (·.holds ops vars)

end HostFilter

end UnifiedApi

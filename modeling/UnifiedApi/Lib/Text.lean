import Mathlib.Data.List.TakeWhile
import Mathlib.Tactic.Linarith

/-! # Text as the Rust standard library reads it

Trimming, splitting at commas and parsing small numbers, on lists of
characters. -/

namespace Text

/-- Unicode `White_Space`. -/
def isWhitespace (c : Char) : Bool :=
  let n := c.toNat
  (0x09 ≤ n && n ≤ 0x0D) || n == 0x20 || n == 0x85 || n == 0xA0 || n == 0x1680 ||
    (0x2000 ≤ n && n ≤ 0x200A) || n == 0x2028 || n == 0x2029 || n == 0x202F || n == 0x205F ||
    n == 0x3000

def trim (text : List Char) : List Char :=
  ((text.dropWhile isWhitespace).reverse.dropWhile isWhitespace).reverse

/-- A comma-separated list: trimmed, empties dropped. -/
def commaNames (value : String) : List String :=
  (((value.toList.splitOn ',').map trim).filter fun name => !name.isEmpty).map String.ofList

/-- The runs between whitespace. -/
def splitWhitespace (text : List Char) : List (List Char) :=
  (text.splitOnP isWhitespace).filter fun word => !word.isEmpty

/-- `str::split_once`, at the first character that passes. -/
def splitOnce (p : Char → Bool) (text : List Char) : Option (List Char × List Char) :=
  match text.dropWhile fun c => !p c with
  | _ :: rest => some (text.takeWhile fun c => !p c, rest)
  | [] => none

/-- The line without the carriage return that stands before its break. -/
def dropReturn (line : List Char) : List Char :=
  if line.getLast? = some '\r' then line.dropLast else line

/-- `str::lines`: the last line needs no break, and is none if it is empty. -/
def lines (text : List Char) : List (List Char) :=
  let pieces := text.splitOn '\n'
  pieces.dropLast.map dropReturn ++ (pieces.getLast?.filter fun line => !line.isEmpty).toList

def digitValue? (c : Char) : Option Nat := if c.isDigit then some (c.toNat - 48) else none

/-- The value of a non-empty run of decimal digits. -/
def parseDigits (text : List Char) : Option Nat :=
  if text.isEmpty then none
  else text.foldlM (fun value c => (digitValue? c).map fun digit => 10 * value + digit) 0

/-- `u8::from_str`: an optional plus sign, then digits, at most 255. -/
def parseU8 (text : List Char) : Option UInt8 :=
  let digits := match text with
    | '+' :: rest => rest
    | _ => text
  (parseDigits digits).bind fun value => if value ≤ 255 then some (UInt8.ofNat value) else none

/-- `usize::from_str` on 64 bits. -/
def parseUsize (text : List Char) : Option Nat :=
  let digits := match text with
    | '+' :: rest => rest
    | _ => text
  (parseDigits digits).filter (· < 2 ^ 64)

/-- `bool::from_str`. -/
def parseBool (text : String) : Option Bool :=
  if text = "true" then some true else if text = "false" then some false else none

theorem parseU8_toDigits (n : UInt8) : parseU8 (Nat.toDigits 10 n.toNat) = some n := by
  have h : ∀ m < 256, parseU8 (Nat.toDigits 10 m) = some (UInt8.ofNat m) := by decide +kernel
  rw [h n.toNat n.toNat_lt_size, UInt8.ofNat_toNat]

theorem mem_toDigits {b n : Nat} (hb : 1 < b) {c : Char} (h : c ∈ Nat.toDigits b n) :
    ∃ digit, c = Nat.digitChar digit := by
  induction n using Nat.strongRecOn with
  | ind n ih =>
    rw [Nat.toDigits_eq_if hb] at h
    split at h
    · exact ⟨n, List.mem_singleton.mp h⟩
    · rename_i hn
      rcases List.mem_append.mp h with h | h
      · exact ih (n / b) (Nat.div_lt_self (by omega) hb) h
      · exact ⟨n % b, List.mem_singleton.mp h⟩

theorem comma_notMem_toDigits {b n : Nat} (hb : 1 < b) : ',' ∉ Nat.toDigits b n := by
  intro h
  obtain ⟨digit, hdigit⟩ := mem_toDigits hb h
  simp at hdigit

theorem trim_quoted (text : List Char) :
    trim ('"' :: (text ++ ['"'])) = '"' :: (text ++ ['"']) := by
  have hquote : isWhitespace '"' = false := by decide
  simp [trim, hquote]

/-- A name that a comma-separated list carries as it is. -/
def IsName (name : String) : Prop := trim name.toList = name.toList ∧ name ≠ "" ∧ ',' ∉ name.toList

instance (name : String) : Decidable (IsName name) := inferInstanceAs (Decidable (_ ∧ _))

/-- Joining names with commas and reading the list back. -/
theorem commaNames_intercalate {names : List String} (hne : names ≠ [])
    (h : ∀ name ∈ names, IsName name) : commaNames (",".intercalate names) = names := by
  have hsplit : (",".intercalate names).toList.splitOn ',' = names.map String.toList := by
    rw [String.toList_intercalate]
    refine List.splitOn_intercalate ',' ?_ (by simpa using hne)
    intro part hpart
    obtain ⟨name, hname, rfl⟩ := List.mem_map.mp hpart
    exact (h name hname).2.2
  have htrim : (names.map String.toList).map trim = names.map String.toList := by
    rw [List.map_map]
    exact List.map_congr_left fun name hname => (h name hname).1
  have hkeep : (names.map String.toList).filter (fun name => !name.isEmpty) =
      names.map String.toList := by
    rw [List.filter_eq_self]
    intro part hpart
    obtain ⟨name, hname, rfl⟩ := List.mem_map.mp hpart
    rw [Bool.not_eq_true', Bool.eq_false_iff, ne_eq, List.isEmpty_iff]
    intro hempty
    exact (h name hname).2.1 (String.toList_eq_nil_iff.mp hempty)
  unfold commaNames
  rw [hsplit, htrim, hkeep, List.map_map]
  exact (List.map_congr_left fun name _ => String.ofList_toList).trans (List.map_id _)

/-- The pieces of a text: what stands before its first separator, and what
stands behind each one up to the next. -/
theorem splitOn_eq {α : Type} [BEq α] [LawfulBEq α] (separator : α) (text : List α) :
    ∃ others, text.splitOn separator = text.takeWhile (· != separator) :: others ∧
      ∀ piece, piece ∈ others ↔ ∃ before after, text = before ++ separator :: after ∧
        piece = after.takeWhile (· != separator) := by
  induction text with
  | nil =>
    refine ⟨[], rfl, fun piece => ⟨fun h => absurd h List.not_mem_nil, ?_⟩⟩
    rintro ⟨before, after, h, -⟩
    cases before <;> cases h
  | cons first text ih =>
    obtain ⟨others, hsplit, hothers⟩ := ih
    rw [List.splitOn_cons_eq_if_modifyHead]
    by_cases hfirst : first = separator
    · subst hfirst
      refine ⟨text.splitOn first, by simp, fun piece => ?_⟩
      rw [hsplit, List.mem_cons, hothers]
      constructor
      · rintro (rfl | ⟨before, after, rfl, rfl⟩)
        · exact ⟨[], text, rfl, rfl⟩
        · exact ⟨first :: before, after, rfl, rfl⟩
      · rintro ⟨before, after, htext, rfl⟩
        cases before with
        | nil =>
          obtain ⟨-, rfl⟩ := List.cons.inj htext
          exact .inl rfl
        | cons _ before =>
          obtain ⟨-, rfl⟩ := List.cons.inj htext
          exact .inr ⟨before, after, rfl, rfl⟩
    · refine ⟨others, by simp [hsplit, hfirst], fun piece => ?_⟩
      rw [hothers]
      constructor
      · rintro ⟨before, after, rfl, rfl⟩
        exact ⟨first :: before, after, rfl, rfl⟩
      · rintro ⟨before, after, htext, rfl⟩
        cases before with
        | nil =>
          obtain ⟨rfl, -⟩ := List.cons.inj htext
          exact absurd rfl hfirst
        | cons _ before =>
          obtain ⟨-, rfl⟩ := List.cons.inj htext
          exact ⟨before, after, rfl, rfl⟩

end Text

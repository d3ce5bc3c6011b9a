import Mathlib.Data.Nat.Digits.Defs
import Mathlib.Tactic.IntervalCases
import UnifiedApi.Domain.Yaml

/-! # Integers of YAML

The integers that a plain scalar can spell, as a grammar of their own, and that
`int` reads these and no others, each as its value. -/

namespace UnifiedApi

/-- `Number::from` of an integer: only what is below zero is kept signed. -/
def Number.ofInt (value : Int) : Number :=
  if value < 0 then .negInt value else .posInt value.toNat

namespace Yaml

/-! ## The grammar -/

def IsDigit (radix value : Nat) (c : Char) : Prop :=
  value < radix ∧
    ("0123456789abcdef".toList[value]? = some c ∨ "0123456789ABCDEF".toList[value]? = some c)

/-- One digit or more, the most significant first. -/
def Spells (radix : Nat) (text : List Char) (value : Nat) : Prop :=
  ∃ values : List Nat, values ≠ [] ∧ List.Forall₂ (IsDigit radix) values text ∧
    value = Nat.ofDigits radix values.reverse

/-- Only a decimal numeral may not start with zeros it does not need. -/
inductive Numeral : List Char → Nat → Prop
  | decimal {text : List Char} {value : Nat} : Spells 10 text value →
      (text.head? = some '0' → text = ['0']) → Numeral text value
  | hexadecimal {text : List Char} {value : Nat} : Spells 16 text value →
      Numeral ('0' :: 'x' :: text) value
  | octal {text : List Char} {value : Nat} : Spells 8 text value →
      Numeral ('0' :: 'o' :: text) value
  | binary {text : List Char} {value : Nat} : Spells 2 text value →
      Numeral ('0' :: 'b' :: text) value

inductive Integer : List Char → Int → Prop
  | unsigned {text : List Char} {value : Nat} : Numeral text value → Integer text value
  | plus {text : List Char} {value : Nat} : Numeral text value → Integer ('+' :: text) value
  | minus {text : List Char} {value : Nat} : Numeral text value → Integer ('-' :: text) (-value)

/-! ## Digits -/

theorem digitOf?_radix {radix : Nat} (hradix : radix ≤ 16) (c : Char) :
    digitOf? radix c = (digitOf? 16 c).filter (· < radix) := by
  unfold digitOf?
  rw [Option.filter_filter]
  have hnarrow (value : Nat) : (decide (value < 16) && decide (value < radix)) =
      decide (value < radix) := by
    simpa using fun h : value < radix => by omega
  simp only [hnarrow]

theorem digitOf?_ascii : ∀ code < 128, ∀ value < 16,
    digitOf? 16 (Char.ofNat code) = some value ↔ IsDigit 16 value (Char.ofNat code) := by
  unfold IsDigit
  decide +kernel

theorem IsDigit.char {radix value : Nat} {c : Char} (h : IsDigit radix value c) :
    c.toNat < 128 ∧ c ≠ '+' ∧ c ≠ '-' := by
  have hall : (["0123456789abcdef", "0123456789ABCDEF"].all fun digits =>
      digits.toList.all fun c => decide (c.toNat < 128 ∧ c ≠ '+' ∧ c ≠ '-')) = true := by
    decide
  have hchar : ∀ digits ∈ ["0123456789abcdef", "0123456789ABCDEF"], c ∈ digits.toList →
      c.toNat < 128 ∧ c ≠ '+' ∧ c ≠ '-' := by
    intro digits hdigits hc
    exact of_decide_eq_true (List.all_eq_true.mp (List.all_eq_true.mp hall digits hdigits) c hc)
  rcases h.2 with h | h
  · exact hchar _ (by simp) (List.mem_of_getElem? h)
  · exact hchar _ (by simp) (List.mem_of_getElem? h)

theorem IsDigit.isDigit {value : Nat} {c : Char} (h : IsDigit 10 value c) :
    c.isDigit = true := by
  have hall : ∀ value < 10,
      ("0123456789abcdef".toList[value]?).all Char.isDigit = true ∧
      ("0123456789ABCDEF".toList[value]?).all Char.isDigit = true := by decide +kernel
  obtain ⟨hlower, hupper⟩ := hall value h.1
  rcases h.2 with h | h
  · rw [h] at hlower
    exact hlower
  · rw [h] at hupper
    exact hupper

theorem toNat_lt_of_digitOf? {value : Nat} {c : Char} (h : digitOf? 16 c = some value) :
    value < 16 ∧ c.toNat < 128 := by
  obtain ⟨h, hlt⟩ := Option.filter_eq_some_iff.mp h
  refine ⟨by simpa using hlt, ?_⟩
  have hbelow : ∀ {c d : Char}, c ≤ d → c.toNat ≤ d.toNat := fun h => h
  split at h
  · rename_i hdigit
    have := (Char.isDigit_iff_toNat.mp hdigit).2
    simp only [show '9'.toNat = 57 from rfl] at this
    omega
  · split at h
    · rename_i hlower
      have := hbelow hlower.2
      simp only [show 'z'.toNat = 122 from rfl] at this
      omega
    · split at h
      · rename_i hupper
        have := hbelow hupper.2
        simp only [show 'Z'.toNat = 90 from rfl] at this
        omega
      · cases h

/-- The library's digits, as far as base 16 needs them. -/
theorem digitOf?_iff {radix value : Nat} {c : Char} (hradix : radix ≤ 16) :
    digitOf? radix c = some value ↔ IsDigit radix value c := by
  have hbase : digitOf? 16 c = some value ↔ IsDigit 16 value c := by
    constructor
    · intro h
      obtain ⟨hvalue, hascii⟩ := toNat_lt_of_digitOf? h
      have := digitOf?_ascii c.toNat hascii value hvalue
      rw [Char.ofNat_toNat] at this
      exact this.mp h
    · intro h
      have := digitOf?_ascii c.toNat h.char.1 value h.1
      rw [Char.ofNat_toNat] at this
      exact this.mpr h
  rw [digitOf?_radix hradix, Option.filter_eq_some_iff, hbase]
  constructor
  · intro h
    obtain ⟨⟨_, htable⟩, hlt⟩ := h
    exact ⟨by simpa using hlt, htable⟩
  · intro h
    obtain ⟨hlt, htable⟩ := h
    exact ⟨⟨by omega, htable⟩, by simpa using hlt⟩

/-! ## Numerals -/

theorem foldlM_digits {radix : Nat} (hradix : radix ≤ 16) (digits : List Char)
    (start value : Nat) :
    digits.foldlM (fun value c => (digitOf? radix c).map (radix * value + ·)) start = some value ↔
      ∃ values, List.Forall₂ (IsDigit radix) values digits ∧
        value = values.foldl (fun value digit => radix * value + digit) start := by
  induction digits generalizing start with
  | nil => simp [eq_comm]
  | cons c digits ih =>
    simp only [List.foldlM_cons, Option.bind_eq_bind, Option.bind_eq_some_iff,
      Option.map_eq_some_iff, digitOf?_iff hradix]
    constructor
    · intro h
      obtain ⟨_, ⟨digit, hdigit, rfl⟩, h⟩ := h
      obtain ⟨values, hvalues, hvalue⟩ := (ih _).mp h
      exact ⟨digit :: values, .cons hdigit hvalues, hvalue⟩
    · intro h
      obtain ⟨_, hvalues, hvalue⟩ := h
      cases hvalues with
      | cons hdigit hvalues => exact ⟨_, ⟨_, hdigit, rfl⟩, (ih _).mpr ⟨_, hvalues, hvalue⟩⟩

theorem ofDigits_reverse (radix : Nat) (values : List Nat) :
    Nat.ofDigits radix values.reverse =
      values.foldl (fun value digit => radix * value + digit) 0 := by
  rw [Nat.ofDigits_eq_foldr, List.foldr_reverse]
  congr 1
  funext value digit
  exact Nat.add_comm _ _

theorem fromStrRadix_iff {radix : Nat} (hradix : radix ≤ 16) {digits : List Char} {value : Nat} :
    fromStrRadix radix digits = some value ↔ Spells radix digits value ∧ value < 2 ^ 64 := by
  unfold fromStrRadix Spells
  cases digits with
  | nil => simp
  | cons c digits =>
    rw [if_neg (by simp), Option.filter_eq_some_iff, foldlM_digits hradix, decide_eq_true_eq]
    simp only [ofDigits_reverse]
    refine and_congr_left fun _ => exists_congr fun values => ?_
    constructor
    · intro h
      obtain ⟨hvalues, hvalue⟩ := h
      refine ⟨?_, hvalues, hvalue⟩
      intro h
      obtain rfl := h
      cases hvalues
    · intro h
      obtain ⟨_, hvalues, hvalue⟩ := h
      exact ⟨hvalues, hvalue⟩

/-- The numeral that `int` reads once the sign is off. -/
def magnitude (unsigned : List Char) : Option Nat :=
  match unsigned with
  | '0' :: 'x' :: rest => fromStrRadix 16 rest
  | '0' :: 'o' :: rest => fromStrRadix 8 rest
  | '0' :: 'b' :: rest => fromStrRadix 2 rest
  | _ => if digitsButNotNumber unsigned then none else fromStrRadix 10 unsigned

theorem cons_of_startsSigned {text : List Char} (h : startsSigned text = true) :
    ∃ sign rest, text = sign :: rest ∧ (sign = '+' ∨ sign = '-') := by
  cases text with
  | nil => simp [startsSigned, stripChar] at h
  | cons c rest =>
    refine ⟨c, rest, rfl, ?_⟩
    simpa [startsSigned, stripChar] using h

theorem fromStrRadix_signed {digits : List Char} (h : startsSigned digits = true) (radix : Nat) :
    fromStrRadix radix digits = none := by
  obtain ⟨sign, rest, rfl, rfl | rfl⟩ := cons_of_startsSigned h
  · simp [fromStrRadix, show digitOf? radix '+' = none from rfl]
  · simp [fromStrRadix, show digitOf? radix '-' = none from rfl]

theorem magnitude_signed {text : List Char} (h : startsSigned text = true) :
    magnitude text = none := by
  have := fromStrRadix_signed h 10
  obtain ⟨sign, rest, rfl, rfl | rfl⟩ := cons_of_startsSigned h <;> simp [magnitude, this]

theorem stripChar_of_not_signed {text : List Char} (h : startsSigned text = false) :
    stripChar ['-'] text = none ∧ stripChar ['+'] text = none ∧
      stripChar ['-', '+'] text = none := by
  cases text with
  | nil => exact ⟨rfl, rfl, rfl⟩
  | cons c rest =>
    obtain ⟨hplus, hminus⟩ : c ≠ '+' ∧ c ≠ '-' := by simpa [startsSigned, stripChar] using h
    simp [stripChar, hplus, hminus]

/-- A sign before the digits changes nothing for leading zeros. -/
theorem digitsButNotNumber_sign {unsigned : List Char} (h : startsSigned unsigned = false)
    {sign : Char} (hsign : sign = '+' ∨ sign = '-') :
    digitsButNotNumber (sign :: unsigned) = digitsButNotNumber unsigned := by
  have hsigned : stripChar ['-', '+'] (sign :: unsigned) = some unsigned := by
    rcases hsign with rfl | rfl <;> rfl
  rw [digitsButNotNumber, digitsButNotNumber, hsigned, (stripChar_of_not_signed h).2.2]
  rfl

/-- What `int` makes of a magnitude: -(2^63) is the least that fits. -/
def signed (negative : Bool) (magnitude : Nat) : Option Number :=
  if !negative || magnitude = 0 then some (.posInt magnitude)
  else if magnitude ≤ 2 ^ 63 then some (.negInt (-(magnitude : Int)))
  else none

/-- A second sign, which `int` looks for by itself, is no digit. -/
theorem ite_signed_bind (radix : Nat) (digits : List Char) (negative : Bool) :
    (if startsSigned digits then none
      else match fromStrRadix radix digits with
        | none => none
        | some magnitude =>
          if !negative || magnitude = 0 then some (Number.posInt magnitude)
          else if magnitude ≤ 2 ^ 63 then some (.negInt (-(magnitude : Int)))
          else none) = (fromStrRadix radix digits).bind (signed negative) := by
  cases hsigned : startsSigned digits with
  | true => rw [if_pos rfl, fromStrRadix_signed hsigned, Option.bind_none]
  | false => cases fromStrRadix radix digits <;> rfl

theorem int_eq {text unsigned : List Char} {negative : Bool}
    (hsplit : (match stripChar ['-'] text with
      | some rest => (true, rest)
      | none => (false, (stripChar ['+'] text).getD text)) = (negative, unsigned))
    (hzeros : startsSigned unsigned = false →
      digitsButNotNumber text = digitsButNotNumber unsigned) :
    int text = (magnitude unsigned).bind (signed negative) := by
  unfold int
  split
  rename_i hpair
  cases hpair.symm.trans hsplit
  cases hsigned : startsSigned unsigned with
  | true => simp [magnitude_signed hsigned]
  | false =>
    simp only [hzeros hsigned, Bool.false_eq_true, if_false]
    fun_cases magnitude unsigned with
    | case1 rest => exact ite_signed_bind 16 rest negative
    | case2 rest => exact ite_signed_bind 8 rest negative
    | case3 rest => exact ite_signed_bind 2 rest negative
    | case4 _ hzero => simp [hzero]
    | case5 _ hzero =>
      simp only [hzero]
      exact ite_signed_bind 10 unsigned negative

theorem int_minus (unsigned : List Char) :
    int ('-' :: unsigned) = (magnitude unsigned).bind (signed true) :=
  int_eq rfl fun hsigned => digitsButNotNumber_sign hsigned (.inr rfl)

theorem int_plus (unsigned : List Char) :
    int ('+' :: unsigned) = (magnitude unsigned).bind (signed false) :=
  int_eq rfl fun hsigned => digitsButNotNumber_sign hsigned (.inl rfl)

theorem int_unsigned {text : List Char} (h : startsSigned text = false) :
    int text = (magnitude text).bind (signed false) := by
  obtain ⟨hminus, hplus, _⟩ := stripChar_of_not_signed h
  exact int_eq (by rw [hminus, hplus]; rfl) fun _ => rfl

theorem signed_false (magnitude : Nat) : signed false magnitude = some (.ofInt magnitude) := by
  simp [signed, Number.ofInt]

theorem signed_true_iff {magnitude : Nat} {n : Number} :
    signed true magnitude = some n ↔ magnitude ≤ 2 ^ 63 ∧ n = .ofInt (-magnitude) := by
  unfold signed Number.ofInt
  by_cases hzero : magnitude = 0
  · simp [hzero, eq_comm]
  · have hpos : 0 < magnitude := Nat.pos_of_ne_zero hzero
    simp [hzero, hpos, eq_comm]

/-! ## What is read is what is spelt -/

theorem Spells.not_signed {radix value : Nat} {text : List Char} (h : Spells radix text value) :
    startsSigned text = false := by
  obtain ⟨values, hne, hdigits, _⟩ := h
  apply Bool.eq_false_iff.mpr
  intro hsigned
  obtain ⟨sign, rest, rfl, hsign⟩ := cons_of_startsSigned hsigned
  cases hdigits with
  | cons hdigit _ =>
    rcases hsign with rfl | rfl
    · exact hdigit.char.2.1 rfl
    · exact hdigit.char.2.2 rfl

theorem Numeral.not_signed {text : List Char} {value : Nat} (h : Numeral text value) :
    startsSigned text = false := by
  cases h with
  | decimal h _ => exact h.not_signed
  | hexadecimal _ => rfl
  | octal _ => rfl
  | binary _ => rfl

/-- What leading zeros forbid, as the grammar says it. -/
theorem digitsButNotNumber_iff {text : List Char} {value : Nat} (h : Spells 10 text value) :
    digitsButNotNumber text = false ↔ (text.head? = some '0' → text = ['0']) := by
  have hsigned := h.not_signed
  have hdecimal : text.all Char.isDigit = true := by
    obtain ⟨values, hne, hdigits, hvalue⟩ := h
    clear hsigned hne hvalue
    induction hdigits with
    | nil => rfl
    | cons hdigit _ ih => rw [List.all_cons, hdigit.isDigit, ih, Bool.and_true]
  rw [digitsButNotNumber, (stripChar_of_not_signed hsigned).2.2, Option.getD_none]
  split
  · rename_i rest
    have hrest : rest.all Char.isDigit = true := (Bool.and_eq_true_iff.mp hdecimal).2
    simp [hrest]
  · rename_i hzero
    refine ⟨fun _ hhead => ?_, fun _ => rfl⟩
    obtain ⟨rest, rfl⟩ := List.head?_eq_some_iff.mp hhead
    exact absurd rfl (hzero rest)

/-- Without a prefix, a numeral is a decimal one. -/
theorem Numeral.of_unprefixed {text : List Char} {value : Nat} (h : Numeral text value)
    (hhexadecimal : ∀ rest, text ≠ '0' :: 'x' :: rest) (hoctal : ∀ rest, text ≠ '0' :: 'o' :: rest)
    (hbinary : ∀ rest, text ≠ '0' :: 'b' :: rest) :
    Spells 10 text value ∧ (text.head? = some '0' → text = ['0']) := by
  cases h with
  | decimal h hhead => exact ⟨h, hhead⟩
  | hexadecimal _ => exact absurd rfl (hhexadecimal _)
  | octal _ => exact absurd rfl (hoctal _)
  | binary _ => exact absurd rfl (hbinary _)

theorem magnitude_iff {text : List Char} {value : Nat} :
    magnitude text = some value ↔ Numeral text value ∧ value < 2 ^ 64 := by
  fun_cases magnitude text with
  | case1 rest =>
    rw [fromStrRadix_iff (by omega)]
    refine and_congr_left fun _ => ⟨.hexadecimal, fun h => ?_⟩
    cases h with
    | decimal _ hzero => cases hzero rfl
    | hexadecimal h => exact h
  | case2 rest =>
    rw [fromStrRadix_iff (by omega)]
    refine and_congr_left fun _ => ⟨.octal, fun h => ?_⟩
    cases h with
    | decimal _ hzero => cases hzero rfl
    | octal h => exact h
  | case3 rest =>
    rw [fromStrRadix_iff (by omega)]
    refine and_congr_left fun _ => ⟨.binary, fun h => ?_⟩
    cases h with
    | decimal _ hzero => cases hzero rfl
    | binary h => exact h
  | case4 _ hzero hhexadecimal hoctal hbinary =>
    rw [if_pos hzero]
    constructor
    · intro h
      cases h
    · intro h
      obtain ⟨hdecimal, hhead⟩ := h.1.of_unprefixed hhexadecimal hoctal hbinary
      rw [(digitsButNotNumber_iff hdecimal).mpr hhead] at hzero
      cases hzero
  | case5 _ hzero hhexadecimal hoctal hbinary =>
    rw [if_neg hzero, fromStrRadix_iff (by omega)]
    refine and_congr_left fun _ => ⟨fun h => ?_, fun h => ?_⟩
    · exact .decimal h ((digitsButNotNumber_iff h).mp (Bool.eq_false_iff.mpr hzero))
    · exact (h.of_unprefixed hhexadecimal hoctal hbinary).1

theorem Integer.cons_minus_iff {text : List Char} {value : Int} :
    Integer ('-' :: text) value ↔ ∃ magnitude, Numeral text magnitude ∧ value = -magnitude := by
  constructor
  · intro h
    cases h with
    | unsigned h => cases h.not_signed
    | minus h => exact ⟨_, h, rfl⟩
  · intro h
    obtain ⟨magnitude, h, rfl⟩ := h
    exact .minus h

theorem Integer.cons_plus_iff {text : List Char} {value : Int} :
    Integer ('+' :: text) value ↔
      ∃ magnitude : Nat, Numeral text magnitude ∧ value = magnitude := by
  constructor
  · intro h
    cases h with
    | unsigned h => cases h.not_signed
    | plus h => exact ⟨_, h, rfl⟩
  · intro h
    obtain ⟨magnitude, h, rfl⟩ := h
    exact .plus h

theorem Integer.unsigned_iff {text : List Char} {value : Int}
    (hsigned : startsSigned text = false) :
    Integer text value ↔ ∃ magnitude : Nat, Numeral text magnitude ∧ value = magnitude := by
  constructor
  · intro h
    cases h with
    | unsigned h => exact ⟨_, h, rfl⟩
    | plus _ => cases hsigned
    | minus _ => cases hsigned
  · intro h
    obtain ⟨magnitude, h, rfl⟩ := h
    exact .unsigned h

/-- **Integers are read exactly.** `int` returns a number just when the text
spells an integer that fits in 64 bits, signed or not, and that integer is the
number. -/
theorem int_exact (text : String) (n : Number) :
    int text.toList = some n ↔
      ∃ value : Int, Integer text.toList value ∧ -2 ^ 63 ≤ value ∧ value < 2 ^ 64 ∧
        n = .ofInt value := by
  have hnonnegative (unsigned : List Char) :
      (magnitude unsigned).bind (signed false) = some n ↔
        ∃ value : Int, (∃ magnitude : Nat, Numeral unsigned magnitude ∧ value = magnitude) ∧
          -2 ^ 63 ≤ value ∧ value < 2 ^ 64 ∧ n = .ofInt value := by
    simp only [Option.bind_eq_some_iff, magnitude_iff, signed_false]
    constructor
    · intro h
      obtain ⟨magnitude, ⟨h, hlt⟩, hn⟩ := h
      exact ⟨magnitude, ⟨magnitude, h, rfl⟩, by omega, by omega, (Option.some.inj hn).symm⟩
    · intro h
      obtain ⟨_, ⟨magnitude, h, rfl⟩, _, hlt, rfl⟩ := h
      exact ⟨magnitude, ⟨h, by omega⟩, rfl⟩
  cases hsigned : startsSigned text.toList with
  | false => simp only [int_unsigned hsigned, hnonnegative, Integer.unsigned_iff hsigned]
  | true =>
    obtain ⟨sign, unsigned, htext, rfl | rfl⟩ := cons_of_startsSigned hsigned
    · simp only [htext, int_plus, hnonnegative, Integer.cons_plus_iff]
    · simp only [htext, int_minus, Option.bind_eq_some_iff, magnitude_iff, signed_true_iff,
        Integer.cons_minus_iff]
      constructor
      · intro h
        obtain ⟨magnitude, ⟨h, _⟩, hle, rfl⟩ := h
        exact ⟨_, ⟨magnitude, h, rfl⟩, by omega, by omega, rfl⟩
      · intro h
        obtain ⟨_, ⟨magnitude, h, rfl⟩, hle, _, rfl⟩ := h
        exact ⟨magnitude, ⟨h, by omega⟩, by omega, rfl⟩

end Yaml

end UnifiedApi

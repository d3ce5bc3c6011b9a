import Mathlib.Data.List.TakeWhile
import Mathlib.Tactic.Linarith

/-! # URL queries and form decoding

What a URL parser makes of the query text it is given, and what a server that
reads the query as `application/x-www-form-urlencoded` gets back. Text is a
list of characters, the query a list of bytes. -/

namespace FormUrl

/-- The UTF-8 bytes of a text. -/
def utf8 (text : List Char) : List UInt8 := text.flatMap String.utf8EncodeChar

/-! ## The URL parser's side -/

/-- The special-query percent-encode set, on the bytes of UTF-8. -/
def inQuerySet (b : UInt8) : Bool :=
  b.toNat ≤ 0x20 || b.toNat == 0x22 || b.toNat == 0x23 || b.toNat == 0x27 || b.toNat == 0x3C ||
    b.toNat == 0x3E || 0x7F ≤ b.toNat

/-- The upper-case hexadecimal digit. -/
def hexDigit (n : Nat) : UInt8 := UInt8.ofNat (if n < 10 then 0x30 + n else 0x37 + n)

def encodeByte (b : UInt8) : List UInt8 :=
  if inQuerySet b then [0x25, hexDigit (b.toNat / 16), hexDigit (b.toNat % 16)] else [b]

/-- Tabs and line breaks are dropped from a URL before it is parsed. -/
def isStripped (c : Char) : Bool := c == '\t' || c == '\n' || c == '\r'

/-- The query of a URL, from the text that follows its question mark. -/
def urlQuery (text : List Char) : List UInt8 :=
  (utf8 ((text.filter fun c => !isStripped c).takeWhile (· != '#'))).flatMap encodeByte

/-! ## The server's side -/

def hexValue? (b : UInt8) : Option Nat :=
  if 0x30 ≤ b.toNat && b.toNat ≤ 0x39 then some (b.toNat - 0x30)
  else if 0x41 ≤ b.toNat && b.toNat ≤ 0x46 then some (b.toNat - 0x37)
  else if 0x61 ≤ b.toNat && b.toNat ≤ 0x66 then some (b.toNat - 0x57)
  else none

/-- A percent sign that no two digits follow stands for itself. -/
def percentDecode : List UInt8 → List UInt8
  | [] => []
  | [b] => [b]
  | [b, c] => [b, c]
  | b :: hi :: lo :: rest =>
    if b == 0x25 then match hexValue? hi, hexValue? lo with
      | some h, some l => UInt8.ofNat (16 * h + l) :: percentDecode rest
      | _, _ => b :: percentDecode (hi :: lo :: rest)
    else b :: percentDecode (hi :: lo :: rest)

def plusToSpace (bytes : List UInt8) : List UInt8 :=
  bytes.map fun b => if b == 0x2B then 0x20 else b

/-- The second byte continues a three-byte character. -/
def continuesThree (b second : UInt8) : Bool :=
  (b.toNat == 0xE0 && 0xA0 ≤ second.toNat && second.toNat ≤ 0xBF) ||
  (((0xE1 ≤ b.toNat && b.toNat ≤ 0xEC) || b.toNat == 0xEE || b.toNat == 0xEF) &&
    0x80 ≤ second.toNat && second.toNat ≤ 0xBF) ||
  (b.toNat == 0xED && 0x80 ≤ second.toNat && second.toNat ≤ 0x9F)

/-- The second byte continues a four-byte character. -/
def continuesFour (b second : UInt8) : Bool :=
  (b.toNat == 0xF0 && 0x90 ≤ second.toNat && second.toNat ≤ 0xBF) ||
  (0xF1 ≤ b.toNat && b.toNat ≤ 0xF3 && 0x80 ≤ second.toNat && second.toNat ≤ 0xBF) ||
  (b.toNat == 0xF4 && 0x80 ≤ second.toNat && second.toNat ≤ 0x8F)

/-- How many bytes of an ill-formed sequence one replacement character
stands for: as many as begin some character. -/
def illFormedLength : List UInt8 → Nat
  | b :: second :: rest =>
    if continuesThree b second then 2
    else if continuesFour b second then match rest with
      | third :: _ => if 0x80 ≤ third.toNat && third.toNat ≤ 0xBF then 3 else 2
      | [] => 2
    else 1
  | _ => 1

/-- Decoding with at most `fuel` characters left to produce. -/
def decodeUtf8 : Nat → List UInt8 → List Char
  | 0, _ => []
  | _, [] => []
  | fuel + 1, b :: rest => match (b :: rest).toByteArray.utf8DecodeChar? 0 with
    | some c => c :: decodeUtf8 fuel ((b :: rest).drop c.utf8Size)
    | none => Char.ofNat 0xFFFD :: decodeUtf8 fuel ((b :: rest).drop (illFormedLength (b :: rest)))

/-- UTF-8 decoding that replaces what is ill-formed. -/
def fromUtf8Lossy (bytes : List UInt8) : List Char := decodeUtf8 bytes.length bytes

def decodeComponent (bytes : List UInt8) : List Char :=
  fromUtf8Lossy (percentDecode (plusToSpace bytes))

/-- A name and its value, split at the first equals sign. -/
def decodePair (part : List UInt8) : List Char × List Char :=
  (decodeComponent (part.takeWhile (· != 0x3D)),
    decodeComponent ((part.dropWhile (· != 0x3D)).drop 1))

/-- The name-value pairs of a query; empty parts are skipped. -/
def formParse (query : List UInt8) : List (List Char × List Char) :=
  ((query.splitOn 0x26).filter (!·.isEmpty)).map decodePair

/-! ## Text that needs no encoding -/

/-- No percent sign is followed by two hexadecimal digits. -/
def noEscape : List UInt8 → Bool
  | b :: hi :: lo :: rest =>
    !(b == 0x25 && (hexValue? hi).isSome && (hexValue? lo).isSome) && noEscape (hi :: lo :: rest)
  | _ => true

/-- Bytes that a URL drops or cuts its query at: `#`, tab, line feed, carriage
return. -/
def dropped : List UInt8 := [0x23, 0x09, 0x0A, 0x0D]

/-- These, and the bytes that a form gives a meaning of their own: `&`, `+`. -/
def reserved : List UInt8 := 0x26 :: 0x2B :: dropped

/-- Text that comes back as it is when it is put into a query unencoded. All
of what it must avoid is ASCII, so bytes and characters say the same. -/
def Plain (text : List Char) : Prop :=
  (∀ b ∈ utf8 text, b ∉ reserved) ∧ noEscape (utf8 text) = true

instance (text : List Char) : Decidable (Plain text) :=
  @instDecidableAnd _ _ (List.decidableBAll _ _) inferInstance

theorem utf8_append (a b : List Char) : utf8 (a ++ b) = utf8 a ++ utf8 b := List.flatMap_append

theorem mem_utf8 {c : Char} {text : List Char} {b : UInt8} (h : c ∈ text)
    (hc : String.utf8EncodeChar c = [b]) : b ∈ utf8 text :=
  List.mem_flatMap.mpr ⟨c, h, by rw [hc]; exact List.mem_singleton_self b⟩

/-- Such text is neither stripped nor cut: only encoded. -/
theorem urlQuery_eq {text : List Char} (h : ∀ b ∈ utf8 text, b ∉ dropped) :
    urlQuery text = (utf8 text).flatMap encodeByte := by
  have hstripped : text.filter (fun c => !isStripped c) = text := by
    rw [List.filter_eq_self]
    intro c hc
    rw [Bool.not_eq_true']
    by_contra hstrip
    rw [Bool.not_eq_false, isStripped, Bool.or_eq_true, Bool.or_eq_true, beq_iff_eq, beq_iff_eq,
      beq_iff_eq] at hstrip
    rcases hstrip with (htab | hline) | hreturn
    · subst htab
      exact h _ (mem_utf8 hc rfl) (by decide)
    · subst hline
      exact h _ (mem_utf8 hc rfl) (by decide)
    · subst hreturn
      exact h _ (mem_utf8 hc rfl) (by decide)
  have huncut : text.takeWhile (· != '#') = text := by
    rw [List.takeWhile_eq_self_iff]
    intro c hc
    rw [bne_iff_ne]
    intro hcut
    subst hcut
    exact h _ (mem_utf8 hc rfl) (by decide)
  unfold urlQuery
  rw [hstripped, huncut]

theorem hexValue?_hexDigit {n : Nat} (h : n < 16) : hexValue? (hexDigit n) = some n := by
  revert n
  decide

theorem toNat_lt (b : UInt8) : b.toNat < 256 := b.toNat_lt_size

/-- An encoded byte that is no percent sign and no digit was there before. -/
theorem mem_of_mem_encode {b : UInt8} {bytes : List UInt8} (hpercent : b ≠ 0x25)
    (hdigit : hexValue? b = none) (h : b ∈ bytes.flatMap encodeByte) : b ∈ bytes := by
  obtain ⟨source, hsource, hb⟩ := List.mem_flatMap.mp h
  unfold encodeByte at hb
  split at hb
  · have hlt := toNat_lt source
    have hhi := hexValue?_hexDigit (n := source.toNat / 16) (by omega)
    have hlo := hexValue?_hexDigit (n := source.toNat % 16) (by omega)
    simp only [List.mem_cons, List.not_mem_nil, or_false] at hb
    rcases hb with rfl | rfl | rfl
    · exact absurd rfl hpercent
    · rw [hdigit] at hhi
      cases hhi
    · rw [hdigit] at hlo
      cases hlo
  · rw [List.mem_singleton] at hb
    exact hb ▸ hsource

theorem plusToSpace_encode {bytes : List UInt8} (h : 0x2B ∉ bytes) :
    plusToSpace (bytes.flatMap encodeByte) = bytes.flatMap encodeByte := by
  unfold plusToSpace
  refine (List.map_congr_left fun b hb => ?_).trans (List.map_id _)
  split
  · rename_i hplus
    rw [beq_iff_eq] at hplus
    subst hplus
    exact absurd (mem_of_mem_encode (by decide) (by decide) hb) h
  · rfl

theorem percentDecode_cons {b : UInt8} (rest : List UInt8)
    (h : ∀ hi lo tail, rest = hi :: lo :: tail → b = 0x25 →
      hexValue? hi = none ∨ hexValue? lo = none) :
    percentDecode (b :: rest) = b :: percentDecode rest := by
  cases rest with
  | nil => rfl
  | cons hi rest =>
    cases rest with
    | nil => rfl
    | cons lo tail =>
      rw [percentDecode]
      split
      · rename_i hb
        rcases h hi lo tail rfl (beq_iff_eq.mp hb) with hhi | hlo
        · rw [hhi]
        · rw [hlo]
          cases hexValue? hi <;> rfl
      · rfl

theorem percentDecode_encodeByte {b : UInt8} (rest : List UInt8) (h : inQuerySet b = true) :
    percentDecode (encodeByte b ++ rest) = b :: percentDecode rest := by
  have hlt := toNat_lt b
  have hhi := hexValue?_hexDigit (n := b.toNat / 16) (by omega)
  have hlo := hexValue?_hexDigit (n := b.toNat % 16) (by omega)
  have hbyte : UInt8.ofNat (16 * (b.toNat / 16) + b.toNat % 16) = b := by
    rw [Nat.div_add_mod]
    exact UInt8.ofNat_toNat
  unfold encodeByte
  rw [if_pos h]
  simp only [List.cons_append, List.nil_append]
  rw [percentDecode, if_pos (beq_self_eq_true _), hhi, hlo]
  dsimp only
  rw [hbyte]

/-- The first byte that encoding `b` leaves: itself or a percent sign. -/
theorem encodeByte_head (b : UInt8) : ∃ tail, encodeByte b = 0x25 :: tail ∨ encodeByte b = [b] := by
  unfold encodeByte
  split
  · exact ⟨_, .inl rfl⟩
  · exact ⟨[], .inr rfl⟩

/-- Encoding puts no two digits behind a percent sign that had none. -/
theorem not_digits_of_noEscape {rest : List UInt8} {hi lo : UInt8} {tail : List UInt8}
    (h : noEscape (0x25 :: rest) = true) (heq : rest.flatMap encodeByte = hi :: lo :: tail) :
    hexValue? hi = none ∨ hexValue? lo = none := by
  cases rest with
  | nil => cases heq
  | cons first rest =>
    rw [List.flatMap_cons] at heq
    obtain ⟨_, hfirst | hfirst⟩ := encodeByte_head first
    · rw [hfirst] at heq
      obtain ⟨rfl, _⟩ := List.cons.inj heq
      exact .inl rfl
    · rw [hfirst, List.singleton_append] at heq
      obtain ⟨rfl, hnext⟩ := List.cons.inj heq
      cases rest with
      | nil => cases hnext
      | cons second rest =>
        rw [List.flatMap_cons] at hnext
        obtain ⟨_, hsecond | hsecond⟩ := encodeByte_head second
        · rw [hsecond] at hnext
          obtain ⟨rfl, _⟩ := List.cons.inj hnext
          exact .inr rfl
        · rw [hsecond] at hnext
          obtain ⟨rfl, _⟩ := List.cons.inj hnext
          rw [noEscape, Bool.and_eq_true, Bool.not_eq_true', beq_self_eq_true, Bool.true_and,
            Bool.and_eq_false_iff] at h
          rcases h.1 with hno | hno
          · exact .inl (Option.not_isSome_iff_eq_none.mp (by rw [hno]; decide))
          · exact .inr (Option.not_isSome_iff_eq_none.mp (by rw [hno]; decide))

theorem noEscape_tail {b : UInt8} {rest : List UInt8} (h : noEscape (b :: rest) = true) :
    noEscape rest = true := by
  cases rest with
  | nil => rfl
  | cons hi rest =>
    cases rest with
    | nil => rfl
    | cons lo tail =>
      rw [noEscape, Bool.and_eq_true] at h
      exact h.2

theorem noEscape_of_notMem {bytes : List UInt8} (h : 0x25 ∉ bytes) : noEscape bytes = true := by
  fun_induction noEscape bytes with
  | case1 b hi lo rest ih =>
    have hb : (b == 0x25) = false := beq_eq_false_iff_ne.mpr fun heq => h (by simp [heq])
    rw [hb, Bool.false_and, Bool.false_and, Bool.not_false, Bool.true_and]
    exact ih fun hmem => h (List.mem_cons_of_mem _ hmem)
  | case2 => rfl

/-- Text of characters that neither mean anything in a query nor escape. -/
theorem plain_of_forall {text : List Char}
    (h : ∀ c ∈ text, ∀ b ∈ String.utf8EncodeChar c, b ∉ 0x25 :: reserved) : Plain text := by
  have hbytes : ∀ b ∈ utf8 text, b ∉ 0x25 :: reserved := by
    intro b hb
    obtain ⟨c, hc, hbc⟩ := List.mem_flatMap.mp hb
    exact h c hc b hbc
  refine ⟨fun b hb hreserved => hbytes b hb (List.mem_cons_of_mem _ hreserved), ?_⟩
  exact noEscape_of_notMem fun hmem => hbytes 0x25 hmem List.mem_cons_self

/-- Two texts without an escape make none across a comma. -/
theorem noEscape_comma {a b : List UInt8} (ha : noEscape a = true)
    (hb : noEscape b = true) : noEscape (a ++ 0x2C :: b) = true := by
  induction a with
  | nil =>
    cases b with
    | nil => rfl
    | cons hi b =>
      cases b with
      | nil => rfl
      | cons lo b =>
        show (!((0x2C : UInt8) == 0x25 && _ && _) && noEscape (hi :: lo :: b)) = true
        rw [hb]
        rfl
  | cons first a ih =>
    have hrest := ih (noEscape_tail ha)
    cases a with
    | nil =>
      cases b with
      | nil => rfl
      | cons lo b =>
        show (!(first == 0x25 && (hexValue? 0x2C).isSome && _) && _) = true
        have hcomma : (hexValue? 0x2C).isSome = false := by decide
        rw [hcomma, Bool.and_false, Bool.false_and]
        exact hrest
    | cons second a =>
      cases a with
      | nil =>
        show (!(first == 0x25 && _ && (hexValue? 0x2C).isSome) && _) = true
        have hcomma : (hexValue? 0x2C).isSome = false := by decide
        rw [hcomma, Bool.and_false]
        exact hrest
      | cons third a =>
        rw [noEscape, Bool.and_eq_true] at ha
        show (!(first == 0x25 && _ && _) && _) = true
        rw [Bool.and_eq_true]
        exact ⟨ha.1, hrest⟩

/-- What the parser encodes, the server decodes, unless the text itself held
an escape. -/
theorem percentDecode_encode {bytes : List UInt8} (h : noEscape bytes = true) :
    percentDecode (bytes.flatMap encodeByte) = bytes := by
  induction bytes with
  | nil => rfl
  | cons b rest ih =>
    rw [List.flatMap_cons]
    by_cases hset : inQuerySet b = true
    · rw [percentDecode_encodeByte _ hset, ih (noEscape_tail h)]
    · have hraw : encodeByte b = [b] := by
        unfold encodeByte
        rw [if_neg hset]
      rw [hraw, List.singleton_append, percentDecode_cons, ih (noEscape_tail h)]
      intro hi lo tail heq hb
      subst hb
      exact not_digits_of_noEscape h heq

/-! ## Decoding what was encoded -/

theorem decodeUtf8_utf8 (text : List Char) {fuel : Nat} (h : (utf8 text).length ≤ fuel) :
    decodeUtf8 fuel (utf8 text) = text := by
  induction text generalizing fuel with
  | nil => cases fuel <;> rfl
  | cons c rest ih =>
    have hbytes : utf8 (c :: rest) = String.utf8EncodeChar c ++ utf8 rest := List.flatMap_cons
    have hlen := String.length_utf8EncodeChar c
    have hpos := c.utf8Size_pos
    have hdrop : (utf8 (c :: rest)).drop c.utf8Size = utf8 rest := by
      rw [hbytes, ← hlen, List.drop_left]
    have hdecode : (utf8 (c :: rest)).toByteArray.utf8DecodeChar? 0 = some c := by
      rw [hbytes, List.toByteArray_append]
      exact ByteArray.utf8DecodeChar?_utf8EncodeChar_append
    rw [hbytes, List.length_append, hlen] at h
    cases fuel with
    | zero => omega
    | succ fuel =>
      cases hcons : utf8 (c :: rest) with
      | nil =>
        rw [hcons] at hdecode
        cases hdecode
      | cons b tail =>
        rw [hcons] at hdrop hdecode
        rw [decodeUtf8, hdecode]
        dsimp only
        rw [hdrop, ih (by omega)]

theorem decodeComponent_encode {text : List Char} (h : Plain text) :
    decodeComponent ((utf8 text).flatMap encodeByte) = text := by
  have hplus : 0x2B ∉ utf8 text := fun hmem => h.1 _ hmem (by decide)
  unfold decodeComponent
  rw [plusToSpace_encode hplus, percentDecode_encode h.2]
  exact decodeUtf8_utf8 text (le_refl _)

/-- A pair as it is written into a query. -/
def pairText (pair : List Char × List Char) : List Char := pair.1 ++ '=' :: pair.2

/-- The name and the value come back from the pair's own part of the query. -/
theorem decodePair_encode {pair : List Char × List Char} (hname : Plain pair.1)
    (hequals : 0x3D ∉ utf8 pair.1) (hvalue : Plain pair.2) :
    decodePair ((utf8 (pairText pair)).flatMap encodeByte) = pair := by
  have hbytes : (utf8 (pairText pair)).flatMap encodeByte =
      (utf8 pair.1).flatMap encodeByte ++ 0x3D :: (utf8 pair.2).flatMap encodeByte := by
    rw [pairText, utf8_append, List.flatMap_append]
    rfl
  have hfree : ∀ b ∈ (utf8 pair.1).flatMap encodeByte, (b != 0x3D) = true := by
    intro b hb
    rw [bne_iff_ne]
    intro heq
    subst heq
    exact hequals (mem_of_mem_encode (by decide) (by decide) hb)
  have htake : ((utf8 (pairText pair)).flatMap encodeByte).takeWhile (· != 0x3D) =
      (utf8 pair.1).flatMap encodeByte := by
    rw [hbytes, List.takeWhile_append_of_pos hfree]
    simp
  have hdrop : ((utf8 (pairText pair)).flatMap encodeByte).dropWhile (· != 0x3D) =
      0x3D :: (utf8 pair.2).flatMap encodeByte := by
    rw [hbytes, List.dropWhile_append_of_pos hfree]
    simp
  unfold decodePair
  rw [htake, hdrop, decodeComponent_encode hname, List.drop_succ_cons, List.drop_zero,
    decodeComponent_encode hvalue]

theorem flatMap_intercalate {α β : Type} (f : α → List β) {a : α} {b : β} (h : f a = [b])
    (parts : List (List α)) :
    ([a].intercalate parts).flatMap f = [b].intercalate (parts.map (·.flatMap f)) := by
  induction parts with
  | nil => rfl
  | cons part rest ih =>
    cases rest with
    | nil => simp
    | cons next rest =>
      rw [List.intercalate_cons_cons, List.flatMap_append, List.flatMap_append, ih,
        List.flatMap_singleton, h]
      exact (List.intercalate_cons_cons ..).symm

theorem mem_intercalate {α : Type} {a b : α} {parts : List (List α)}
    (h : b ∈ [a].intercalate parts) : b = a ∨ ∃ part ∈ parts, b ∈ part := by
  induction parts with
  | nil => cases h
  | cons part rest ih =>
    cases rest with
    | nil =>
      rw [List.intercalate_singleton] at h
      exact .inr ⟨part, List.mem_cons_self, h⟩
    | cons next rest =>
      rw [List.intercalate_cons_cons, List.mem_append, List.mem_append, List.mem_singleton] at h
      rcases h with (hpart | ha) | hrest
      · exact .inr ⟨part, List.mem_cons_self, hpart⟩
      · exact .inl ha
      · rcases ih hrest with ha | ⟨part', hpart', hb⟩
        · exact .inl ha
        · exact .inr ⟨part', List.mem_cons_of_mem _ hpart', hb⟩

/-- Names that need no encoding need none when they are joined with commas. -/
theorem plain_intercalate {names : List (List Char)} (h : ∀ name ∈ names, Plain name) :
    Plain ([','].intercalate names) := by
  induction names with
  | nil => decide
  | cons name rest ih =>
    have hname := h name List.mem_cons_self
    cases rest with
    | nil =>
      rw [List.intercalate_singleton]
      exact hname
    | cons next rest =>
      have hrest := ih fun name hmem => h name (List.mem_cons_of_mem _ hmem)
      have hbytes : utf8 ([','].intercalate (name :: next :: rest)) =
          utf8 name ++ 0x2C :: utf8 ([','].intercalate (next :: rest)) := by
        rw [List.intercalate_cons_cons, List.append_assoc, utf8_append]
        rfl
      constructor
      · intro b hb
        rw [hbytes, List.mem_append, List.mem_cons] at hb
        rcases hb with hb | rfl | hb
        · exact hname.1 b hb
        · decide
        · exact hrest.1 b hb
      · rw [hbytes]
        exact noEscape_comma hname.2 hrest.2

theorem pairText_not_reserved {pair : List Char × List Char} (hname : Plain pair.1)
    (hvalue : Plain pair.2) : ∀ b ∈ utf8 (pairText pair), b ∉ reserved := by
  intro b hb
  rw [pairText, utf8_append, List.mem_append] at hb
  rcases hb with hb | hb
  · exact hname.1 b hb
  · rcases List.mem_cons.mp (show b ∈ 0x3D :: utf8 pair.2 from hb) with rfl | hb
    · decide
    · exact hvalue.1 b hb

/-- **A query made of plain pairs is read back as those pairs.** -/
theorem formParse_urlQuery {pairs : List (List Char × List Char)} (hne : pairs ≠ [])
    (h : ∀ pair ∈ pairs, Plain pair.1 ∧ 0x3D ∉ utf8 pair.1 ∧ Plain pair.2) :
    formParse (urlQuery (['&'].intercalate (pairs.map pairText))) = pairs := by
  have hbytes : utf8 (['&'].intercalate (pairs.map pairText)) =
      [0x26].intercalate ((pairs.map pairText).map utf8) :=
    flatMap_intercalate String.utf8EncodeChar rfl _
  have hdropped : ∀ b ∈ utf8 (['&'].intercalate (pairs.map pairText)), b ∉ dropped := by
    intro b hb
    rw [hbytes] at hb
    rcases mem_intercalate hb with rfl | ⟨part, hpart, hb⟩
    · decide
    · rw [List.map_map] at hpart
      obtain ⟨pair, hpair, rfl⟩ := List.mem_map.mp hpart
      obtain ⟨hname, _, hvalue⟩ := h pair hpair
      have hfree := pairText_not_reserved hname hvalue b hb
      exact fun hdrop => hfree (List.mem_cons_of_mem _ (List.mem_cons_of_mem _ hdrop))
  have hquery : urlQuery (['&'].intercalate (pairs.map pairText)) =
      [0x26].intercalate (pairs.map fun pair => (utf8 (pairText pair)).flatMap encodeByte) := by
    rw [urlQuery_eq hdropped, hbytes, flatMap_intercalate encodeByte rfl, List.map_map,
      List.map_map]
    rfl
  have hsplit : (urlQuery (['&'].intercalate (pairs.map pairText))).splitOn 0x26 =
      pairs.map fun pair => (utf8 (pairText pair)).flatMap encodeByte := by
    rw [hquery]
    refine List.splitOn_intercalate _ ?_ (by simpa using hne)
    intro part hpart hmem
    obtain ⟨pair, hpair, rfl⟩ := List.mem_map.mp hpart
    obtain ⟨hname, _, hvalue⟩ := h pair hpair
    have hraw := mem_of_mem_encode (by decide) (by decide) hmem
    exact pairText_not_reserved hname hvalue _ hraw List.mem_cons_self
  have hfull : (pairs.map fun pair => (utf8 (pairText pair)).flatMap encodeByte).filter
      (!·.isEmpty) = pairs.map fun pair => (utf8 (pairText pair)).flatMap encodeByte := by
    rw [List.filter_eq_self]
    intro part hpart
    obtain ⟨pair, _, rfl⟩ := List.mem_map.mp hpart
    have hequals : 0x3D ∈ (utf8 (pairText pair)).flatMap encodeByte := by
      have hchar : '=' ∈ pairText pair := List.mem_append_right _ List.mem_cons_self
      exact List.mem_flatMap.mpr ⟨0x3D, mem_utf8 hchar rfl, List.mem_cons_self⟩
    cases hpart : (utf8 (pairText pair)).flatMap encodeByte with
    | nil =>
      rw [hpart] at hequals
      cases hequals
    | cons b tail => rfl
  unfold formParse
  rw [hsplit, hfull, List.map_map]
  refine (List.map_congr_left fun pair hpair => ?_).trans (List.map_id _)
  obtain ⟨hname, hequals, hvalue⟩ := h pair hpair
  exact decodePair_encode hname hequals hvalue

/-! ## Decoding in pieces -/

/-- What decoding takes at once: the character it makes, and of how many
bytes. -/
def decodeStep (bytes : List UInt8) : Char × Nat :=
  match bytes.toByteArray.utf8DecodeChar? 0 with
  | some c => (c, c.utf8Size)
  | none => (Char.ofNat 0xFFFD, illFormedLength bytes)

theorem decodeUtf8_succ (fuel : Nat) (b : UInt8) (rest : List UInt8) :
    decodeUtf8 (fuel + 1) (b :: rest) = (decodeStep (b :: rest)).1 ::
      decodeUtf8 fuel ((b :: rest).drop (decodeStep (b :: rest)).2) := by
  rw [decodeUtf8]
  unfold decodeStep
  cases (b :: rest).toByteArray.utf8DecodeChar? 0 <;> rfl

theorem illFormedLength_bounds {bytes : List UInt8} (h : bytes ≠ []) :
    0 < illFormedLength bytes ∧ illFormedLength bytes ≤ bytes.length := by
  fun_cases illFormedLength bytes <;> simp
  cases bytes with
  | nil => exact absurd rfl h
  | cons b rest => simp

theorem decodeStep_pos {bytes : List UInt8} (h : bytes ≠ []) : 0 < (decodeStep bytes).2 := by
  unfold decodeStep
  split
  · rename_i c _
    exact c.utf8Size_pos
  · exact (illFormedLength_bounds h).1

theorem decodeStep_le {bytes : List UInt8} (h : bytes ≠ []) :
    (decodeStep bytes).2 ≤ bytes.length := by
  unfold decodeStep
  split
  · rename_i c hc
    have hle := ByteArray.le_size_of_utf8DecodeChar?_eq_some hc
    rwa [Nat.zero_add, List.size_toByteArray] at hle
  · exact (illFormedLength_bounds h).2

/-- Fuel beyond the length changes nothing. -/
theorem decodeUtf8_eq {fuel more : Nat} {bytes : List UInt8} (h : bytes.length ≤ fuel)
    (hmore : bytes.length ≤ more) : decodeUtf8 fuel bytes = decodeUtf8 more bytes := by
  induction fuel generalizing bytes more with
  | zero =>
    obtain rfl := List.length_eq_zero_iff.mp (Nat.le_zero.mp h)
    cases more <;> rfl
  | succ fuel ih =>
    cases bytes with
    | nil => cases more <;> rfl
    | cons b rest =>
      cases more with
      | zero => cases hmore
      | succ more =>
        have hpos := decodeStep_pos (List.cons_ne_nil b rest)
        have hlen : ((b :: rest).drop (decodeStep (b :: rest)).2).length ≤ rest.length := by
          rw [List.length_drop, List.length_cons]
          omega
        rw [List.length_cons] at h hmore
        rw [decodeUtf8_succ, decodeUtf8_succ]
        congr 1
        exact ih (by omega) (by omega)

theorem fromUtf8Lossy_cons (b : UInt8) (rest : List UInt8) :
    fromUtf8Lossy (b :: rest) = (decodeStep (b :: rest)).1 ::
      fromUtf8Lossy ((b :: rest).drop (decodeStep (b :: rest)).2) := by
  have hpos := decodeStep_pos (List.cons_ne_nil b rest)
  unfold fromUtf8Lossy
  rw [List.length_cons, decodeUtf8_succ]
  congr 1
  refine decodeUtf8_eq ?_ (Nat.le_refl _)
  rw [List.length_drop, List.length_cons]
  omega

/-- Only the first byte of a character can be ASCII. -/
theorem continuation_of_mem_tail {c : Char} {b : UInt8}
    (h : b ∈ (String.utf8EncodeChar c).tail) : 0x80 ≤ b.toNat := by
  have hbyte : ∀ n, 0x80 ≤ (UInt8.ofNat (n % 64 + 128)).toNat := by
    intro n
    rw [UInt8.toNat_ofNat']
    omega
  unfold String.utf8EncodeChar at h
  dsimp only at h
  split at h
  · cases h
  · split at h
    · rw [List.tail_cons, List.mem_singleton] at h
      exact h ▸ hbyte _
    · split at h
      · rw [List.tail_cons, List.mem_cons, List.mem_singleton] at h
        rcases h with rfl | rfl <;> exact hbyte _
      · rw [List.tail_cons, List.mem_cons, List.mem_cons, List.mem_singleton] at h
        rcases h with rfl | rfl | rfl <;> exact hbyte _

section Ascii
variable {b : UInt8} (hb : b.toNat < 0x80)
include hb

theorem decodeChar_append_cons {bytes : List UInt8} (h : bytes ≠ []) (rest : List UInt8) :
    (bytes ++ b :: rest).toByteArray.utf8DecodeChar? 0 = bytes.toByteArray.utf8DecodeChar? 0 := by
  cases hbytes : bytes.toByteArray.utf8DecodeChar? 0 with
  | some c =>
    rw [List.toByteArray_append]
    exact ByteArray.utf8DecodeChar?_append_eq_some hbytes _
  | none =>
    rw [Option.eq_none_iff_forall_ne_some]
    intro c hc
    obtain ⟨more, hmore⟩ := ByteArray.exists_of_utf8DecodeChar?_eq_some hc
    have hlist : bytes ++ b :: rest = String.utf8EncodeChar c ++ more.data.toList := by
      have hdata := congrArg (fun array => array.data.toList) hmore
      simpa using hdata
    rcases List.append_eq_append_iff.mp hlist with ⟨excess, hexcess, hrest⟩ | ⟨left, hleft, _⟩
    · -- the character would reach into the ASCII byte
      cases excess with
      | nil =>
        have hdecode := ByteArray.utf8DecodeChar?_utf8EncodeChar_append
          (b := ([] : List UInt8).toByteArray) (c := c)
        rw [← List.toByteArray_append, hexcess, List.append_nil, List.append_nil, hbytes] at hdecode
        cases hdecode
      | cons first excess =>
        obtain ⟨rfl, -⟩ := List.cons.inj hrest
        have hmem : b ∈ (String.utf8EncodeChar c).tail := by
          rw [hexcess, List.tail_append_of_ne_nil h]
          exact List.mem_append_right _ List.mem_cons_self
        exact absurd (continuation_of_mem_tail hmem) (by omega)
    · rw [hleft, List.toByteArray_append, ByteArray.utf8DecodeChar?_utf8EncodeChar_append] at hbytes
      cases hbytes

theorem illFormedLength_append_cons {bytes : List UInt8} (h : bytes ≠ []) (rest : List UInt8) :
    illFormedLength (bytes ++ b :: rest) = illFormedLength bytes := by
  have hthree : ∀ first, continuesThree first b = false := by
    intro first
    simp [continuesThree]
    omega
  have hfour : ∀ first, continuesFour first b = false := by
    intro first
    simp [continuesFour]
    omega
  match bytes with
  | [] => exact absurd rfl h
  | [first] => simp [illFormedLength, hthree, hfour]
  | [first, second] =>
    have hthird : ¬ 0x80 ≤ b.toNat := by omega
    simp [illFormedLength, hthird]
  | first :: second :: third :: more => rfl

/-- **Decoding can be cut before an ASCII byte**, whatever bytes stand before
it: it is never taken for a part of another character. -/
theorem fromUtf8Lossy_append_cons (bytes rest : List UInt8) :
    fromUtf8Lossy (bytes ++ b :: rest) = fromUtf8Lossy bytes ++ fromUtf8Lossy (b :: rest) := by
  induction hlen : bytes.length using Nat.strongRecOn generalizing bytes with
  | ind n ih =>
    cases bytes with
    | nil => rfl
    | cons first bytes =>
      have hne := List.cons_ne_nil first bytes
      have hstep : decodeStep (first :: bytes ++ b :: rest) = decodeStep (first :: bytes) := by
        unfold decodeStep
        rw [decodeChar_append_cons hb hne, illFormedLength_append_cons hb hne]
      have hpos := decodeStep_pos hne
      have hle := decodeStep_le hne
      rw [List.cons_append, fromUtf8Lossy_cons, fromUtf8Lossy_cons, ← List.cons_append, hstep,
        List.drop_append_of_le_length hle, ih _ _ _ rfl, List.cons_append]
      rw [List.length_drop]
      omega

theorem fromUtf8Lossy_ascii_cons (rest : List UInt8) :
    fromUtf8Lossy (b :: rest) = Char.ofNat b.toNat :: fromUtf8Lossy rest := by
  have hvalid : b.toNat.isValidChar := .inl (by omega)
  have hval : (Char.ofNat b.toNat).val.toNat = b.toNat := by
    unfold Char.ofNat
    rw [dif_pos hvalid]
    rfl
  have hencode : String.utf8EncodeChar (Char.ofNat b.toNat) = [b] := by
    unfold String.utf8EncodeChar
    dsimp only
    rw [hval, if_pos (by omega), UInt8.ofNat_toNat]
  have hdecode : (b :: rest).toByteArray.utf8DecodeChar? 0 = some (Char.ofNat b.toNat) := by
    rw [← List.singleton_append, ← hencode, List.toByteArray_append]
    exact ByteArray.utf8DecodeChar?_utf8EncodeChar_append
  have hsize : (Char.ofNat b.toNat).utf8Size = 1 := by
    rw [← String.length_utf8EncodeChar, hencode]
    rfl
  have hstep : decodeStep (b :: rest) = (Char.ofNat b.toNat, 1) := by
    unfold decodeStep
    rw [hdecode]
    dsimp only
    rw [hsize]
  rw [fromUtf8Lossy_cons, hstep, List.drop_succ_cons, List.drop_zero]

end Ascii

end FormUrl

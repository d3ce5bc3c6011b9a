import Mathlib.Data.List.Infix
import UnifiedApi.Lib.Text

/-! # Checking host keys against an OpenSSH known_hosts file

A line gives a key to the hosts of a pattern list; markers such as `@revoked`
are not supported, and their lines are skipped. -/

namespace UnifiedApi

/-- What the key, encoding and hashing libraries do. -/
structure KeyOps (Key : Type) where
  parsePublicKeyBase64 : List Char → Except String Key
  fingerprint : Key → String
  decodeBase64 : List Char → Option (List UInt8)
  /-- HMAC-SHA1 of the name under the salt against the hash; `none` where the
  salt cannot be a key. -/
  verify (salt : List UInt8) (name : String) (hash : List UInt8) : Option Bool

structure KnownHosts (Key : Type) where
  entries : List (List Char × Key)

inductive HostKeyCheck where
  | known
  | changed (expected : List String)
  | unknown
  deriving DecidableEq

/-- What a server shows of itself. -/
inductive ServerKey (Key : Type) where
  | publicKey (key : Key)
  | certificate

namespace KnownHosts

section
variable {Key : Type} (ops : KeyOps Key)

def parseLine (raw : List Char) : Option (List Char × Key) :=
  let line := Text.trim raw
  if line.isEmpty || line.head? == some '#' then none
  else if line.head? == some '@' then none
  else match Text.splitWhitespace line with
    | pattern :: _ :: key :: _ => match ops.parsePublicKeyBase64 key with
      | .ok parsed => some (pattern, parsed)
      | .error _ => none
    | _ => none

def ofLines (lines : List (List Char)) : KnownHosts Key := ⟨lines.filterMap (parseLine ops)⟩

def parse (content : List Char) : KnownHosts Key := ofLines ops (Text.lines content)

def hashedMatches (hostPort : String) (saltAndHash : List Char) : Bool :=
  match saltAndHash.splitOn '|' with
  | salt :: hash :: _ => match ops.decodeBase64 salt, ops.decodeBase64 hash with
    | some salt, some hash => (ops.verify salt hostPort hash).getD false
    | _, _ => false
  | _ => false

def entryMatches (hostPort : String) (entry : List Char) : Bool :=
  match entry.dropPrefix? "|1|".toList with
  | some hashed => hashedMatches ops hostPort hashed
  | none => entry == hostPort.toList

def patternMatches (hostPort : String) (pattern : List Char) : Bool :=
  (pattern.splitOn ',').any (entryMatches ops hostPort)

/-- A port other than the standard one is part of the name. -/
def hostPort (host : String) (port : UInt16) : String :=
  if port = 22 then host else "[" ++ host ++ "]:" ++ toString port.toNat

def recorded (kh : KnownHosts Key) (host : String) (port : UInt16) : List Key :=
  (kh.entries.filter fun entry => patternMatches ops (hostPort host port) entry.1).map (·.2)

def check [DecidableEq Key] (kh : KnownHosts Key) (host : String) (port : UInt16) (offered : Key) :
    HostKeyCheck :=
  let recorded := kh.recorded ops host port
  if recorded.isEmpty then .unknown
  else if offered ∈ recorded then .known
  else .changed (recorded.map ops.fingerprint)

/-- Whether the handshake goes on. -/
def checkServerKey [DecidableEq Key] (verification : Option (KnownHosts Key)) (host : String)
    (port : UInt16) : ServerKey Key → Bool
  | .publicKey key => match verification with
    | none => true
    | some kh => kh.check ops host port key == .known
  | .certificate => verification.isNone

/-! ## What a line records -/

/-- Comments start with `#`, markers with `@`. -/
def IsPlain (line : List Char) : Prop :=
  (Text.trim line).head? ≠ some '#' ∧ (Text.trim line).head? ≠ some '@'

instance (line : List Char) : Decidable (IsPlain line) := inferInstanceAs (Decidable (_ ∧ _))

/-- An entry of a pattern list names a host as it is or by its hash. -/
inductive Names (hostPort : String) : List Char → Prop
  | plain (hbars : ¬ "|1|".toList <+: hostPort.toList) : Names hostPort hostPort.toList
  | hashed {saltAndHash salt hash : List Char} {rest : List (List Char)} {key sum : List UInt8}
      (hpieces : saltAndHash.splitOn '|' = salt :: hash :: rest)
      (hkey : ops.decodeBase64 salt = some key) (hsum : ops.decodeBase64 hash = some sum)
      (hverify : ops.verify key hostPort sum = some true) :
      Names hostPort ("|1|".toList ++ saltAndHash)

/-- The fields give a key to a pattern list that names the host. -/
def Gives (hostPort : String) (key : Key) (fields : List (List Char)) : Prop :=
  ∃ pattern keytype text rest, fields = pattern :: keytype :: text :: rest ∧
    ops.parsePublicKeyBase64 text = .ok key ∧
      ∃ entry ∈ pattern.splitOn ',', Names ops hostPort entry

/-- The line, no comment and no marker, gives the host the key. -/
def Records (hostPort : String) (key : Key) (line : List Char) : Prop :=
  IsPlain line ∧ Gives ops hostPort key (Text.splitWhitespace (Text.trim line))

/-- The line takes the key away from the host. -/
def Revokes (hostPort : String) (key : Key) (line : List Char) : Prop :=
  ∃ fields, Text.splitWhitespace (Text.trim line) = "@revoked".toList :: fields ∧
    Gives ops hostPort key fields

variable {ops}

theorem hashedMatches_iff {hostPort : String} {saltAndHash : List Char} :
    hashedMatches ops hostPort saltAndHash = true ↔ ∃ salt hash rest key sum,
      saltAndHash.splitOn '|' = salt :: hash :: rest ∧ ops.decodeBase64 salt = some key ∧
        ops.decodeBase64 hash = some sum ∧ ops.verify key hostPort sum = some true := by
  unfold hashedMatches
  split
  · rename_i salt hash rest hpieces
    split
    · rename_i key sum hkey hsum
      constructor
      · intro h
        refine ⟨salt, hash, rest, key, sum, hpieces, hkey, hsum, ?_⟩
        cases hverify : ops.verify key hostPort sum with
        | none => simp [hverify] at h
        | some verified => simpa [hverify] using h
      · intro h
        obtain ⟨salt', hash', rest', key', sum', hpieces', hkey', hsum', hverify⟩ := h
        obtain ⟨rfl, rfl, rfl⟩ : salt = salt' ∧ hash = hash' ∧ rest = rest' := by
          simpa [hpieces] using hpieces'
        obtain rfl := Option.some.inj (hkey.symm.trans hkey')
        obtain rfl := Option.some.inj (hsum.symm.trans hsum')
        rw [hverify]
        rfl
    · rename_i hnone
      refine iff_of_false Bool.false_ne_true ?_
      intro h
      obtain ⟨salt', hash', rest', key, sum, hpieces', hkey, hsum, _⟩ := h
      obtain ⟨rfl, rfl, _⟩ : salt = salt' ∧ hash = hash' ∧ rest = rest' := by
        simpa [hpieces] using hpieces'
      exact hnone key sum hkey hsum
  · rename_i hnone
    refine iff_of_false Bool.false_ne_true ?_
    intro h
    obtain ⟨salt, hash, rest, _, _, hpieces, _⟩ := h
    exact hnone salt hash rest hpieces

theorem entryMatches_iff {hostPort : String} {entry : List Char} :
    entryMatches ops hostPort entry = true ↔ Names ops hostPort entry := by
  unfold entryMatches
  cases hdrop : entry.dropPrefix? "|1|".toList with
  | some saltAndHash =>
    obtain ⟨bars, hentry, hbars⟩ := List.dropPrefix?_eq_some_iff.mp hdrop
    rw [eq_of_beq hbars] at hentry
    subst hentry
    dsimp only
    rw [hashedMatches_iff]
    constructor
    · intro h
      obtain ⟨salt, hash, rest, key, sum, hpieces, hkey, hsum, hverify⟩ := h
      exact .hashed hpieces hkey hsum hverify
    · intro h
      generalize hwhole : "|1|".toList ++ saltAndHash = whole at h
      cases h with
      | plain hbars => exact absurd ⟨saltAndHash, hwhole⟩ hbars
      | hashed hpieces hkey hsum hverify =>
        obtain rfl := List.append_cancel_left hwhole
        exact ⟨_, _, _, _, _, hpieces, hkey, hsum, hverify⟩
  | none =>
    dsimp only
    rw [beq_iff_eq]
    have hbars : ¬ "|1|".toList <+: entry := by
      intro h
      obtain ⟨rest, rfl⟩ := h
      have hsome : ("|1|".toList ++ rest).dropPrefix? "|1|".toList = some rest :=
        List.dropPrefix?_eq_some_iff.mpr ⟨_, rfl, beq_self_eq_true _⟩
      rw [hdrop] at hsome
      cases hsome
    constructor
    · intro h
      obtain rfl := h
      exact .plain hbars
    · intro h
      cases h with
      | plain => rfl
      | hashed => exact absurd (List.prefix_append _ _) hbars

theorem patternMatches_iff {hostPort : String} {pattern : List Char} :
    patternMatches ops hostPort pattern = true ↔
      ∃ entry ∈ pattern.splitOn ',', Names ops hostPort entry := by
  unfold patternMatches
  rw [List.any_eq_true]
  exact exists_congr fun entry => and_congr_right fun _ => entryMatches_iff

theorem parseLine_of_not_isPlain {raw : List Char} (h : ¬ IsPlain raw) :
    parseLine ops raw = none := by
  unfold parseLine
  dsimp only
  split
  · rfl
  · rename_i hcomment
    split
    · rfl
    · rename_i hmarker
      refine absurd ⟨fun hhash => hcomment ?_, fun hat => hmarker ?_⟩ h
      · rw [hhash]
        simp
      · rw [hat]
        simp

theorem parseLine_iff {raw pattern : List Char} {key : Key} :
    parseLine ops raw = some (pattern, key) ↔ IsPlain raw ∧ ∃ keytype text rest,
      Text.splitWhitespace (Text.trim raw) = pattern :: keytype :: text :: rest ∧
        ops.parsePublicKeyBase64 text = .ok key := by
  by_cases hplain : IsPlain raw
  · obtain ⟨hhash, hat⟩ := hplain
    have hparse : parseLine ops raw = match Text.splitWhitespace (Text.trim raw) with
        | pattern :: _ :: text :: _ => match ops.parsePublicKeyBase64 text with
          | .ok parsed => some (pattern, parsed)
          | .error _ => none
        | _ => none := by
      unfold parseLine
      cases hline : Text.trim raw with
      | nil => rfl
      | cons first rest =>
        rw [hline] at hhash hat
        have hfirst : first ≠ '#' ∧ first ≠ '@' :=
          ⟨fun h => hhash (congrArg some h), fun h => hat (congrArg some h)⟩
        simp [hfirst]
    rw [hparse, and_iff_right ⟨hhash, hat⟩]
    constructor
    · intro h
      split at h
      · rename_i keytype text rest hfields
        split at h
        · rename_i hkey
          cases h
          exact ⟨keytype, text, rest, hfields, hkey⟩
        · cases h
      · cases h
    · intro h
      obtain ⟨keytype, text, rest, hfields, hkey⟩ := h
      rw [hfields]
      dsimp only
      rw [hkey]
  · rw [parseLine_of_not_isPlain hplain]
    exact iff_of_false (fun h => nomatch h) fun h => hplain h.1

/-- Lines that are no comment and no marker are all that counts. -/
theorem ofLines_filter (lines : List (List Char)) :
    ofLines ops (lines.filter fun line => decide (IsPlain line)) = ofLines ops lines := by
  unfold ofLines
  rw [List.filterMap_filter]
  have hline : ∀ line, (if decide (IsPlain line) = true then parseLine ops line else none) =
      parseLine ops line := by
    intro line
    by_cases hplain : IsPlain line
    · simp [hplain]
    · simp [hplain, parseLine_of_not_isPlain hplain]
  simp only [hline]

theorem mem_recorded {lines : List (List Char)} {host : String} {port : UInt16} {key : Key} :
    key ∈ (ofLines ops lines).recorded ops host port ↔
      ∃ line ∈ lines, Records ops (hostPort host port) key line := by
  unfold recorded ofLines
  constructor
  · intro h
    obtain ⟨⟨pattern, _⟩, hentry, rfl⟩ := List.mem_map.mp h
    obtain ⟨hentry, hmatches⟩ := List.mem_filter.mp hentry
    obtain ⟨line, hline, hparsed⟩ := List.mem_filterMap.mp hentry
    obtain ⟨hplain, keytype, text, rest, hfields, hkey⟩ := parseLine_iff.mp hparsed
    exact ⟨line, hline, hplain, pattern, keytype, text, rest, hfields, hkey,
      patternMatches_iff.mp hmatches⟩
  · intro h
    obtain ⟨line, hline, hplain, pattern, keytype, text, rest, hfields, hkey, hnames⟩ := h
    have hparsed := parseLine_iff.mpr ⟨hplain, keytype, text, rest, hfields, hkey⟩
    exact List.mem_map.mpr ⟨(pattern, key), List.mem_filter.mpr
      ⟨List.mem_filterMap.mpr ⟨line, hline, hparsed⟩, patternMatches_iff.mpr hnames⟩, rfl⟩

variable [DecidableEq Key]

theorem check_eq_known_iff {kh : KnownHosts Key} {host : String} {port : UInt16} {offered : Key} :
    kh.check ops host port offered = .known ↔ offered ∈ kh.recorded ops host port := by
  unfold check
  dsimp only
  split
  · rename_i hempty
    rw [List.isEmpty_iff.mp hempty]
    simp
  · split
    · rename_i hmem
      exact iff_of_true rfl hmem
    · rename_i hmem
      exact iff_of_false (fun h => nomatch h) hmem

/-- A host that no line names is unknown, whatever its key. -/
theorem check_eq_unknown_iff {kh : KnownHosts Key} {host : String} {port : UInt16}
    {offered : Key} :
    kh.check ops host port offered = .unknown ↔ kh.recorded ops host port = [] := by
  unfold check
  dsimp only
  split
  · rename_i hempty
    exact iff_of_true rfl (List.isEmpty_iff.mp hempty)
  · rename_i hsome
    split <;> exact iff_of_false (fun h => nomatch h) fun h => hsome (List.isEmpty_iff.mpr h)

/-- With known hosts a server gets through with a plain key that a line
records. -/
theorem checkServerKey_iff {content : List Char} {host : String} {port : UInt16}
    {shown : ServerKey Key} :
    checkServerKey ops (some (parse ops content)) host port shown = true ↔
      ∃ key, shown = .publicKey key ∧
        ∃ line ∈ Text.lines content, Records ops (hostPort host port) key line := by
  cases shown with
  | certificate => exact iff_of_false Bool.false_ne_true fun ⟨_, h, _⟩ => nomatch h
  | publicKey key =>
    unfold checkServerKey
    dsimp only
    rw [beq_iff_eq, check_eq_known_iff, parse, mem_recorded]
    constructor
    · intro h
      exact ⟨key, rfl, h⟩
    · intro h
      obtain ⟨other, hother, h⟩ := h
      cases hother
      exact h

/-- **Marker lines take no part in a check**: a key is known exactly when a
line that is no marker records it for the host, so one that a `@revoked` line
takes away is known only through another line. -/
theorem check_marked (ops : KeyOps Key) (content : List Char) (host : String) (port : UInt16)
    (offered : Key) :
    ((parse ops content).check ops host port offered = .known ↔
      ∃ line ∈ Text.lines content, Records ops (hostPort host port) offered line) ∧
    parse ops content =
      ofLines ops ((Text.lines content).filter fun line => decide (IsPlain line)) :=
  ⟨check_eq_known_iff.trans mem_recorded, (ofLines_filter _).symm⟩

end

/-- An ed25519 key of zeros. -/
def zeroKey : List Char := "AAAAC3NzaC1lZDI1NTE5AAAAI".toList ++ List.replicate 43 'A'

/-- Nothing else reads as a key. -/
def oneKey : KeyOps (List Char) where
  parsePublicKeyBase64 text := if text = zeroKey then .ok zeroKey else .error "no key"
  fingerprint key := String.ofList key
  decodeBase64 _ := none
  verify _ _ _ := none

def revokedLine : List Char := "@revoked web01 ssh-ed25519 ".toList ++ zeroKey

def recordedAndRevoked : List Char :=
  revokedLine ++ "\nweb01 ssh-ed25519 ".toList ++ zeroKey ++ ['\n']

/-- A key both recorded and revoked is known. -/
theorem recordedAndRevoked_known : ¬ ∀ (ops : KeyOps (List Char)) (content : List Char)
    (host : String) (port : UInt16) (key : List Char),
    (∃ line ∈ Text.lines content, Revokes ops (hostPort host port) key line) →
      (parse ops content).check ops host port key ≠ .known := by
  intro h
  refine h oneKey recordedAndRevoked "web01" 22 zeroKey ?_ (by decide +kernel)
  refine ⟨revokedLine, by decide +kernel,
    ["web01".toList, "ssh-ed25519".toList, zeroKey], by decide +kernel, ?_⟩
  have hkey : oneKey.parsePublicKeyBase64 zeroKey = .ok zeroKey := by
    simp [oneKey]
  exact ⟨"web01".toList, "ssh-ed25519".toList, zeroKey, [], rfl, hkey,
    "web01".toList, by decide, .plain (by decide)⟩

end KnownHosts

end UnifiedApi

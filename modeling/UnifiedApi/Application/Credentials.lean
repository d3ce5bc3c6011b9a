import UnifiedApi.Lib.Results
import UnifiedApi.Lib.StrMap

/-! # Combining what credentials resolve to

Each field reaches the connector under its credential's id, and under its own
name where no other of the credentials has it. What a field becomes as a
variable, and what a credential is delivered under, the secrets crate decides. -/

namespace UnifiedApi

/-- Text functions of the secrets crate and of the standard library. -/
structure SecretNames where
  variablePart : String → String
  deliveryId : String → String
  toUppercase : String → String

/-- What a resolver finds for an id: its fields, in the order its map lists them. -/
abbrev Resolver := String → Except String (List (String × String))

/-- A failure halts, and names the credential. -/
def resolveEach (resolve : Resolver) :
    List String → Except String (List (String × List (String × String)))
  | [] => .ok []
  | id :: rest =>
    match resolve id with
    | .error message => .error ("credential '" ++ id ++ "': " ++ message)
    | .ok fields => (resolveEach resolve rest).map ((id, fields) :: ·)

/-- What is delivered so far, and where each variable came from. -/
structure Delivered where
  credentials : StrMap String := ∅
  origin : StrMap (String × String) := ∅

/-- Two resolvers that find the same and fail at the same, in whatever words. -/
def Resolver.SameButMessages (resolve other : Resolver) : Prop :=
  ∀ id, (resolve id).toOption = (other id).toOption

theorem resolveEach_sameButMessages {resolve other : Resolver}
    (h : resolve.SameButMessages other) (ids : List String) :
    (resolveEach resolve ids).toOption = (resolveEach other ids).toOption := by
  induction ids with
  | nil => rfl
  | cons id rest ih =>
    unfold resolveEach
    obtain ⟨fields, hfields, hother⟩ | ⟨_, _, hfields, hother⟩ :=
      Results.cases_of_toOption_eq (h id)
    · obtain ⟨found, hrest, hrest'⟩ | ⟨_, _, hrest, hrest'⟩ := Results.cases_of_toOption_eq ih
      · rw [hfields, hother, hrest, hrest']
      · rw [hfields, hother, hrest, hrest']; rfl
    · rw [hfields, hother]; rfl

section
variable (names : SecretNames)

/-- How many of the credentials have a field, as the variable it becomes. -/
def holders (resolved : List (String × List (String × String))) (var : String) : Nat :=
  (resolved.flatMap (·.2)).countP fun field => names.variablePart field.1 == var

/-- Two different values never land on one variable. -/
def deliver (delivered : Delivered) (name value id field : String) : Except String Delivered :=
  let var := names.variablePart name
  let landed : Delivered :=
    ⟨delivered.credentials.insert name value, delivered.origin.insert var (id, field)⟩
  match delivered.origin[var]? with
  | some (other, otherField) =>
    if other != id || otherField != field then
      .error ("credentials '" ++ other ++ "' (field '" ++ otherField ++ "') and '" ++ id ++
        "' (field '" ++ field ++ "') would both reach the connector as CREDENTIAL_" ++
        names.toUppercase var ++ " — rename one of the fields")
    else .ok landed
  | none => .ok landed

/-- A field that is already named after its credential is not prefixed twice. -/
def deliverField (resolved : List (String × List (String × String))) (id : String)
    (delivered : Delivered) (field : String × String) : Except String Delivered :=
  let idPrefix := names.deliveryId id ++ "_"
  let var := names.variablePart field.1
  let unshared := holders names resolved var == 1
  let handMade := unshared && decide (idPrefix.utf8ByteSize < var.utf8ByteSize) &&
    idPrefix.toList.isPrefixOf var.toList
  if handMade then deliver names delivered field.1 field.2 id field.1
  else do
    let delivered ← deliver names delivered (idPrefix ++ field.1) field.2 id field.1
    if unshared then deliver names delivered field.1 field.2 id field.1 else return delivered

/-- A credential listed twice is one credential. -/
def resolveCredentials (resolve : Resolver) (credentialIds : List String) :
    Except String (StrMap String) := do
  let resolved ← resolveEach resolve credentialIds.eraseDups
  let delivered ← resolved.foldlM (fun delivered credential =>
    credential.2.foldlM (deliverField names resolved credential.1) delivered) {}
  return delivered.credentials

theorem resolveCredentials_sameButMessages {resolve other : Resolver}
    (h : resolve.SameButMessages other) (credentialIds : List String) :
    (resolveCredentials names resolve credentialIds).toOption =
      (resolveCredentials names other credentialIds).toOption := by
  unfold resolveCredentials
  obtain ⟨resolved, hfound, hother⟩ | ⟨_, _, hfound, hother⟩ :=
    Results.cases_of_toOption_eq (resolveEach_sameButMessages h credentialIds.eraseDups)
  · rw [hfound, hother]
  · rw [hfound, hother]; rfl

end

end UnifiedApi

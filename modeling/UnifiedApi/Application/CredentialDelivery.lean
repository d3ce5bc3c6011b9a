import Mathlib.Data.List.Nodup
import UnifiedApi.Application.Credentials
import UnifiedApi.Lib.Lists

/-! # Whose each delivered variable is

The names a field is delivered under depend on which of the resolved fields are
the same variable. They are said here of the set of those fields, without the
order in which they are delivered, and the deliveries are shown to be exactly
these or to fail on two fields that would reach one variable. -/

namespace UnifiedApi

/-- A field's credential and its name there. -/
abbrev FieldOwner := String × String

/-- One name under which a field's value is handed over. -/
structure Delivery where
  name : String
  value : String
  owner : FieldOwner

section
variable (names : SecretNames)

def deliverOne (delivered : Delivered) (delivery : Delivery) : Except String Delivered :=
  deliver names delivered delivery.name delivery.value delivery.owner.1 delivery.owner.2

/-- No variable is reached by two fields. -/
def OneOwner (deliveries : List Delivery) : Prop :=
  ∀ d ∈ deliveries, ∀ e ∈ deliveries,
    names.variablePart d.name = names.variablePart e.name → d.owner = e.owner

/-- A field has one value. -/
def OneValue (deliveries : List Delivery) : Prop :=
  ∀ d ∈ deliveries, ∀ e ∈ deliveries, d.owner = e.owner → d.value = e.value

/-- What these deliveries have left behind. -/
structure Delivered.Of (deliveries : List Delivery) (delivered : Delivered) : Prop where
  owner : ∀ (var : String) (owner : FieldOwner),
    delivered.origin[var]? = some owner ↔
      ∃ d ∈ deliveries, names.variablePart d.name = var ∧ d.owner = owner
  value : ∀ (name value : String),
    delivered.credentials[name]? = some value ↔
      ∃ d ∈ deliveries, d.name = name ∧ d.value = value

variable {names}

theorem deliver_iff {delivered landed : Delivered} {name value id field : String} :
    deliver names delivered name value id field = .ok landed ↔
      (∀ owner, delivered.origin[names.variablePart name]? = some owner → owner = (id, field)) ∧
        landed = ⟨delivered.credentials.insert name value,
          delivered.origin.insert (names.variablePart name) (id, field)⟩ := by
  unfold deliver
  dsimp only
  cases hfound : delivered.origin[names.variablePart name]? with
  | none =>
    refine ⟨fun h => ⟨fun owner howner => (by cases howner), (Except.ok.inj h).symm⟩, ?_⟩
    intro h
    obtain ⟨_, rfl⟩ := h
    rfl
  | some found =>
    obtain ⟨other, otherField⟩ := found
    by_cases hsame : other = id ∧ otherField = field
    · obtain ⟨rfl, rfl⟩ := hsame
      simp only [bne_self_eq_false, Bool.or_self, Bool.false_eq_true, if_false, Except.ok.injEq,
        Option.some.injEq, forall_eq', true_and]
      exact eq_comm
    · have hdiffer : (other != id || otherField != field) = true := by
        rw [Bool.or_eq_true, bne_iff_ne, bne_iff_ne]
        exact not_and_or.mp hsame
      simp only [hdiffer, if_true]
      refine ⟨fun h => (by cases h), fun ⟨howner, _⟩ => ?_⟩
      exact absurd (Prod.mk.inj (howner _ rfl)) hsame

theorem Delivered.Of.start : Delivered.Of names [] {} := ⟨by simp, by simp⟩

theorem Delivered.Of.oneOwner {done : List Delivery} {delivered : Delivered}
    (h : delivered.Of names done) : OneOwner names done := by
  intro d hd e he hvar
  have hdOrigin := (h.owner _ _).mpr ⟨d, hd, hvar, rfl⟩
  have heOrigin := (h.owner _ _).mpr ⟨e, he, rfl, rfl⟩
  exact Option.some.inj (hdOrigin.symm.trans heOrigin)

/-- A delivery fails just when its variable is another field's. -/
theorem Delivered.Of.deliverOne_isOk_iff {done : List Delivery} {delivered : Delivered}
    (h : delivered.Of names done) (delivery : Delivery) :
    (∃ landed, deliverOne names delivered delivery = .ok landed) ↔
      ∀ d ∈ done, names.variablePart d.name = names.variablePart delivery.name →
        d.owner = delivery.owner := by
  simp only [deliverOne, deliver_iff, exists_and_left, exists_eq, and_true, h.owner]
  constructor
  · intro howner d hd hvar
    exact howner d.owner ⟨d, hd, hvar, rfl⟩
  · intro howner _ h
    obtain ⟨d, hd, hvar, rfl⟩ := h
    exact howner d hd hvar

theorem Delivered.Of.deliverOne {done : List Delivery} {delivered landed : Delivered}
    (h : delivered.Of names done) {delivery : Delivery} (hvalues : OneValue (done ++ [delivery]))
    (hlanded : deliverOne names delivered delivery = .ok landed) :
    landed.Of names (done ++ [delivery]) := by
  have howner := (h.deliverOne_isOk_iff delivery).mp ⟨landed, hlanded⟩
  obtain ⟨_, rfl⟩ := deliver_iff.mp hlanded
  constructor
  · intro var owner
    rw [StrMap.getElem?_insert]
    by_cases hvar : names.variablePart delivery.name = var
    · subst hvar
      simp only [if_true, Option.some.injEq, List.mem_append, List.mem_singleton]
      constructor
      · intro heq
        exact ⟨delivery, .inr rfl, rfl, heq⟩
      · intro h
        obtain ⟨d, hd | rfl, hsame, rfl⟩ := h
        · exact (howner d hd hsame).symm
        · rfl
    · simp [hvar, h.owner, or_and_right, exists_or]
  · intro name value
    rw [StrMap.getElem?_insert]
    by_cases hname : delivery.name = name
    · subst hname
      simp only [if_true, Option.some.injEq]
      constructor
      · intro heq
        exact ⟨delivery, by simp, rfl, heq⟩
      · intro h
        obtain ⟨d, hd, hsame, rfl⟩ := h
        refine hvalues delivery (by simp) d hd ?_
        rcases List.mem_append.mp hd with hd | hd
        · exact (howner d hd (by rw [hsame])).symm
        · rw [List.mem_singleton.mp hd]
    · simp [hname, h.value, or_and_right, exists_or]

theorem foldlM_deliverOne {deliveries done : List Delivery} {delivered landed : Delivered}
    (h : delivered.Of names done) (hvalues : OneValue (done ++ deliveries))
    (hlanded : deliveries.foldlM (deliverOne names) delivered = .ok landed) :
    landed.Of names (done ++ deliveries) := by
  induction deliveries generalizing done delivered with
  | nil =>
    cases hlanded
    rwa [List.append_nil]
  | cons delivery rest ih =>
    rw [List.foldlM_cons] at hlanded
    obtain ⟨next, hnext, hrest⟩ := Results.ok_of_bind hlanded
    rw [List.append_cons] at hvalues ⊢
    refine ih (h.deliverOne (fun d hd e he => ?_) hnext) hvalues hrest
    exact hvalues d (List.mem_append_left _ hd) e (List.mem_append_left _ he)

theorem foldlM_deliverOne_isOk {deliveries done : List Delivery} {delivered : Delivered}
    (h : delivered.Of names done) (hvalues : OneValue (done ++ deliveries))
    (howners : OneOwner names (done ++ deliveries)) :
    ∃ landed, deliveries.foldlM (deliverOne names) delivered = .ok landed := by
  induction deliveries generalizing done delivered with
  | nil => exact ⟨delivered, rfl⟩
  | cons delivery rest ih =>
    obtain ⟨next, hnext⟩ := (h.deliverOne_isOk_iff delivery).mpr fun d hd hvar =>
      howners d (by simp [hd]) delivery (by simp) hvar
    rw [List.append_cons] at hvalues howners
    obtain ⟨landed, hlanded⟩ := ih
      (h.deliverOne (fun d hd e he =>
        hvalues d (List.mem_append_left _ hd) e (List.mem_append_left _ he)) hnext)
      hvalues howners
    exact ⟨landed, by rw [List.foldlM_cons, hnext]; exact hlanded⟩

/-- **Deliveries in any order.** They all land just when no variable has two
owners, and what is delivered then depends on the set of them alone. -/
theorem deliveries_iff {deliveries : List Delivery} (hvalues : OneValue deliveries) :
    (∃ landed, deliveries.foldlM (deliverOne names) {} = .ok landed) ↔
      OneOwner names deliveries := by
  constructor
  · intro h
    obtain ⟨landed, hlanded⟩ := h
    exact (foldlM_deliverOne .start hvalues hlanded).oneOwner
  · exact foldlM_deliverOne_isOk .start hvalues

end

/-! ## The fields that are resolved -/

namespace Resolver

/-- What a field map lists, it lists once. -/
def IsMap (resolve : Resolver) : Prop :=
  ∀ id fields, resolve id = .ok fields → (fields.map Prod.fst).Nodup

/-- One of the credentials has this field, with this value. -/
def Has (resolve : Resolver) (ids : List String) (owner : FieldOwner) (value : String) : Prop :=
  owner.1 ∈ ids ∧ ∃ fields, resolve owner.1 = .ok fields ∧ (owner.2, value) ∈ fields

variable (names : SecretNames) (resolve : Resolver) (ids : List String) (owner : FieldOwner)

/-- No other field is the same variable. -/
def Unshared : Prop :=
  ∀ other value, resolve.Has ids other value →
    names.variablePart other.2 = names.variablePart owner.2 → other = owner

end Resolver

def idPrefix (names : SecretNames) (id : String) : String := names.deliveryId id ++ "_"

/-- Named after its credential already, with something after the prefix. -/
def CarriesPrefix (names : SecretNames) (owner : FieldOwner) : Prop :=
  ∃ rest, rest ≠ "" ∧ names.variablePart owner.2 = idPrefix names owner.1 ++ rest

/-- The names a field is delivered under: its own if it is unshared, and its
prefixed one unless that would prefix it twice. -/
def Resolver.Under (names : SecretNames) (resolve : Resolver) (ids : List String)
    (owner : FieldOwner) (name : String) : Prop :=
  (name = owner.2 ∧ resolve.Unshared names ids owner) ∨
    (name = idPrefix names owner.1 ++ owner.2 ∧
      ¬(resolve.Unshared names ids owner ∧ CarriesPrefix names owner))

/-! ## What is resolved, in the order it is -/

theorem resolveEach_iff {resolve : Resolver} {ids : List String}
    {resolved : List (String × List (String × String))} :
    resolveEach resolve ids = .ok resolved ↔
      List.Forall₂ (fun id credential => credential.1 = id ∧ resolve id = .ok credential.2)
        ids resolved := by
  induction ids generalizing resolved with
  | nil =>
    rw [List.forall₂_nil_left_iff]
    exact ⟨fun h => (Except.ok.inj h).symm, fun h => by rw [h]; rfl⟩
  | cons id rest ih =>
    rw [List.forall₂_cons_left_iff, resolveEach]
    cases hfields : resolve id with
    | error message =>
      refine ⟨fun h => (by cases h), ?_⟩
      intro h
      obtain ⟨_, _, ⟨_, h⟩, _⟩ := h
      cases h
    | ok fields =>
      constructor
      · intro h
        obtain ⟨found, hfound, rfl⟩ := Results.ok_of_map h
        exact ⟨(id, fields), found, ⟨rfl, rfl⟩, ih.mp hfound, rfl⟩
      · intro h
        obtain ⟨⟨_, _⟩, found, ⟨rfl, h⟩, hfound, rfl⟩ := h
        cases h
        simp only [ih.mpr hfound]
        rfl

/-- Every credential that was asked for, once, with what it resolved to. -/
structure ResolvedFrom (resolve : Resolver) (ids : List String)
    (resolved : List (String × List (String × String))) : Prop where
  once : (resolved.map Prod.fst).Nodup
  mem (id : String) (fields : List (String × String)) :
    (id, fields) ∈ resolved ↔ id ∈ ids ∧ resolve id = .ok fields

theorem resolveEach_ids {resolve : Resolver} {ids : List String}
    {resolved : List (String × List (String × String))}
    (h : resolveEach resolve ids = .ok resolved) : resolved.map Prod.fst = ids := by
  have hall := resolveEach_iff.mp h
  clear h
  induction hall with
  | nil => rfl
  | cons hfirst _ ih => rw [List.map_cons, hfirst.1, ih]

theorem mem_resolveEach {resolve : Resolver} {ids : List String}
    {resolved : List (String × List (String × String))}
    (h : resolveEach resolve ids = .ok resolved) (id : String) (fields : List (String × String)) :
    (id, fields) ∈ resolved ↔ id ∈ ids ∧ resolve id = .ok fields := by
  have hall := resolveEach_iff.mp h
  clear h
  induction hall with
  | nil => simp
  | @cons first credential _ _ hfirst _ ih =>
    simp only [List.mem_cons, or_and_right, ih]
    refine or_congr_left ?_
    obtain ⟨credentialId, credentialFields⟩ := credential
    obtain ⟨rfl, hfields⟩ := hfirst
    constructor
    · intro heq
      cases heq
      exact ⟨rfl, hfields⟩
    · intro h
      obtain ⟨rfl, hother⟩ := h
      rw [hfields] at hother
      cases hother
      rfl

theorem resolveEach_resolved {resolve : Resolver} {ids : List String}
    {resolved : List (String × List (String × String))}
    (h : resolveEach resolve ids.eraseDups = .ok resolved) :
    ResolvedFrom resolve ids resolved where
  once := resolveEach_ids h ▸ Lists.nodup_eraseDups ids
  mem id fields := by rw [mem_resolveEach h, List.mem_eraseDups]

theorem resolveEach_isOk_iff {resolve : Resolver} {ids : List String} :
    (∃ resolved, resolveEach resolve ids = .ok resolved) ↔
      ∀ id ∈ ids, ∃ fields, resolve id = .ok fields := by
  constructor
  · intro h id hid
    obtain ⟨resolved, h⟩ := h
    have hall := resolveEach_iff.mp h
    clear h
    induction hall with
    | nil => cases hid
    | cons hfirst _ ih =>
      rcases List.mem_cons.mp hid with rfl | hid
      · exact ⟨_, hfirst.2⟩
      · exact ih hid
  · intro h
    induction ids with
    | nil => exact ⟨[], rfl⟩
    | cons id rest ih =>
      obtain ⟨fields, hfields⟩ := h id (List.mem_cons_self ..)
      obtain ⟨found, hfound⟩ := ih fun other hother => h other (List.mem_cons_of_mem _ hother)
      exact ⟨(id, fields) :: found, by rw [resolveEach, hfields, hfound]; rfl⟩

/-! ## The deliveries that are made -/

section
variable (names : SecretNames)

/-- As it is tested: longer, and with the prefix in front. -/
def carriesPrefix (id field : String) : Bool :=
  decide ((idPrefix names id).utf8ByteSize < (names.variablePart field).utf8ByteSize) &&
    (idPrefix names id).toList.isPrefixOf (names.variablePart field).toList

/-- The deliveries of one field, in turn. -/
def fieldDeliveries (resolved : List (String × List (String × String))) (id : String)
    (field : String × String) : List Delivery :=
  let unshared := holders names resolved (names.variablePart field.1) == 1
  let own : Delivery := ⟨field.1, field.2, (id, field.1)⟩
  let prefixed : Delivery := ⟨idPrefix names id ++ field.1, field.2, (id, field.1)⟩
  if unshared && carriesPrefix names id field.1 then [own]
  else if unshared then [prefixed, own]
  else [prefixed]

def credentialDeliveries (resolved : List (String × List (String × String))) : List Delivery :=
  resolved.flatMap fun credential =>
    credential.2.flatMap (fieldDeliveries names resolved credential.1)

theorem deliverField_eq (resolved : List (String × List (String × String))) (id : String)
    (delivered : Delivered) (field : String × String) :
    deliverField names resolved id delivered field =
      (fieldDeliveries names resolved id field).foldlM (deliverOne names) delivered := by
  unfold deliverField fieldDeliveries
  dsimp only
  rw [Bool.and_assoc]
  change (if (_ && carriesPrefix names id field.1) = true then _ else _) = _
  cases carriesPrefix names id field.1 <;>
    cases holders names resolved (names.variablePart field.1) == 1 <;>
    simp [deliverOne, idPrefix]

theorem resolveCredentials_eq (resolve : Resolver) (ids : List String) :
    resolveCredentials names resolve ids =
      (resolveEach resolve ids.eraseDups).bind fun resolved =>
        ((credentialDeliveries names resolved).foldlM (deliverOne names) {}).map
          (·.credentials) := by
  unfold resolveCredentials
  cases resolveEach resolve ids.eraseDups with
  | error _ => rfl
  | ok resolved =>
    simp only [credentialDeliveries, Lists.foldlM_flatMap, ← deliverField_eq]
    cases resolved.foldlM (fun delivered credential =>
      credential.2.foldlM (deliverField names resolved credential.1) delivered) {} <;> rfl

end

/-! ## They are the deliveries meant -/

/-- The fields of every credential. -/
def fieldOwners (resolved : List (String × List (String × String))) : List FieldOwner :=
  resolved.flatMap fun credential => credential.2.map fun field => (credential.1, field.1)

section
variable {names : SecretNames} {resolve : Resolver} {ids : List String}
  {resolved : List (String × List (String × String))}

theorem holders_eq (var : String) :
    holders names resolved var =
      (fieldOwners resolved).countP fun owner => names.variablePart owner.2 == var := by
  simp only [holders, fieldOwners, List.countP_flatMap]
  congr 2
  funext credential
  rw [Function.comp_apply, Function.comp_apply, List.countP_map]
  rfl

namespace ResolvedFrom

theorem has_iff (h : ResolvedFrom resolve ids resolved) {owner : FieldOwner} {value : String} :
    resolve.Has ids owner value ↔
      ∃ fields, (owner.1, fields) ∈ resolved ∧ (owner.2, value) ∈ fields := by
  simp only [Resolver.Has, h.mem, and_assoc, exists_and_left]

theorem mem_fieldOwners (h : ResolvedFrom resolve ids resolved) {owner : FieldOwner} :
    owner ∈ fieldOwners resolved ↔ ∃ value, resolve.Has ids owner value := by
  simp only [h.has_iff, fieldOwners, List.mem_flatMap, List.mem_map]
  constructor
  · intro h
    obtain ⟨⟨id, fields⟩, hcredential, ⟨name, value⟩, hfield, rfl⟩ := h
    exact ⟨value, fields, hcredential, hfield⟩
  · intro h
    obtain ⟨value, fields, hcredential, hfield⟩ := h
    exact ⟨(owner.1, fields), hcredential, (owner.2, value), hfield, rfl⟩

theorem nodup_fieldOwners (h : ResolvedFrom resolve ids resolved) (hmaps : resolve.IsMap) :
    (fieldOwners resolved).Nodup := by
  rw [fieldOwners, List.nodup_flatMap]
  constructor
  · intro h hcredential
    obtain ⟨id, fields⟩ := h
    have hkeys := hmaps id fields ((h.mem id fields).mp hcredential).2
    rw [show (fun field : String × String => (id, field.1)) = Prod.mk id ∘ Prod.fst from rfl,
      ← List.map_map]
    exact hkeys.map (Prod.mk_right_injective id)
  · refine (List.pairwise_map.mp h.once).imp ?_
    intro a b hne owner ha hb
    obtain ⟨_, _, rfl⟩ := List.mem_map.mp ha
    obtain ⟨_, _, hsame⟩ := List.mem_map.mp hb
    exact hne (Prod.mk.inj hsame).1.symm

theorem unshared_iff (h : ResolvedFrom resolve ids resolved) (hmaps : resolve.IsMap)
    {owner : FieldOwner} {value : String} (howner : resolve.Has ids owner value) :
    holders names resolved (names.variablePart owner.2) = 1 ↔
      resolve.Unshared names ids owner := by
  have hmem := h.mem_fieldOwners.mpr ⟨value, howner⟩
  rw [holders_eq, Lists.countP_eq_one_iff (h.nodup_fieldOwners hmaps) hmem
    (p := fun other => names.variablePart other.2 == names.variablePart owner.2)
    (beq_self_eq_true _)]
  simp only [h.mem_fieldOwners, beq_iff_eq, Resolver.Unshared]
  constructor
  · intro hall other otherValue hother hsame
    exact hall other ⟨otherValue, hother⟩ hsame
  · intro hall other h hsame
    obtain ⟨otherValue, hother⟩ := h
    exact hall other otherValue hother hsame

end ResolvedFrom

theorem carriesPrefix_iff (names : SecretNames) (id field : String) :
    carriesPrefix names id field = true ↔ CarriesPrefix names (id, field) := by
  rw [carriesPrefix, Bool.and_eq_true, decide_eq_true_eq, List.isPrefixOf_iff_prefix]
  constructor
  · intro h
    obtain ⟨hlonger, rest, hrest⟩ := h
    have hvar : names.variablePart field = idPrefix names id ++ String.ofList rest := by
      rw [← String.toList_inj, String.toList_append, String.toList_ofList, hrest]
    refine ⟨String.ofList rest, ?_, hvar⟩
    intro hempty
    rw [hvar, hempty, String.append_empty] at hlonger
    omega
  · intro h
    obtain ⟨rest, hrest, hvar⟩ := h
    have hpos : rest.utf8ByteSize ≠ 0 :=
      fun hzero => hrest (String.utf8ByteSize_eq_zero_iff.mp hzero)
    dsimp only at hvar
    rw [hvar, String.utf8ByteSize_append, String.toList_append]
    exact ⟨by omega, List.prefix_append _ _⟩

theorem mem_fieldDeliveries (h : ResolvedFrom resolve ids resolved) (hmaps : resolve.IsMap)
    {id : String} {field : String × String} (hfield : resolve.Has ids (id, field.1) field.2)
    {d : Delivery} :
    d ∈ fieldDeliveries names resolved id field ↔
      d.owner = (id, field.1) ∧ d.value = field.2 ∧
        resolve.Under names ids (id, field.1) d.name := by
  have hunshared : (holders names resolved (names.variablePart field.1) == 1) = true ↔
      resolve.Unshared names ids (id, field.1) := by
    rw [beq_iff_eq]
    exact h.unshared_iff hmaps hfield
  unfold fieldDeliveries Resolver.Under
  dsimp only
  rw [← hunshared, ← carriesPrefix_iff]
  obtain ⟨name, value, owner⟩ := d
  -- the deliveries list a name, a value and an owner in another order than the claim of them
  cases carriesPrefix names id field.1 <;>
    cases holders names resolved (names.variablePart field.1) == 1 <;>
    simp <;> tauto

/-- What is delivered, whatever the order: every field, under its names. -/
theorem mem_credentialDeliveries (h : ResolvedFrom resolve ids resolved) (hmaps : resolve.IsMap)
    {d : Delivery} :
    d ∈ credentialDeliveries names resolved ↔
      resolve.Has ids d.owner d.value ∧ resolve.Under names ids d.owner d.name := by
  simp only [credentialDeliveries, List.mem_flatMap]
  constructor
  · intro h
    obtain ⟨⟨id, fields⟩, hcredential, field, hfield, hd⟩ := h
    have hhas : resolve.Has ids (id, field.1) field.2 := h.has_iff.mpr ⟨fields, hcredential, hfield⟩
    obtain ⟨howner, hvalue, hunder⟩ := (mem_fieldDeliveries h hmaps hhas).mp hd
    rw [howner, hvalue]
    exact ⟨hhas, hunder⟩
  · intro h
    obtain ⟨hhas, hunder⟩ := h
    obtain ⟨fields, hcredential, hfield⟩ := h.has_iff.mp hhas
    refine ⟨(d.owner.1, fields), hcredential, (d.owner.2, d.value), hfield, ?_⟩
    exact (mem_fieldDeliveries h hmaps hhas).mpr ⟨rfl, rfl, hunder⟩

theorem Resolver.Has.unique (hmaps : resolve.IsMap) {owner : FieldOwner} {value other : String}
    (h : resolve.Has ids owner value) (hother : resolve.Has ids owner other) : value = other := by
  obtain ⟨_, fields, hfields, hvalue⟩ := h
  obtain ⟨_, fields', hfields', hvalue'⟩ := hother
  rw [hfields] at hfields'
  cases hfields'
  have hlookup := (StrMap.lookup_eq_some_iff_mem (hmaps _ _ hfields)).mpr hvalue
  have hlookup' := (StrMap.lookup_eq_some_iff_mem (hmaps _ _ hfields)).mpr hvalue'
  exact Option.some.inj (hlookup.symm.trans hlookup')

theorem oneValue_credentialDeliveries (h : ResolvedFrom resolve ids resolved)
    (hmaps : resolve.IsMap) : OneValue (credentialDeliveries names resolved) := by
  intro d hd e he howner
  have hhas := ((mem_credentialDeliveries h hmaps).mp hd).1
  have hhas' := ((mem_credentialDeliveries h hmaps).mp he).1
  rw [← howner] at hhas'
  exact hhas.unique hmaps hhas'

end

/-! ## The result -/

/-- No variable would be reached by two fields. -/
def Resolver.NoClash (names : SecretNames) (resolve : Resolver) (ids : List String) : Prop :=
  ∀ owner value name other otherValue otherName,
    resolve.Has ids owner value → resolve.Under names ids owner name →
      resolve.Has ids other otherValue → resolve.Under names ids other otherName →
        names.variablePart name = names.variablePart otherName → owner = other

section
variable {names : SecretNames} {resolve : Resolver} {ids : List String}

theorem ResolvedFrom.oneOwner_iff {resolved : List (String × List (String × String))}
    (h : ResolvedFrom resolve ids resolved) (hmaps : resolve.IsMap) :
    OneOwner names (credentialDeliveries names resolved) ↔ resolve.NoClash names ids := by
  simp only [OneOwner, mem_credentialDeliveries h hmaps]
  constructor
  · intro hone owner value name other otherValue otherName hhas hunder hhas' hunder' hvar
    exact hone ⟨name, value, owner⟩ ⟨hhas, hunder⟩ ⟨otherName, otherValue, other⟩
      ⟨hhas', hunder'⟩ hvar
  · intro hclash d h e h' hvar
    obtain ⟨hhas, hunder⟩ := h
    obtain ⟨hhas', hunder'⟩ := h'
    exact hclash _ _ _ _ _ _ hhas hunder hhas' hunder' hvar

/-- It fails just when a credential cannot be resolved or two fields would reach
one variable, and what is delivered is each field under its names. -/
theorem resolveCredentials_ok_iff (hmaps : resolve.IsMap) :
    (∃ credentials, resolveCredentials names resolve ids = .ok credentials) ↔
      (∀ id ∈ ids, ∃ fields, resolve id = .ok fields) ∧ resolve.NoClash names ids := by
  rw [resolveCredentials_eq]
  have hids : (∀ id ∈ ids, ∃ fields, resolve id = .ok fields) ↔
      ∃ resolved, resolveEach resolve ids.eraseDups = .ok resolved := by
    simp only [resolveEach_isOk_iff, List.mem_eraseDups]
  rw [hids]
  cases hresolved : resolveEach resolve ids.eraseDups with
  | error _ =>
    refine ⟨?_, ?_⟩
    · intro h
      obtain ⟨_, h⟩ := h
      cases h
    · intro h
      obtain ⟨⟨_, h⟩, _⟩ := h
      cases h
  | ok resolved =>
    have hfrom := resolveEach_resolved hresolved
    rw [← hfrom.oneOwner_iff hmaps, ← deliveries_iff (oneValue_credentialDeliveries hfrom hmaps)]
    constructor
    · intro h
      obtain ⟨credentials, h⟩ := h
      obtain ⟨landed, hlanded, _⟩ := Results.ok_of_map h
      exact ⟨⟨resolved, rfl⟩, landed, hlanded⟩
    · intro h
      obtain ⟨_, landed, hlanded⟩ := h
      exact ⟨landed.credentials, by rw [Except.bind, hlanded]; rfl⟩

theorem resolveCredentials_getElem? (hmaps : resolve.IsMap) {credentials : StrMap String}
    (h : resolveCredentials names resolve ids = .ok credentials) (name value : String) :
    credentials[name]? = some value ↔
      ∃ owner, resolve.Has ids owner value ∧ resolve.Under names ids owner name := by
  rw [resolveCredentials_eq] at h
  obtain ⟨resolved, hresolved, h⟩ := Results.ok_of_bind h
  obtain ⟨landed, hlanded, rfl⟩ := Results.ok_of_map h
  have hfrom := resolveEach_resolved hresolved
  have hof : landed.Of names (credentialDeliveries names resolved) :=
    foldlM_deliverOne Delivered.Of.start (oneValue_credentialDeliveries hfrom hmaps) hlanded
  rw [hof.value]
  simp only [mem_credentialDeliveries hfrom hmaps]
  constructor
  · intro h
    obtain ⟨d, ⟨hhas, hunder⟩, rfl, rfl⟩ := h
    exact ⟨d.owner, hhas, hunder⟩
  · intro h
    obtain ⟨owner, hhas, hunder⟩ := h
    exact ⟨⟨name, value, owner⟩, ⟨hhas, hunder⟩, rfl, rfl⟩

/-! ## Orders and repetitions -/

/-- The same fields, in whatever order a map lists them, or an error. -/
def Resolver.SameMaps (resolve other : Resolver) : Prop :=
  ∀ id, Option.Rel List.Perm (resolve id).toOption (other id).toOption

theorem Resolver.SameMaps.ok {other : Resolver} (h : resolve.SameMaps other) {id : String}
    {fields : List (String × String)} (hfields : resolve id = .ok fields) :
    ∃ fields', other id = .ok fields' ∧ fields.Perm fields' := by
  have hid := h id
  rw [hfields] at hid
  cases hother : other id with
  | error _ =>
    rw [hother] at hid
    cases hid
  | ok fields' =>
    rw [hother] at hid
    cases hid with
    | some hperm => exact ⟨fields', rfl, hperm⟩

theorem Resolver.SameMaps.symm {other : Resolver} (h : resolve.SameMaps other) :
    other.SameMaps resolve := by
  intro id
  have hid := h id
  cases hresolve : (resolve id).toOption <;> cases hother : (other id).toOption <;>
    rw [hresolve, hother] at hid
  · exact .none
  · cases hid
  · cases hid
  · cases hid with
    | some hperm => exact .some hperm.symm

theorem Resolver.SameMaps.isMap {other : Resolver} (h : resolve.SameMaps other)
    (hmaps : resolve.IsMap) : other.IsMap := by
  intro id fields hfields
  obtain ⟨fields', hfields', hperm⟩ := h.symm.ok hfields
  exact (hperm.map _).nodup_iff.mpr (hmaps id fields' hfields')

theorem Resolver.SameMaps.has {other : Resolver} (h : resolve.SameMaps other) {ids' : List String}
    (hids : ∀ id ∈ ids, id ∈ ids') {owner : FieldOwner} {value : String}
    (hhas : resolve.Has ids owner value) : other.Has ids' owner value := by
  obtain ⟨hid, fields, hfields, hmem⟩ := hhas
  obtain ⟨fields', hfields', hperm⟩ := h.ok hfields
  exact ⟨hids _ hid, fields', hfields', hperm.mem_iff.mp hmem⟩

theorem Resolver.SameMaps.resolves {other : Resolver} (h : resolve.SameMaps other)
    {ids' : List String} (hids : ∀ id ∈ ids', id ∈ ids)
    (hok : ∀ id ∈ ids, ∃ fields, resolve id = .ok fields) :
    ∀ id ∈ ids', ∃ fields, other id = .ok fields := by
  intro id hid
  obtain ⟨fields, hfields⟩ := hok id (hids id hid)
  obtain ⟨fields', hfields', _⟩ := h.ok hfields
  exact ⟨fields', hfields'⟩

/-- What is delivered, or that it fails, is the same for the same fields. -/
theorem resolveCredentials_sameMaps {other : Resolver} (h : resolve.SameMaps other)
    (hmaps : resolve.IsMap) {ids' : List String} (hids : ∀ id, id ∈ ids ↔ id ∈ ids') :
    (resolveCredentials names resolve ids).toOption =
      (resolveCredentials names other ids').toOption := by
  have hhas : resolve.Has ids = other.Has ids' := by
    funext owner value
    exact propext ⟨h.has fun id => (hids id).mp, h.symm.has fun id => (hids id).mpr⟩
  have hunder : resolve.Under names ids = other.Under names ids' := by
    funext owner name
    simp only [Resolver.Under, Resolver.Unshared, hhas]
  have hok : (∃ credentials, resolveCredentials names resolve ids = .ok credentials) ↔
      ∃ credentials, resolveCredentials names other ids' = .ok credentials := by
    rw [resolveCredentials_ok_iff hmaps, resolveCredentials_ok_iff (h.isMap hmaps)]
    refine and_congr ⟨h.resolves fun id => (hids id).mpr, h.symm.resolves fun id => (hids id).mp⟩ ?_
    simp only [Resolver.NoClash, hhas, hunder]
  cases hresult : resolveCredentials names resolve ids with
  | error _ =>
    cases hresult' : resolveCredentials names other ids' with
    | error _ => rfl
    | ok credentials =>
      obtain ⟨_, hcontra⟩ := hok.mpr ⟨credentials, hresult'⟩
      rw [hresult] at hcontra
      cases hcontra
  | ok credentials =>
    obtain ⟨credentials', hresult'⟩ := hok.mp ⟨credentials, hresult⟩
    rw [hresult']
    refine congrArg some (Std.ExtTreeMap.ext_getElem? fun name => ?_)
    apply Option.ext
    intro value
    rw [resolveCredentials_getElem? hmaps hresult,
      resolveCredentials_getElem? (h.isMap hmaps) hresult', hhas, hunder]

end

/-- **Every variable has one owner.** What is delivered is each field under its
names, and each variable among them is one field's; delivering fails just when a
credential cannot be resolved or a variable would have two owners; and nothing
but the words of an error depends on an order or on a credential listed twice. -/
theorem resolveCredentials_delivers (names : SecretNames) {resolve : Resolver}
    (hmaps : resolve.IsMap) (ids : List String) :
    (∀ credentials, resolveCredentials names resolve ids = .ok credentials →
      (∀ name value : String, credentials[name]? = some value ↔
        ∃ owner, resolve.Has ids owner value ∧ resolve.Under names ids owner name) ∧
      ∀ name ∈ credentials, ∃! owner, ∃ other value,
        names.variablePart other = names.variablePart name ∧
          resolve.Has ids owner value ∧ resolve.Under names ids owner other) ∧
    ((∃ credentials, resolveCredentials names resolve ids = .ok credentials) ↔
      (∀ id ∈ ids, ∃ fields, resolve id = .ok fields) ∧ resolve.NoClash names ids) ∧
    ∀ (other : Resolver) (ids' : List String), resolve.SameMaps other →
      (∀ id, id ∈ ids ↔ id ∈ ids') →
      (resolveCredentials names resolve ids).toOption =
        (resolveCredentials names other ids').toOption := by
  refine ⟨fun credentials h => ?_, resolveCredentials_ok_iff hmaps,
    fun other ids' hsame hids => resolveCredentials_sameMaps hsame hmaps hids⟩
  have hdelivered := resolveCredentials_getElem? hmaps h
  have hclash := ((resolveCredentials_ok_iff hmaps).mp ⟨credentials, h⟩).2
  refine ⟨hdelivered, fun name hname => ?_⟩
  obtain ⟨value, hvalue⟩ := (StrMap.mem_iff_exists _ _).mp hname
  obtain ⟨owner, hhas, hunder⟩ := (hdelivered name value).mp hvalue
  refine ⟨owner, ⟨name, value, rfl, hhas, hunder⟩, ?_⟩
  intro owner' h
  obtain ⟨name', value', hvar, hhas', hunder'⟩ := h
  exact hclash _ _ _ _ _ _ hhas' hunder' hhas hunder hvar

/-! ## A shared field that carries a prefix -/

/-- What the documentation says of the names: lower case, anything else than a
letter or a digit as `_`, and an id without a leading `cred-` or `cred_`. -/
def documentedNames : SecretNames :=
  let variablePart (text : List Char) : String :=
    String.ofList (text.map fun c => if c.isAlphanum then c.toLower else '_')
  { variablePart := fun name => variablePart name.toList
    deliveryId := fun id =>
      variablePart (if ["cred-".toList, "cred_".toList].any (·.isPrefixOf id.toList)
        then id.toList.drop 5 else id.toList)
    toUppercase := fun text => String.ofList (text.toList.map Char.toUpper) }

/-- Two logins with a key each. -/
def loginFields : Resolver := fun id =>
  if id = "cred-ssh" then .ok [("ssh_key_path", "/run/ssh"), ("username", "motoko")]
  else if id = "cred-git" then .ok [("ssh_key_path", "/run/git")]
  else .error "not configured"

theorem loginFields_isMap : loginFields.IsMap := by
  intro id fields h
  unfold loginFields at h
  split at h
  · cases h
    decide
  · split at h
    · cases h
      decide
    · cases h

theorem resolveCredentials_delivers_login :
    (∀ id fields, loginFields id = .ok fields → (fields.map Prod.fst).Nodup) ∧
      ((∃ credentials,
          resolveCredentials documentedNames loginFields ["cred-ssh", "cred-git"] =
            .ok credentials) ↔
        (∀ id ∈ ["cred-ssh", "cred-git"], ∃ fields, loginFields id = .ok fields) ∧
          loginFields.NoClash documentedNames ["cred-ssh", "cred-git"]) :=
  ⟨loginFields_isMap,
    (resolveCredentials_delivers documentedNames loginFields_isMap ["cred-ssh", "cred-git"]).2.1⟩

/-- The key of `cred-ssh` is named after it already, but is prefixed again. -/
theorem shared_field_prefixed_twice :
    ¬∀ credentials,
      resolveCredentials documentedNames loginFields ["cred-ssh", "cred-git"] =
          .ok credentials →
        ∀ owner value, loginFields.Has ["cred-ssh", "cred-git"] owner value →
          CarriesPrefix documentedNames owner → credentials[owner.2]? = some value := by
  intro h
  obtain ⟨credentials, hok⟩ := Results.ok_of_isSome
    (show (resolveCredentials documentedNames loginFields
      ["cred-ssh", "cred-git"]).toOption.isSome = true by decide +kernel)
  have hnone : ((resolveCredentials documentedNames loginFields
      ["cred-ssh", "cred-git"]).toOption.bind (·["ssh_key_path"]?)) = none := by
    decide +kernel
  rw [hok] at hnone
  have hown : credentials["ssh_key_path"]? = some "/run/ssh" :=
    h credentials hok ("cred-ssh", "ssh_key_path") "/run/ssh"
      ⟨by decide, _, rfl, by decide⟩ ⟨"key_path", by decide, by decide⟩
  rw [show credentials["ssh_key_path"]? = none from hnone] at hown
  cases hown

end UnifiedApi

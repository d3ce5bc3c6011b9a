import Mathlib.Data.Finset.Basic
import Mathlib.Data.Finset.Dedup
import Mathlib.Data.Finset.Lattice.Basic
import UnifiedApi.Domain.ApiKey

/-! # LDAP login: who is granted what

The directory says who someone is; the access rules of the configuration decide
what the person may touch. -/

namespace UnifiedApi

structure AccessRule where
  name : String
  groups : List String := []
  users : List String := []
  role : ApiKeyRole := .restricted
  sources : List String := []
  endpoints : List String := []
  deriving DecidableEq

structure LdapConfig where
  url : String
  starttls : Bool := false
  caFile : Option String := none
  bindCredential : String
  searchBase : String
  userFilter : String
  groupAttribute : String
  usernameAttribute : String
  timeoutSeconds : Nat
  access : List AccessRule
  deriving DecidableEq

/-- What the rules grant one person. -/
inductive Grant where
  | admin
  | scoped (sources endpoints : Finset String)
  deriving DecidableEq

section
variable (ruleNames : List String → List String → String → List String → Bool)

/-- Whether the rule names the person, by account or by group. -/
def AccessRule.names (rule : AccessRule) (username : String) (memberOf : List String) : Bool :=
  ruleNames rule.users rule.groups username memberOf

/-- The loop over the rules; `matched` is what the rules before granted. -/
def grantFrom (username : String) (memberOf : List String) :
    Option (Finset String × Finset String) → List AccessRule → Option Grant
  | matched, [] => matched.map fun scope => .scoped scope.1 scope.2
  | matched, rule :: rest =>
    if !rule.names ruleNames username memberOf then grantFrom username memberOf matched rest
    else if rule.role = .admin then some .admin
    else
      let scope := matched.getD (∅, ∅)
      grantFrom username memberOf
        (some (scope.1 ∪ rule.sources.toFinset, scope.2 ∪ rule.endpoints.toFinset)) rest

/-- The rules applied to one authenticated person. Nothing is granted where no
rule names them. -/
def grantFor (rules : List AccessRule) (username : String) (memberOf : List String) :
    Option Grant :=
  grantFrom ruleNames username memberOf none rules

variable {ruleNames} {username : String} {memberOf : List String}

theorem grantFrom_eq_none {matched : Option (Finset String × Finset String)}
    {rules : List AccessRule} : grantFrom ruleNames username memberOf matched rules = none ↔
      matched = none ∧ ∀ rule ∈ rules, rule.names ruleNames username memberOf = false := by
  induction rules generalizing matched with
  | nil => simp [grantFrom]
  | cons rule rest ih =>
    rw [grantFrom, List.forall_mem_cons]
    cases hnames : rule.names ruleNames username memberOf with
    | false => simp [ih]
    | true =>
      by_cases hadmin : rule.role = .admin
      · simp [hadmin]
      · simp [hadmin, ih]

/-- Nobody is granted anything but by a rule that names them. -/
theorem grantFor_eq_none {rules : List AccessRule} :
    grantFor ruleNames rules username memberOf = none ↔
      ∀ rule ∈ rules, rule.names ruleNames username memberOf = false := by
  rw [grantFor, grantFrom_eq_none]
  exact and_iff_right rfl

theorem grantFrom_eq_admin {matched : Option (Finset String × Finset String)}
    {rules : List AccessRule} : grantFrom ruleNames username memberOf matched rules = some .admin ↔
      ∃ rule ∈ rules, rule.names ruleNames username memberOf = true ∧ rule.role = .admin := by
  induction rules generalizing matched with
  | nil => simp [grantFrom]
  | cons rule rest ih =>
    rw [grantFrom, List.exists_mem_cons_iff]
    cases hnames : rule.names ruleNames username memberOf with
    | false => simp [ih]
    | true =>
      by_cases hadmin : rule.role = .admin
      · simp [hadmin]
      · simp [hadmin, ih]

/-- An admin rule wins wherever it stands in the list. -/
theorem grantFor_eq_admin {rules : List AccessRule} :
    grantFor ruleNames rules username memberOf = some .admin ↔
      ∃ rule ∈ rules, rule.names ruleNames username memberOf = true ∧ rule.role = .admin :=
  grantFrom_eq_admin

end

end UnifiedApi

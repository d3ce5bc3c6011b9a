import UnifiedApi.Application.CredentialDelivery
import UnifiedApi.Application.RunSync

/-! # What a script finds in its environment

The process adapters clear the environment of the service and rebuild it: what
scripts need of the host, the source's configuration, and the credentials that
were granted to it. -/

namespace UnifiedApi

abbrev Environment := StrMap String

/-- Everything a script keeps of the service's own environment. -/
def envPassthrough : List String :=
  ["PATH", "HOME", "TMPDIR", "LANG", "LC_ALL", "TZ", "PYTHONPATH", "HTTP_PROXY", "http_proxy",
    "HTTPS_PROXY", "https_proxy", "NO_PROXY", "no_proxy", "ALL_PROXY", "all_proxy",
    "SSL_CERT_FILE", "SSL_CERT_DIR", "REQUESTS_CA_BUNDLE", "CURL_CA_BUNDLE"]

def scrubbedCommand (service : Environment) : Environment :=
  envPassthrough.foldl (fun env var => match service[var]? with
    | some value => env.insert var value
    | none => env) ∅

/-- Separators and `.` at the end of a path, which is reversed, name nothing. -/
def trimEnd : List Char → List Char
  | '/' :: rest => if rest.isEmpty then ['/'] else trimEnd rest
  | '.' :: '/' :: rest => trimEnd ('/' :: rest)
  | path => path

/-- A path without its last component. -/
def pathParent (path : String) : Option String :=
  match trimEnd path.toList.reverse with
  | [] => none
  | ['/'] => none
  | body => some (String.ofList (trimEnd (body.dropWhile (· != '/'))).reverse)

def applyVenv (service : Environment) (venvBin : String) (env : Environment) : Environment :=
  let env := env.insert "PATH" (venvBin ++ ":" ++ service["PATH"]?.getD "")
  match pathParent venvBin with
  | some root => env.insert "VIRTUAL_ENV" root
  | none => env

/-- The environment that all three process adapters start from. -/
def scriptEnv (service : Environment) (config : StrMap String) : Environment :=
  match config["python_venv_bin"]? with
  | some venvBin => applyVenv service venvBin (scrubbedCommand service)
  | none => scrubbedCommand service

section
variable (names : SecretNames)
  -- a map of texts is written as JSON in the order it is gone through in
  (configJson : List (String × String) → String)

def credentialVariable (key : String) : String := "CREDENTIAL_" ++ names.toUppercase key

def inject (env : Environment) (credential : String × String) : Environment :=
  env.insert (credentialVariable names credential.1) credential.2

/-- The environment of a connector's script; its configuration, in `fields`, and
its credentials come in any order. -/
def connectorEnv (service : Environment) (config : StrMap String)
    (fields credentials : List (String × String)) : Environment :=
  credentials.foldl (inject names) ((scriptEnv service config).insert "SOURCE_CONFIG"
    (configJson fields))

def enricherEnv (service : Environment) (config : StrMap String)
    (fields : List (String × String)) : Environment :=
  (scriptEnv service config).insert "SOURCE_CONFIG" (configJson fields)

def outputEnv (service : Environment) (config : StrMap String) (fields : List (String × String))
    (paramsJson : String) : Environment :=
  ((scriptEnv service config).insert "ENDPOINT_CONFIG" (configJson fields)).insert
    "ENDPOINT_PARAMS" paramsJson

end

/-! ## What is in it -/

theorem scrubbedCommand_getElem? (service : Environment) (var : String) :
    (scrubbedCommand service)[var]? = if var ∈ envPassthrough then service[var]? else none := by
  have hfold : ∀ (vars : List String) (env : Environment),
      (vars.foldl (fun env var => match service[var]? with
        | some value => env.insert var value
        | none => env) env)[var]? =
      if var ∈ vars then service[var]?.or env[var]? else env[var]? := by
    intro vars
    induction vars with
    | nil => simp
    | cons first rest ih =>
      intro env
      rw [List.foldl_cons, ih]
      by_cases hfirst : first = var
      · subst hfirst
        cases hvalue : service[first]? with
        | none => simp
        | some value => simp
      · cases hvalue : service[first]? <;>
          simp [StrMap.getElem?_insert, hfirst, Ne.symm hfirst]
  rw [scrubbedCommand, hfold]
  simp

/-- A variable of a script that no credential stands in. -/
def ownVariable (service : Environment) (config : StrMap String) (var : String) : Option String :=
  if var = "VIRTUAL_ENV" then config["python_venv_bin"]?.bind pathParent
  else if var = "PATH" then match config["python_venv_bin"]? with
    | some venvBin => some (venvBin ++ ":" ++ service["PATH"]?.getD "")
    | none => service["PATH"]?
  else if var ∈ envPassthrough then service[var]? else none

theorem applyVenv_getElem? (service : Environment) (venvBin : String) (env : Environment)
    (var : String) (hfresh : env["VIRTUAL_ENV"]? = none) :
    (applyVenv service venvBin env)[var]? =
      if var = "VIRTUAL_ENV" then pathParent venvBin
      else if var = "PATH" then some (venvBin ++ ":" ++ service["PATH"]?.getD "")
      else env[var]? := by
  unfold applyVenv
  simp only [eq_comm (a := var)]
  cases hroot : pathParent venvBin with
  | none =>
    simp only [StrMap.getElem?_insert]
    by_cases hvenv : "VIRTUAL_ENV" = var
    · subst hvenv
      rw [if_neg (by decide), if_pos rfl, hfresh]
    · rw [if_neg hvenv]
  | some root => simp only [StrMap.getElem?_insert]

theorem scriptEnv_getElem? (service : Environment) (config : StrMap String) (var : String) :
    (scriptEnv service config)[var]? = ownVariable service config var := by
  have hvenv : "VIRTUAL_ENV" ∉ envPassthrough := by decide
  have hpath : "PATH" ∈ envPassthrough := by decide
  unfold scriptEnv ownVariable
  cases config["python_venv_bin"]? with
  | none =>
    rw [scrubbedCommand_getElem?]
    by_cases hvar : var = "VIRTUAL_ENV"
    · rw [hvar, if_neg hvenv, if_pos rfl, Option.bind_none]
    · by_cases hvar' : var = "PATH"
      · rw [hvar', if_pos hpath, if_neg (by decide), if_pos rfl]
      · rw [if_neg hvar, if_neg hvar']
  | some venvBin =>
    refine (applyVenv_getElem? service venvBin _ var ?_).trans ?_
    · rw [scrubbedCommand_getElem?, if_neg hvenv]
    · rw [scrubbedCommand_getElem?]
      rfl

/-! ## The credentials among it -/

/-- Of the credentials that become one variable, the last counts. -/
theorem foldl_inject (names : SecretNames) (credentials : List (String × String))
    (env : Environment) (var : String) : (credentials.foldl (inject names) env)[var]? =
      (credentials.reverse.findSome? fun credential =>
        if credentialVariable names credential.1 = var then some credential.2 else none).or
        env[var]? := by
  induction credentials generalizing env with
  | nil => rfl
  | cons first rest ih =>
    rw [List.foldl_cons, ih, inject, StrMap.getElem?_insert, List.reverse_cons,
      List.findSome?_append, Option.or_assoc]
    congr 1
    by_cases hfirst : credentialVariable names first.1 = var <;> simp [hfirst]

theorem credentialVariable_inj {names : SecretNames} {key other : String}
    (h : credentialVariable names key = credentialVariable names other) :
    names.toUppercase key = names.toUppercase other := by
  have hlist := congrArg String.toList h
  rw [credentialVariable, credentialVariable, String.toList_append, String.toList_append] at hlist
  exact String.toList_inj.mp (List.append_cancel_left hlist)

/-- Each credential under the variable it becomes, where no two become one with
different values. -/
theorem injected_iff {names : SecretNames} {credentials : List (String × String)}
    (hone : ∀ credential ∈ credentials, ∀ other ∈ credentials,
      names.toUppercase credential.1 = names.toUppercase other.1 → credential.2 = other.2)
    (env : Environment) (var value : String) :
    (credentials.foldl (inject names) env)[var]? = some value ↔
      (∃ key, (key, value) ∈ credentials ∧ credentialVariable names key = var) ∨
        (∀ credential ∈ credentials, credentialVariable names credential.1 ≠ var) ∧
          env[var]? = some value := by
  rw [foldl_inject, Option.or_eq_some_iff]
  constructor
  · rintro (hfound | ⟨hnone, henv⟩)
    · obtain ⟨credential, hmem, hsome⟩ := List.exists_of_findSome?_eq_some hfound
      obtain ⟨hvar, hvalue⟩ := Option.ite_none_right_eq_some.mp hsome
      refine .inl ⟨credential.1, ?_, hvar⟩
      rw [← Option.some.inj hvalue]
      exact List.mem_reverse.mp hmem
    · refine .inr ⟨fun credential hmem hvar => ?_, henv⟩
      have hskipped := List.findSome?_eq_none_iff.mp hnone credential (List.mem_reverse.mpr hmem)
      rw [if_pos hvar] at hskipped
      cases hskipped
  · rintro (⟨key, hmem, rfl⟩ | ⟨hothers, henv⟩)
    · left
      obtain ⟨found, hfound⟩ : ∃ found, (credentials.reverse.findSome? fun credential =>
          if credentialVariable names credential.1 = credentialVariable names key then
            some credential.2 else none) = some found := by
        rw [← Option.isSome_iff_exists, List.isSome_findSome?, List.any_eq_true]
        exact ⟨(key, value), List.mem_reverse.mpr hmem, by simp⟩
      obtain ⟨credential, hmem', hsome⟩ := List.exists_of_findSome?_eq_some hfound
      obtain ⟨hvar, hvalue⟩ := Option.ite_none_right_eq_some.mp hsome
      rw [hfound, ← Option.some.inj hvalue]
      exact congrArg some (hone credential (List.mem_reverse.mp hmem') (key, value) hmem
        (credentialVariable_inj hvar))
    · refine .inr ⟨List.findSome?_eq_none_iff.mpr fun credential hmem => ?_, henv⟩
      exact if_neg (hothers credential (List.mem_reverse.mp hmem))

/-- The credentials of other sources are not looked at. -/
theorem resolveCredentials_congr (names : SecretNames) {resolve other : Resolver}
    {ids : List String} (h : ∀ id ∈ ids, other id = resolve id) :
    resolveCredentials names other ids = resolveCredentials names resolve ids := by
  have heach : ∀ ids : List String, (∀ id ∈ ids, other id = resolve id) →
      resolveEach other ids = resolveEach resolve ids := by
    intro ids
    induction ids with
    | nil => exact fun _ => rfl
    | cons id rest ih =>
      intro hids
      obtain ⟨hid, hrest⟩ := List.forall_mem_cons.mp hids
      rw [resolveEach, resolveEach, hid, ih hrest]
  rw [resolveCredentials, resolveCredentials,
    heach _ fun id hid => h id (List.mem_eraseDups.mp hid)]

/-! ## What a connector's script sees -/

theorem not_credentialVariable : ∀ var ∈ "SOURCE_CONFIG" :: "VIRTUAL_ENV" :: envPassthrough,
    ¬ "CREDENTIAL_".toList <+: var.toList := by decide

theorem credentialVariable_prefix (names : SecretNames) (key : String) :
    "CREDENTIAL_".toList <+: (credentialVariable names key).toList := by
  rw [credentialVariable, String.toList_append]
  exact List.prefix_append _ _

theorem mem_of_ownVariable {service : Environment} {config : StrMap String} {var value : String}
    (h : ownVariable service config var = some value) :
    var ∈ "VIRTUAL_ENV" :: envPassthrough := by
  unfold ownVariable at h
  split at h
  · rename_i hvar
    rw [hvar]
    exact List.mem_cons_self
  · split at h
    · rename_i hvar
      rw [hvar]
      decide
    · split at h
      · rename_i hmem
        exact List.mem_cons_of_mem _ hmem
      · cases h

theorem ownVariable_congr {service service' : Environment}
    (h : ∀ var ∈ envPassthrough, service'[var]? = service[var]?) (config : StrMap String) :
    ownVariable service' config = ownVariable service config := by
  funext var
  unfold ownVariable
  rw [h "PATH" (by decide)]
  split
  · rfl
  · split
    · rfl
    · split
      · rename_i hmem
        exact h var hmem
      · rfl

/-- No credential reaches the script of an enricher or of an output. -/
theorem noCredential (names : SecretNames) (configJson : List (String × String) → String)
    (service : Environment) (config : StrMap String) (fields : List (String × String))
    (paramsJson key : String) :
    (enricherEnv configJson service config fields)[credentialVariable names key]? = none ∧
      (outputEnv configJson service config fields paramsJson)[credentialVariable names key]? =
        none := by
  have hcredential := credentialVariable_prefix names key
  have hown : ownVariable service config (credentialVariable names key) = none := by
    rw [Option.eq_none_iff_forall_not_mem]
    intro value hvalue
    exact not_credentialVariable _ (List.mem_cons_of_mem _ (mem_of_ownVariable hvalue)) hcredential
  have hne : ∀ var : String, ¬ "CREDENTIAL_".toList <+: var.toList →
      var ≠ credentialVariable names key := fun var hnot heq => hnot (heq ▸ hcredential)
  rw [enricherEnv, outputEnv, StrMap.getElem?_insert, if_neg (hne _ (by decide)),
    StrMap.getElem?_insert, if_neg (hne _ (by decide)), StrMap.getElem?_insert,
    if_neg (hne _ (by decide)), scriptEnv_getElem?, hown]
  exact ⟨rfl, rfl⟩

section
variable {names : SecretNames} {configJson : List (String × String) → String}
  {resolve : Resolver} {ids : List String} {credentials : StrMap String}
  {order : List (String × String)}

theorem connectorEnv_iff (hmaps : resolve.IsMap)
    (hresolved : resolveCredentials names resolve ids = .ok credentials)
    (hcase : ∀ name ∈ credentials, ∀ other ∈ credentials,
      names.toUppercase name = names.toUppercase other →
        names.variablePart name = names.variablePart other)
    (horder : order.Perm credentials.toList) (service : Environment) (config : StrMap String)
    (fields : List (String × String)) (var value : String) :
    (connectorEnv names configJson service config fields order)[var]? = some value ↔
      (∃ owner name, resolve.Has ids owner value ∧ resolve.Under names ids owner name ∧
        credentialVariable names name = var) ∨
      (var = "SOURCE_CONFIG" ∧ configJson fields = value) ∨
      ownVariable service config var = some value := by
  have hmem : ∀ {key value : String}, (key, value) ∈ order ↔ credentials[key]? = some value := by
    intro key value
    rw [horder.mem_iff, Std.ExtTreeMap.mem_toList_iff_getElem?_eq_some]
  have hdelivered := resolveCredentials_getElem? hmaps hresolved
  have hclash := ((resolveCredentials_ok_iff hmaps).mp ⟨credentials, hresolved⟩).2
  have hone : ∀ credential ∈ order, ∀ other ∈ order,
      names.toUppercase credential.1 = names.toUppercase other.1 → credential.2 = other.2 := by
    intro credential hcredential other hother hupper
    have hvalue := hmem.mp hcredential
    have hvalue' := hmem.mp hother
    obtain ⟨owner, hhas, hunder⟩ := (hdelivered _ _).mp hvalue
    obtain ⟨owner', hhas', hunder'⟩ := (hdelivered _ _).mp hvalue'
    have hvar := hcase _ (StrMap.mem_of_some hvalue) _ (StrMap.mem_of_some hvalue') hupper
    obtain rfl := hclash _ _ _ _ _ _ hhas hunder hhas' hunder' hvar
    exact Resolver.Has.unique hmaps hhas hhas'
  rw [connectorEnv, injected_iff hone, StrMap.getElem?_insert, scriptEnv_getElem?]
  refine or_congr ⟨?_, ?_⟩ ⟨?_, ?_⟩
  · rintro ⟨key, hkey, hvar⟩
    obtain ⟨owner, hhas, hunder⟩ := (hdelivered _ _).mp (hmem.mp hkey)
    exact ⟨owner, key, hhas, hunder, hvar⟩
  · rintro ⟨owner, name, hhas, hunder, hvar⟩
    exact ⟨name, hmem.mpr ((hdelivered _ _).mpr ⟨owner, hhas, hunder⟩), hvar⟩
  · rintro ⟨_, hown⟩
    split at hown
    · rename_i hvar
      exact .inl ⟨hvar.symm, Option.some.inj hown⟩
    · exact .inr hown
  · intro hown
    have hnot : ¬ "CREDENTIAL_".toList <+: var.toList := by
      refine not_credentialVariable var ?_
      rcases hown with ⟨hvar, _⟩ | hown
      · rw [hvar]
        exact List.mem_cons_self
      · exact List.mem_cons_of_mem _ (mem_of_ownVariable hown)
    refine ⟨fun credential _ hvar => hnot (hvar ▸ credentialVariable_prefix names _), ?_⟩
    rcases hown with ⟨rfl, hvalue⟩ | hown
    · rw [if_pos rfl, hvalue]
    · split
      · rename_i hvar
        rw [← hvar] at hown
        have hmem := mem_of_ownVariable hown
        exact absurd hmem (by decide)
      · exact hown

/-- **A script sees what it was granted and nothing else of the service's.** Its
environment is the host's few variables, its configuration and the fields of the
credentials that its source names, each under its names; and a service with other
credentials, other variables and maps in another order gives it the same, but for
the order in which the configuration's fields are written. The scripts of
enrichers and outputs get no credential. -/
theorem connector_environment (names : SecretNames)
    (configJson : List (String × String) → String) {resolve : Resolver} (hmaps : resolve.IsMap)
    {ids : List String} {credentials : StrMap String}
    (hresolved : resolveCredentials names resolve ids = .ok credentials)
    (hcase : ∀ name ∈ credentials, ∀ other ∈ credentials,
      names.toUppercase name = names.toUppercase other →
        names.variablePart name = names.variablePart other)
    {order : List (String × String)} (horder : order.Perm credentials.toList)
    (service : Environment) (config : StrMap String) {fields : List (String × String)}
    (hfields : fields.Perm config.toList) :
    (∀ var value, (connectorEnv names configJson service config fields order)[var]? = some value ↔
      (∃ owner name, resolve.Has ids owner value ∧ resolve.Under names ids owner name ∧
        credentialVariable names name = var) ∨
      (var = "SOURCE_CONFIG" ∧ configJson fields = value) ∨
      ownVariable service config var = some value) ∧
    (∀ (service' : Environment) (other : Resolver),
      (∀ var ∈ envPassthrough, service'[var]? = service[var]?) →
      (∀ id ∈ ids, other id = resolve id) →
      ∃ credentials', resolveCredentials names other ids = .ok credentials' ∧
        ∀ order' fields' : List (String × String), order'.Perm credentials'.toList →
          fields'.Perm config.toList →
          (∀ var, var ≠ "SOURCE_CONFIG" →
            (connectorEnv names configJson service' config fields' order')[var]? =
              (connectorEnv names configJson service config fields order)[var]?) ∧
          fields'.Perm fields ∧
            (connectorEnv names configJson service config fields order)["SOURCE_CONFIG"]? =
              some (configJson fields) ∧
            (connectorEnv names configJson service' config fields' order')["SOURCE_CONFIG"]? =
              some (configJson fields')) ∧
    ∀ paramsJson key : String,
      (enricherEnv configJson service config fields)[credentialVariable names key]? = none ∧
        (outputEnv configJson service config fields paramsJson)[credentialVariable names key]? =
          none := by
  refine ⟨connectorEnv_iff hmaps hresolved hcase horder service config fields,
    fun service' other hservice hother => ⟨credentials, ?_, fun order' fields' horder' hfields' =>
      ⟨fun var hvar => ?_, hfields'.trans hfields.symm, ?_, ?_⟩⟩,
    noCredential names configJson service config fields⟩
  · rw [resolveCredentials_congr names hother, hresolved]
  · refine Option.ext fun value => ?_
    rw [connectorEnv_iff hmaps hresolved hcase horder',
      connectorEnv_iff hmaps hresolved hcase horder, ownVariable_congr hservice]
    simp only [hvar, false_and]
  · exact (connectorEnv_iff hmaps hresolved hcase horder ..).mpr (.inr (.inl ⟨rfl, rfl⟩))
  · exact (connectorEnv_iff hmaps hresolved hcase horder' ..).mpr (.inr (.inl ⟨rfl, rfl⟩))

end

/-- A secret in the service's own environment, a credential of another source, and
a configuration gone through the other way round. -/
theorem gitScript_environment :
    let config : StrMap String := Std.ExtTreeMap.ofList [("region", "eu"), ("url", "https://a")]
    let json (fields : List (String × String)) : String := "\x7b" ++ ",".intercalate
      (fields.map fun (key, value) => "\"" ++ key ++ "\":\"" ++ value ++ "\"") ++ "\x7d"
    ∃ credentials,
      resolveCredentials documentedNames loginFields ["cred-git"] = .ok credentials ∧
      ∀ var, var ≠ "SOURCE_CONFIG" →
        (connectorEnv documentedNames json ((∅ : Environment).insert "KEY" "secret") config
          config.toList.reverse credentials.toList)[var]? =
        (connectorEnv documentedNames json ∅ config config.toList credentials.toList)[var]? := by
  intro config json
  have hkeys : (resolveCredentials documentedNames loginFields ["cred-git"]).toOption.map
      (·.keys) = some ["git_ssh_key_path", "ssh_key_path"] := by decide +kernel
  obtain ⟨credentials, hresolved, hnames⟩ := Results.ok_of_toOption_map hkeys
  have hcase : ∀ name ∈ credentials, ∀ other ∈ credentials,
      documentedNames.toUppercase name = documentedNames.toUppercase other →
        documentedNames.variablePart name = documentedNames.variablePart other := by
    have hlisted : ∀ name ∈ ["git_ssh_key_path", "ssh_key_path"],
        ∀ other ∈ ["git_ssh_key_path", "ssh_key_path"],
        documentedNames.toUppercase name = documentedNames.toUppercase other →
          documentedNames.variablePart name = documentedNames.variablePart other := by
      decide +kernel
    intro name hname other hother
    rw [← Std.ExtTreeMap.mem_keys, hnames] at hname hother
    exact hlisted name hname other hother
  obtain ⟨_, hsame, _⟩ := connector_environment documentedNames json loginFields_isMap hresolved
    hcase (.refl _) ∅ config (.refl _)
  have hservice : ∀ var ∈ envPassthrough,
      ((∅ : Environment).insert "KEY" "secret")[var]? = (∅ : Environment)[var]? := by
    intro var hvar
    rw [StrMap.getElem?_insert, if_neg]
    rintro rfl
    exact absurd hvar (by decide)
  obtain ⟨credentials', hresolved', horder⟩ := hsame _ loginFields hservice fun _ _ => rfl
  obtain rfl := Except.ok.inj (hresolved'.symm.trans hresolved)
  exact ⟨_, hresolved, (horder _ _ (.refl _) config.toList.reverse_perm).1⟩

end UnifiedApi

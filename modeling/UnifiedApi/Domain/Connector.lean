import UnifiedApi.Connectors.Ssh

/-! # Connectors: how to talk to a kind of system

A connector says what runs; the sources that name it say on which system. -/

namespace UnifiedApi

inductive ConnectorKind where
  | script | ssh
  deriving DecidableEq

/-- Where an ssh connector's path is: on each host, or on this instance. -/
inductive Location where
  | host | inst
  deriving DecidableEq

def Location.name : Location → String
  | host => "host"
  | inst => "instance"

structure Connector where
  name : String
  kind : ConnectorKind := .script
  project : Option String := none
  location : Option Location := none
  path : String := ""
  /-- Written in the item. -/
  script : Option String := none
  scriptArgs : List String := []
  hostArgs : List String := []
  outputFormat : Option String := none
  timeoutSeconds : Nat := 300
  deriving DecidableEq

namespace Connector

def remote : String := "remote"
def staticInventory : String := "static_inventory"
def builtIn : List String := [remote, staticInventory]

/-- The key under which an ssh source's location reaches the adapter. -/
def sshLocationConfigKey : String := "ssh_location"

def isAbsolute (path : String) : Bool := path.toList.head? == some '/'

/-- What a shell pattern is made of. -/
def isPattern (path : String) : Bool := path.toList.any fun c => "*?[".toList.contains c

def isBlank (text : String) : Bool := (Text.trim text.toList).isEmpty

variable (c : Connector)

/-- None for one that writes its script inline, and where only this instance
runs anything. -/
def sshLocation : Option Location :=
  match c.kind, c.script with
  | .script, _ => none
  | .ssh, some _ => none
  | .ssh, none => c.location.or (c.project.map fun _ => .inst)

/-! ## What is wrong with one -/

variable (id : String)

def sentence (what : String) : String := "Connector '" ++ id ++ "' " ++ what

/-- The error, where there is a reason for it. -/
def errorIf (wrong : Bool) (error : String) : List String := if wrong then [error] else []

def formatErrors : List String :=
  match c.outputFormat with
  | none => []
  | some format =>
    if c.kind = .ssh then
      [sentence id ("sets output_format, which an ssh connector does not take — it builds its " ++
        "dataset itself")]
    else if format = "ansible" then []
    else if format = "native" then
      [sentence id ("sets output_format: native, which 0.36 no longer reads: change its script " ++
        "to print Ansible inventory JSON (host variables under _meta.hostvars, each group a " ++
        "top-level key), then remove the key")]
    else
      [sentence id ("sets output_format: " ++ format ++ " — a script prints Ansible inventory " ++
        "JSON, the one format there is (output_format: ansible says so, and can be left out)")]

def inlineErrors (script : String) : List String :=
  errorIf (c.kind != .ssh) (sentence id ("sets script, which only an ssh connector takes — a " ++
    "script connector runs a file: set path")) ++
  errorIf (c.path != "") (sentence id ("sets both path and script — one or the other: a file, " ++
    "or the script written here")) ++
  errorIf (c.project.isSome || c.location.isSome) (sentence id ("sets script with project or " ++
    "location — a script written here is in no checkout and on no host")) ++
  errorIf (isBlank script) (sentence id "has an empty script")

def noProject : String :=
  "has a relative path but no project — name the project whose checkout holds the script, or " ++
    "use an absolute path"

def hostPathErrors : List String :=
  errorIf c.project.isSome (sentence id ("sets project with location: host — its path is on " ++
    "each host, so no checkout is used")) ++
  errorIf (!Ssh.isPlainRemotePath c.path) (sentence id ("has location: host, so its path must " ++
    "be absolute on the hosts and only letters, digits, / . _ - + @ : , and the pattern " ++
    "characters * ? [ ] — got '" ++ c.path ++ "'"))

def instancePathErrors : List String :=
  if c.path.toList.any Text.isWhitespace then
    [sentence id ("has a path with spaces or lines in it — a path names a file: put a command " ++
      "(with its arguments) in script: instead")]
  else if c.project.isNone && !isAbsolute c.path then [sentence id noProject]
  else errorIf (isPattern c.path) (sentence id ("has location: instance but its path is a " ++
    "pattern — a pattern reads files on each host: set location: host"))

def pathErrors : List String :=
  match c.kind with
  | .script =>
    if isBlank c.path then [sentence id "has an empty path"]
    else
      errorIf (c.project.isNone && !isAbsolute c.path) (sentence id noProject) ++
      errorIf c.location.isSome (sentence id ("sets location, which only an ssh connector uses " ++
        "— a script connector always runs here"))
  | .ssh =>
    if isBlank c.path then [sentence id "needs a path (a file) or a script (written here)"]
    else match c.sshLocation with
      | some .host => c.hostPathErrors id
      | some .inst => c.instancePathErrors id
      | none => [sentence id ("is in the 0.35 form (no location, project or script), which this " ++
          "version does not read. Write it as 0.36 reads it: for Ansible facts, location: host " ++
          "with path: /etc/ansible/facts.d/*.fact; for a command, script: with the command and " ++
          "its arguments; for a script file, project: (or location: instance) with its path")]

/-- Everything wrong with it on its own. -/
def errors : List String :=
  errorIf (builtIn.contains id) (sentence id ("uses the name of a built-in connector — '" ++
    remote ++ "' and '" ++ staticInventory ++ "' need no item; rename this one")) ++
  c.formatErrors id ++
  errorIf (c.kind = .ssh && !c.hostArgs.isEmpty) (sentence id ("sets host_args but is not a " ++
    "script connector")) ++
  match c.script with
  | some script => c.inlineErrors id script
  | none => c.pathErrors id

@[simp] theorem errorIf_eq_nil {wrong : Bool} {error : String} :
    errorIf wrong error = [] ↔ wrong = false := by
  cases wrong <;> simp [errorIf]

/-! ## What one without errors is -/

/-- What an ssh connector runs on a host. -/
inductive SshRun where
  /-- The files that a path matches there. -/
  | files (path : String)
  /-- The script file here. -/
  | file (path : String)
  | inline (script : String)
  deriving DecidableEq

/-- A connector for ssh is in one of three forms. -/
inductive SshForm (c : Connector) : SshRun → Prop
  | files (hlocation : c.sshLocation = some .host) (hscript : c.script = none)
      (hproject : c.project = none) (hpath : Ssh.isPlainRemotePath c.path = true) :
      SshForm c (.files c.path)
  | file (hlocation : c.sshLocation = some .inst) (hscript : c.script = none)
      (hpath : isAbsolute c.path = true ∨ c.project.isSome = true) : SshForm c (.file c.path)
  | inline {script : String} (hlocation : c.sshLocation = none) (hscript : c.script = some script)
      (hproject : c.project = none) : SshForm c (.inline script)

variable {c id}

theorem builtIn_of_errors (h : c.errors id = []) : builtIn.contains id = false := by
  simp only [errors, List.append_eq_nil_iff, errorIf_eq_nil] at h
  exact h.1.1.1

theorem hostArgs_of_errors (hssh : c.kind = .ssh) (h : c.errors id = []) : c.hostArgs = [] := by
  simp only [errors, List.append_eq_nil_iff, errorIf_eq_nil] at h
  simpa [hssh] using h.1.2

theorem sshForm_of_errors (hssh : c.kind = .ssh) (h : c.errors id = []) :
    ∃ run, SshForm c run := by
  simp only [errors, List.append_eq_nil_iff] at h
  obtain ⟨_, hshape⟩ := h
  cases hscript : c.script with
  | some script =>
    simp only [hscript, inlineErrors, List.append_eq_nil_iff, errorIf_eq_nil,
      Bool.or_eq_false_iff, Option.isSome_eq_false_iff, Option.isNone_iff_eq_none] at hshape
    exact ⟨_, .inline (by simp [sshLocation, hssh, hscript]) hscript hshape.1.2.1⟩
  | none =>
    simp only [hscript, pathErrors, hssh] at hshape
    split at hshape
    · cases hshape
    · cases hlocation : c.sshLocation with
      | none => simp [hlocation] at hshape
      | some location =>
        cases location with
        | host =>
          simp only [hlocation, hostPathErrors, List.append_eq_nil_iff, errorIf_eq_nil,
            Option.isSome_eq_false_iff, Option.isNone_iff_eq_none, Bool.not_eq_eq_eq_not,
            Bool.not_false] at hshape
          exact ⟨_, .files hlocation hscript hshape.1 hshape.2⟩
        | inst =>
          simp only [hlocation, instancePathErrors] at hshape
          split at hshape
          · cases hshape
          · split at hshape
            · cases hshape
            · rename_i habsolute
              refine ⟨_, .file hlocation hscript ?_⟩
              cases hproject : c.project with
              | none => exact .inl (by simpa [hproject] using habsolute)
              | some _ => exact .inr rfl

end Connector

end UnifiedApi

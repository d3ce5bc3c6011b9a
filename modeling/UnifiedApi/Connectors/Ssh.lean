import UnifiedApi.Lib.FormUrl
import UnifiedApi.Lib.Results
import UnifiedApi.Lib.ShellWords
import UnifiedApi.Lib.Text

/-! # The command lines an SSH connector sends

A program for `/bin/sh` in single quotes, and its arguments quoted after it.
Whatever the account's login shell is splits the line first. -/

namespace UnifiedApi.Ssh

/-- A value as one shell word. -/
def shellQuote (value : String) : String := String.ofList (Shell.quote value.toList)

/-- A path that is absolute or under the account's home, of characters that
the shell reads as a path or a pattern. -/
def isPlainRemotePath (path : String) : Bool :=
  let rest := if "~/".toList.isPrefixOf path.toList then path.toList.drop 2 else path.toList
  (path.toList.head? == some '/' || "~/".toList.isPrefixOf path.toList) &&
    rest.all fun c => c.isAlphanum || "/._-+@:,*?[]".toList.contains c

/-- What `/bin/sh` runs, in single quotes, and its `$1`, `$2`… -/
def underSh (inner : String) (args : List String) : String :=
  args.foldl (fun line arg => line ++ " " ++ shellQuote arg)
    ("exec /bin/sh -c '" ++ inner ++ "' sh")

/-! ## Facts -/

/-- Every file that matches is announced by a record separator and its name
without the extension. -/
def factsProgram (pattern : String) : String :=
  "for f in " ++ pattern ++ "; do [ -f \"$f\" ] || continue; n=$\x7bf##*/\x7d; " ++
    "m=$\x7bn%.*\x7d; [ -n \"$m\" ] && n=$m; printf \"\\036%s\\n\" \"$n\"; " ++
    "if [ -x \"$f\" ]; then \"$f\" \"$@\" </dev/null 2>/dev/null; else cat \"$f\"; fi; echo; done"

def factsCommand (pattern : String) (args : List String) : String :=
  underSh (factsProgram pattern) args

/-! ## Streamed scripts -/

/-- A word that is written into the command line. -/
def isPlainWord (word : List Char) : Bool :=
  word.all fun c => c.isAlphanum || "/._-+=".toList.contains c

/-- Without `env` and its own options. -/
def skipEnv : List (List Char) → List (List Char)
  | first :: rest =>
    if "/env".toList.isSuffixOf first then rest.dropWhile fun word => word.head? == some '-'
    else first :: rest
  | [] => []

/-- The program that a `#!` line names and its flags. -/
def interpreter (script : List UInt8) : Except String (Option (String × List String)) :=
  let first := FormUrl.fromUtf8Lossy (script.takeWhile (· != 0x0A))
  match first with
  | '#' :: '!' :: rest =>
    let refused := .error ("its #! line '" ++ String.ofList (Text.trim first) ++
      "' names no plain program")
    match skipEnv (Text.splitWhitespace rest) with
    | program :: flags =>
      if isPlainWord program && flags.all isPlainWord then
        .ok (some (String.ofList program, flags.map String.ofList))
      else refused
    | [] => refused
  | _ => .ok none

/-- What runs the script's file: its interpreter, or the login shell. -/
def streamRun (script : List UInt8) : Except String String :=
  (interpreter script).map fun
    | some (program, flags) => flags.foldl (fun run flag => run ++ " " ++ flag) program
    | none => "\"$\x7bSHELL:-/bin/sh\x7d\""

/-- The script goes to a private file. -/
def streamReceive : String :=
  "d=\"$\x7bTMPDIR:-/tmp\x7d\"; find \"$d/.\" ! -name . -prune -name \"unified-api.*\" " ++
    "-user \"$(id -u)\" -mtime +0 -exec rm -f \x7b\x7d + 2>/dev/null; " ++
    "t=$(mktemp \"$d/unified-api.XXXXXX\" 2>/dev/null) || \x7b t=\"$d/unified-api.$$\"; " ++
    "(set -C; umask 077; : >\"$t\") || exit 1; \x7d; trap \"rm -f -- \\\"$t\\\"\" EXIT; " ++
    "trap \"exit 129\" HUP; trap \"exit 130\" INT; trap \"exit 143\" TERM; " ++
    "cat >\"$t\" || exit 1; "

/-- It runs if all of it has arrived. -/
def streamProgram (size : Nat) (run : String) : String :=
  streamReceive ++ "[ \"$(wc -c <\"$t\" | tr -d \" \")\" = " ++ toString size ++
    " ] || \x7b echo \"unified-api: the script arrived incomplete\" >&2; exit 75; \x7d; " ++
    run ++ " \"$t\" \"$@\" </dev/null"

def streamCommand (script : List UInt8) (args : List String) : Except String String :=
  (streamRun script).map fun run => underSh (streamProgram script.length run) args

/-! ## What the login shell makes of them -/

/-- The lines that are sent, with the program in them and its arguments. -/
inductive Sent : String → List String → String → Prop
  | facts {pattern : String} {args : List String} (h : isPlainRemotePath pattern = true) :
      Sent (factsProgram pattern) args (factsCommand pattern args)
  | stream {script : List UInt8} {run line : String} {args : List String}
      (hrun : streamRun script = .ok run) (h : streamCommand script args = .ok line) :
      Sent (streamProgram script.length run) args line

/-- One command, `exec /bin/sh -c`, with the program, `sh` and the arguments. -/
def remoteWords (inner : String) (args : List String) : List Shell.Token :=
  (["exec", "/bin/sh", "-c", inner, "sh"] ++ args).map fun word => .word word.toList

/-- Stands in single quotes as it is, in every shell. -/
def Unquoted (text : List Char) : Prop := '\'' ∉ text ∧ Shell.fish.keeps text = true

theorem Unquoted.append {text more : List Char} (h : Unquoted text) (hmore : Unquoted more) :
    Unquoted (text ++ more) := by
  refine ⟨?_, Shell.keeps_append rfl h.2 hmore.2⟩
  rw [List.mem_append, not_or]
  exact ⟨h.1, hmore.1⟩

theorem unquoted_of_all {text : List Char} (p : Char → Bool) (hquote : p '\'' = false)
    (hback : p '\\' = false) (h : text.all p = true) : Unquoted text := by
  rw [List.all_eq_true] at h
  constructor
  · intro hmem
    rw [h _ hmem] at hquote
    cases hquote
  · refine Shell.keeps_of_notMem fun hmem => ?_
    rw [h _ hmem] at hback
    cases hback

instance (text : List Char) : Decidable (Unquoted text) :=
  inferInstanceAs (Decidable ('\'' ∉ text ∧ Shell.fish.keeps text = true))

/-- For the literals, a piece at a time. -/
theorem unquoted_ofList {text : List Char} (h : Unquoted text) :
    Unquoted (String.ofList text).toList := by
  rwa [String.toList_ofList]

theorem unquoted_append {text more : String} (h : Unquoted text.toList)
    (hmore : Unquoted more.toList) : Unquoted (text ++ more).toList := by
  rw [String.toList_append]
  exact h.append hmore

theorem unquoted_snoc {text : String} {more : List Char} (h : Unquoted text.toList)
    (hmore : Unquoted more) : Unquoted (text ++ String.ofList more).toList :=
  unquoted_append h (unquoted_ofList hmore)

theorem unquoted_path {path : String} (h : isPlainRemotePath path = true) :
    Unquoted path.toList := by
  have hrest : ∀ {text : List Char}, (text.all fun c =>
      c.isAlphanum || "/._-+@:,*?[]".toList.contains c) = true → Unquoted text :=
    unquoted_of_all _ (by decide) (by decide)
  unfold isPlainRemotePath at h
  rw [Bool.and_eq_true] at h
  obtain ⟨-, hall⟩ := h
  split at hall
  · rename_i hhome
    obtain ⟨rest, hpath⟩ := List.isPrefixOf_iff_prefix.mp hhome
    rw [← hpath] at hall ⊢
    have htilde : Unquoted "~/".toList := by decide
    exact htilde.append (hrest hall)
  · exact hrest hall

theorem unquoted_facts {pattern : String} (h : isPlainRemotePath pattern = true) :
    Unquoted (factsProgram pattern).toList := by
  unfold factsProgram
  refine unquoted_snoc (unquoted_snoc (unquoted_snoc ?_ (by decide)) (by decide)) (by decide)
  exact unquoted_append (unquoted_ofList (by decide)) (unquoted_path h)

theorem unquoted_word {word : List Char} (h : isPlainWord word = true) : Unquoted word :=
  unquoted_of_all _ (by decide) (by decide) h

theorem interpreter_plain {script : List UInt8} {program : String} {flags : List String}
    (h : interpreter script = .ok (some (program, flags))) :
    Unquoted program.toList ∧ ∀ flag ∈ flags, Unquoted flag.toList := by
  unfold interpreter at h
  dsimp only at h
  split at h
  · split at h
    · split at h
      · rename_i hplain
        rw [Bool.and_eq_true, List.all_eq_true] at hplain
        cases h
        refine ⟨by simpa using unquoted_word hplain.1, ?_⟩
        intro flag hflag
        obtain ⟨word, hword, rfl⟩ := List.mem_map.mp hflag
        simpa using unquoted_word (hplain.2 word hword)
      · cases h
    · cases h
  · cases h

theorem unquoted_run {script : List UInt8} {run : String} (h : streamRun script = .ok run) :
    Unquoted run.toList := by
  obtain ⟨found, hinterpreter, rfl⟩ := Results.ok_of_map h
  clear h
  cases found with
  | none => decide +kernel
  | some named =>
    obtain ⟨program, flags⟩ := named
    obtain ⟨hprogram, hflags⟩ := interpreter_plain hinterpreter
    clear hinterpreter
    induction flags generalizing program with
    | nil => exact hprogram
    | cons flag flags ih =>
      obtain ⟨hflag, hflags⟩ := List.forall_mem_cons.mp hflags
      refine ih _ ?_ hflags
      have hblank : Unquoted " ".toList := by decide
      simpa [String.toList_append] using (hprogram.append hblank).append hflag

theorem unquoted_digits (n : Nat) : Unquoted (toString n).toList := by
  refine unquoted_of_all Char.isDigit (by decide) (by decide) (List.all_eq_true.mpr ?_)
  intro c hc
  rw [Nat.toString_eq_ofList_toDigits, String.toList_ofList] at hc
  exact Nat.isDigit_of_mem_toDigits (by decide) (le_refl _) hc

theorem unquoted_receive : Unquoted streamReceive.toList := by
  unfold streamReceive
  refine unquoted_snoc (unquoted_snoc (unquoted_snoc ?_ (by decide)) (by decide)) (by decide)
  exact unquoted_snoc (unquoted_snoc (unquoted_ofList (by decide)) (by decide)) (by decide)

theorem unquoted_stream {script : List UInt8} {run : String} (h : streamRun script = .ok run) :
    Unquoted (streamProgram script.length run).toList := by
  unfold streamProgram
  refine unquoted_snoc (unquoted_append ?_ (unquoted_run h)) (by decide)
  refine unquoted_snoc (unquoted_append ?_ (unquoted_digits _)) (by decide)
  exact unquoted_snoc unquoted_receive (by decide)

theorem Sent.unquoted {inner line : String} {args : List String} (h : Sent inner args line) :
    Unquoted inner.toList := by
  cases h with
  | facts h => exact unquoted_facts h
  | stream hrun h => exact unquoted_stream hrun

theorem underSh_toList (inner : String) (args : List String) :
    (underSh inner args).toList = "exec".toList ++ ' ' :: ("/bin/sh".toList ++ ' ' ::
      ("-c".toList ++ ' ' :: '\'' :: (inner.toList ++ '\'' :: ' ' ::
        ("sh".toList ++ Shell.arguments (args.map String.toList))))) := by
  have hargs : ∀ line : String,
      (args.foldl (fun line arg => line ++ " " ++ shellQuote arg) line).toList =
        line.toList ++ Shell.arguments (args.map String.toList) := by
    induction args with
    | nil => simp [Shell.arguments]
    | cons arg args ih =>
      intro line
      rw [List.foldl_cons, ih]
      simp [Shell.arguments, shellQuote, String.toList_append]
  rw [underSh, hargs]
  simp [String.toList_append]

/-- The program comes out of its quotes as it is, and then the arguments. -/
theorem tokens_underSh {shell : Shell} {inner : String} (hinner : Unquoted inner.toList)
    (hkeeps : shell.keeps inner.toList = true) (args : List String) :
    shell.tokens (underSh inner args).toList =
      (shell.lex .bare (some "sh".toList) (Shell.arguments (args.map String.toList))).map
        ((["exec", "/bin/sh", "-c", inner].map fun word => .word word.toList) ++ ·) := by
  have hquoted : ∀ rest, shell.lex .quoted (some []) (inner.toList ++ '\'' :: rest) =
      shell.lex .bare (some inner.toList) rest := by
    intro rest
    have hlex := Shell.lex_quote hkeeps [] rest
    rwa [Shell.escapeQuotes_eq hinner.1] at hlex
  rw [Shell.tokens, underSh_toList, Shell.lex_word (by decide) (by decide), Shell.lex_blank,
    Shell.lex_word (by decide) (by decide), Shell.lex_blank, Shell.lex_word (by decide) (by decide),
    Shell.lex_blank, Shell.lex_open, hquoted, Shell.lex_blank,
    Shell.lex_word (by decide) (by decide)]
  simp [Function.comp_def]

theorem tokens_underSh_iff {shell : Shell} {inner : String} (hinner : Unquoted inner.toList)
    (hkeeps : shell.keeps inner.toList = true) (args : List String) :
    shell.tokens (underSh inner args).toList = some (remoteWords inner args) ↔
      ∀ arg ∈ args, shell.keeps arg.toList = true := by
  have hargs := @Shell.lex_arguments_iff shell (args.map String.toList) "sh".toList
  rw [List.forall_mem_map] at hargs
  rw [tokens_underSh hinner hkeeps, ← hargs]
  simp [remoteWords, List.map_map, Function.comp_def]

theorem posix_keeps (text : List Char) : Shell.posix.keeps text = true :=
  Shell.keeps_of_hides (fun _ => rfl) text

/-- A POSIX shell reads what is meant, and so does fish exactly if no argument
has a backslash before another, before a single quote or at its end. -/
theorem sent_words_iff {inner line : String} {args : List String} (h : Sent inner args line) :
    '\'' ∉ inner.toList ∧
      Shell.posix.tokens line.toList = some (remoteWords inner args) ∧
      (Shell.fish.tokens line.toList = some (remoteWords inner args) ↔
        ∀ arg ∈ args, Shell.fish.keeps arg.toList = true) := by
  have hinner := h.unquoted
  have hline : line = underSh inner args := by
    cases h with
    | facts _ => rfl
    | stream hrun h =>
      rw [streamCommand, hrun] at h
      exact (Except.ok.inj h).symm
  subst hline
  refine ⟨hinner.1, ?_, tokens_underSh_iff hinner hinner.2 args⟩
  exact (tokens_underSh_iff hinner (posix_keeps _) args).mpr fun arg _ => posix_keeps _

theorem apostrophe_words : '\'' ∉ (factsProgram "/etc/facts.d/*").toList ∧
    Shell.posix.tokens (factsCommand "/etc/facts.d/*" ["it's"]).toList =
      some (remoteWords (factsProgram "/etc/facts.d/*") ["it's"]) ∧
    Shell.fish.tokens (factsCommand "/etc/facts.d/*" ["it's"]).toList =
      some (remoteWords (factsProgram "/etc/facts.d/*") ["it's"]) := by
  have hsent : Sent (factsProgram "/etc/facts.d/*") ["it's"]
      (factsCommand "/etc/facts.d/*" ["it's"]) := .facts (by decide)
  obtain ⟨hquote, hposix, hfish⟩ := sent_words_iff hsent
  exact ⟨hquote, hposix, hfish.mpr (by decide)⟩

/-- In fish the second argument is a command of its own. -/
theorem backslash_not_words :
    Shell.fish.tokens (factsCommand "/etc/facts.d/*" ["\\", "; evil #"]).toList =
      some (remoteWords (factsProgram "/etc/facts.d/*") ["' "] ++
        [.special ';', .word "evil".toList]) ∧
    Shell.fish.tokens (factsCommand "/etc/facts.d/*" ["\\", "; evil #"]).toList ≠
      some (remoteWords (factsProgram "/etc/facts.d/*") ["\\", "; evil #"]) := by
  have hinner := @unquoted_facts "/etc/facts.d/*" (by decide)
  have hargs : Shell.fish.lex .bare (some "sh".toList)
      (Shell.arguments (["\\", "; evil #"].map String.toList)) =
        some [.word "sh".toList, .word "' ".toList, .special ';', .word "evil".toList] := by
    decide +kernel
  have htokens := tokens_underSh hinner hinner.2 ["\\", "; evil #"]
  rw [hargs] at htokens
  have hne : ¬ ∀ arg ∈ ["\\", "; evil #"], Shell.fish.keeps arg.toList = true := by decide
  exact ⟨htokens, fun h => hne ((tokens_underSh_iff hinner hinner.2 _).mp h)⟩

end UnifiedApi.Ssh

/-! # The words of a command line

How a shell splits a line into words, as far as quoting goes: blanks, single
quotes, backslashes and comments. Every other character outside quotes stands
for itself or is a token of its own, which no word of plain text has. Shells
differ in what a backslash does. -/

/-- What a backslash does in a shell. -/
structure Shell where
  /-- In single quotes: what it hides. -/
  hides : Char → Bool
  /-- Outside quotes: what it makes of a character, if that is a character. -/
  escaped : Char → Option Char
  escaped_quote : escaped '\'' = some '\''

namespace Shell

inductive Token where
  | word (text : List Char)
  /-- A character with a meaning to the shell. -/
  | special (c : Char)
  deriving DecidableEq

/-- Where the shell stands in the line. -/
inductive Mode where
  | bare
  | escape
  | quoted
  /-- Behind a backslash in quotes. -/
  | behind
  | comment
  deriving DecidableEq

/-- Stands for itself outside quotes. -/
def isPlain (c : Char) : Bool := c.isAlphanum || "/._-+,:@%".toList.contains c

/-- The word at an end, if there is one. -/
def flush (word : Option (List Char)) (tokens : List Token) : List Token :=
  match word with
  | none => tokens
  | some text => .word text :: tokens

def add (word : Option (List Char)) (text : List Char) : Option (List Char) :=
  some (word.getD [] ++ text)

section
variable (shell : Shell)

/-- The tokens of the rest of a line, with the word so far. None is a line
that does not end, or an escape that is no character. -/
def lex : Mode → Option (List Char) → List Char → Option (List Token)
  | .bare, word, [] | .comment, word, [] => some (flush word [])
  | _, _, [] => none
  | .bare, word, c :: rest =>
    if c = '\'' then lex .quoted (add word []) rest
    else if c = '\\' then lex .escape word rest
    else if c = ' ' ∨ c = '\t' then (lex .bare none rest).map (flush word)
    else if c = '#' ∧ word = none then lex .comment none rest
    else if isPlain c then lex .bare (add word [c]) rest
    else (lex .bare none rest).map fun tokens => flush word (.special c :: tokens)
  | .escape, word, c :: rest => match shell.escaped c with
    | none => none
    | some d => lex .bare (add word [d]) rest
  | .quoted, word, c :: rest =>
    if c = '\'' then lex .bare word rest
    else if c = '\\' then lex .behind word rest
    else lex .quoted (add word [c]) rest
  | .behind, word, c :: rest =>
    if shell.hides c then lex .quoted (add word [c]) rest
    else if c = '\'' then lex .bare (add word ['\\']) rest
    else if c = '\\' then lex .behind (add word ['\\']) rest
    else lex .quoted (add word ['\\', c]) rest
  | .comment, word, c :: rest =>
    if c = '\n' then (lex .bare none rest).map (.special c :: ·) else lex .comment word rest

def tokens (line : List Char) : Option (List Token) := shell.lex .bare none line

/-- Every backslash of a text in single quotes keeps what follows it, the
closing quote included. -/
def keeps : List Char → Bool
  | [] => true
  | c :: rest =>
    (c != '\\' || !shell.hides (rest.headD '\'')) && keeps rest

end

/-- Backslashes mean nothing in single quotes. -/
def posix : Shell where
  hides _ := false
  escaped c := if c = '\n' then none else some c
  escaped_quote := rfl

/-- They hide themselves and single quotes there; outside, letters and digits
after one stand for other characters. -/
def fish : Shell where
  hides c := c == '\\' || c == '\''
  escaped c := if c = '\n' ∨ c.isAlphanum then none else some c
  escaped_quote := rfl

/-- A text in single quotes, each of its own closed, escaped and reopened. -/
def escapeQuotes (text : List Char) : List Char :=
  text.flatMap fun c => if c = '\'' then ['\'', '\\', '\'', '\''] else [c]

def quote (text : List Char) : List Char := '\'' :: (escapeQuotes text ++ ['\''])

/-! ## Quoted words -/

section
variable {shell : Shell} {word text rest line : List Char} {tokens : List Token}

@[simp] theorem add_some (word text : List Char) : add (some word) text = some (word ++ text) := rfl

@[simp] theorem add_none (text : List Char) : add none text = some text := rfl

theorem escapeQuotes_cons (c : Char) (text : List Char) : escapeQuotes (c :: text) =
    (if c = '\'' then ['\'', '\\', '\'', '\''] else [c]) ++ escapeQuotes text := rfl

/-- Anything but a backslash comes out of its quotes as it went in. -/
theorem lex_escapeQuotes_cons {c : Char} (hc : c ≠ '\\') (word text rest : List Char) :
    shell.lex .quoted (some word) (escapeQuotes (c :: text) ++ rest) =
      shell.lex .quoted (some (word ++ [c])) (escapeQuotes text ++ rest) := by
  rw [escapeQuotes_cons]
  by_cases hquote : c = '\''
  · subst hquote
    simp [lex, shell.escaped_quote]
  · simp [lex, hquote, hc]

/-- A quoted text begins with its first character or with the quote of its end. -/
theorem escapeQuotes_append_quote (text rest : List Char) :
    ∃ more, escapeQuotes text ++ '\'' :: rest = text.headD '\'' :: more := by
  cases text with
  | nil => exact ⟨rest, rfl⟩
  | cons c text =>
    rw [escapeQuotes_cons]
    by_cases hquote : c = '\''
    · subst hquote
      exact ⟨_, rfl⟩
    · rw [if_neg hquote]
      exact ⟨_, rfl⟩

/-- A backslash that hides nothing is a character as any other. -/
theorem lex_behind {c : Char} (h : shell.hides c = false) (word rest : List Char) :
    shell.lex .behind (some word) (c :: rest) =
      shell.lex .quoted (some (word ++ ['\\'])) (c :: rest) := by
  simp only [lex, h, add_some]
  by_cases hquote : c = '\''
  · simp [hquote]
  · by_cases hback : c = '\\'
    · simp [hback]
    · simp [hquote, hback]

theorem lex_backslash (word text rest : List Char) :
    shell.lex .quoted (some word) (escapeQuotes ('\\' :: text) ++ '\'' :: rest) =
      if shell.hides (text.headD '\'') then
        shell.lex .quoted (some (word ++ [text.headD '\'']))
          (escapeQuotes text ++ '\'' :: rest).tail
      else shell.lex .quoted (some (word ++ ['\\'])) (escapeQuotes text ++ '\'' :: rest) := by
  have hstep : shell.lex .quoted (some word) (escapeQuotes ('\\' :: text) ++ '\'' :: rest) =
      shell.lex .behind (some word) (escapeQuotes text ++ '\'' :: rest) := by
    simp [escapeQuotes_cons, lex]
  obtain ⟨more, hmore⟩ := escapeQuotes_append_quote text rest
  rw [hstep, hmore]
  split
  · rename_i hhides
    rw [lex, if_pos hhides]
    rfl
  · rename_i hkept
    exact lex_behind (Bool.eq_false_iff.mpr hkept) word more

/-- A text that keeps its backslashes comes back from its quotes. -/
theorem lex_quote (hkeeps : shell.keeps text = true) (word rest : List Char) :
    shell.lex .quoted (some word) (escapeQuotes text ++ '\'' :: rest) =
      shell.lex .bare (some (word ++ text)) rest := by
  induction text generalizing word with
  | nil => simp [escapeQuotes, lex]
  | cons c text ih =>
    rw [keeps, Bool.and_eq_true] at hkeeps
    obtain ⟨hfirst, hrest⟩ := hkeeps
    by_cases hback : c = '\\'
    · subst hback
      have hhides : ¬ shell.hides (text.headD '\'') = true := by simpa using hfirst
      rw [lex_backslash, if_neg hhides, ih hrest, List.append_assoc, List.singleton_append]
    · rw [lex_escapeQuotes_cons hback, ih hrest, List.append_assoc, List.singleton_append]

/-- A word once begun stays as it began. -/
theorem lex_begins {mode : Mode} (hmode : mode ≠ .comment)
    (h : shell.lex mode (some word) line = some tokens) :
    ∃ more rest, tokens = .word (word ++ more) :: rest := by
  induction line generalizing mode word with
  | nil =>
    cases mode with
    | bare =>
      simp only [lex, flush, Option.some.injEq] at h
      exact ⟨[], [], by rw [← h, List.append_nil]⟩
    | comment => exact absurd rfl hmode
    | escape | quoted | behind => cases h
  | cons c line ih =>
    have hfrom : ∀ {mode : Mode} {extra : List Char}, mode ≠ .comment →
        shell.lex mode (some (word ++ extra)) line = some tokens →
          ∃ more rest, tokens = .word (word ++ more) :: rest := by
      intro mode extra hmode h
      obtain ⟨more, rest, htokens⟩ := ih hmode h
      exact ⟨extra ++ more, rest, by rw [htokens, List.append_assoc]⟩
    cases mode with
    | bare =>
      simp only [lex] at h
      split at h
      · exact hfrom (by decide) h
      split at h
      · exact ih (by decide) h
      split at h
      · obtain ⟨rest, -, rfl⟩ := Option.map_eq_some_iff.mp h
        exact ⟨[], rest, by simp [flush]⟩
      split at h
      · simp_all
      split at h
      · exact hfrom (by decide) h
      · obtain ⟨rest, -, rfl⟩ := Option.map_eq_some_iff.mp h
        exact ⟨[], .special c :: rest, by simp [flush]⟩
    | escape =>
      simp only [lex] at h
      split at h
      · cases h
      · exact hfrom (by decide) h
    | quoted =>
      simp only [lex] at h
      split at h
      · exact ih (by decide) h
      split at h
      · exact ih (by decide) h
      · exact hfrom (by decide) h
    | behind =>
      simp only [lex] at h
      split at h
      · exact hfrom (by decide) h
      split at h
      · exact hfrom (by decide) h
      split at h
      · exact hfrom (by decide) h
      · exact hfrom (by decide) h
    | comment => exact absurd rfl hmode

theorem isPrefix_of_lex {mode : Mode} {begun : List Char} (hmode : mode ≠ .comment)
    (h : shell.lex mode (some (word ++ begun)) line = some (.word (word ++ text) :: tokens)) :
    begun <+: text := by
  obtain ⟨more, rest, htokens⟩ := lex_begins hmode h
  have hword := Token.word.inj (List.cons.inj htokens).1
  rw [List.append_assoc] at hword
  exact ⟨more, (List.append_cancel_left hword).symm⟩

/-- Nothing follows, or a blank. -/
def Ends (rest : List Char) : Prop := rest = [] ∨ ∃ more, rest = ' ' :: more

theorem lex_ends (hends : Ends rest) (h : shell.lex .bare (some word) rest = some tokens) :
    ∃ more, tokens = .word word :: more := by
  obtain rfl | ⟨more, rfl⟩ := hends
  · simp only [lex, flush, Option.some.injEq] at h
    exact ⟨[], h.symm⟩
  · have hstep : shell.lex .bare (some word) (' ' :: more) =
        (shell.lex .bare none more).map (flush (some word)) := by simp [lex]
    rw [hstep] at h
    obtain ⟨tokens, -, rfl⟩ := Option.map_eq_some_iff.mp h
    exact ⟨tokens, rfl⟩

theorem lex_closed (word rest : List Char) :
    shell.lex .quoted (some word) (escapeQuotes [] ++ '\'' :: rest) =
      shell.lex .bare (some word) rest := by
  simp [escapeQuotes, lex]

/-- Behind its closing quote a word takes nothing more. -/
theorem eq_nil_of_lex_closed (hends : Ends rest)
    (h : shell.lex .quoted (some word) (escapeQuotes [] ++ '\'' :: rest) =
      some (.word (word ++ text) :: tokens)) : text = [] := by
  rw [lex_closed] at h
  obtain ⟨more, htokens⟩ := lex_ends hends h
  simpa using Token.word.inj (List.cons.inj htokens).1

theorem replicate_append_cons (n : Nat) (c : Char) (text : List Char) :
    List.replicate n c ++ c :: text = List.replicate (n + 1) c ++ text := by
  rw [List.replicate_succ', List.append_assoc, List.singleton_append]

/-- A backslash once lost stays lost: what should come out begins with one
more than can. -/
theorem lex_lost (hback : shell.hides '\\' = true) (hends : Ends rest) :
    ∀ (text word : List Char) (lost : Nat),
      shell.lex .quoted (some word) (escapeQuotes text ++ '\'' :: rest) ≠
        some (.word (word ++ (List.replicate (lost + 1) '\\' ++ text)) :: tokens)
  | [], word, lost => by
    intro h
    have hnothing := eq_nil_of_lex_closed hends h
    simp at hnothing
  | c :: text, word, lost => by
    intro h
    by_cases hc : c = '\\'
    · subst hc
      rw [lex_backslash] at h
      split at h
      · cases text with
        | nil =>
          have hbegins := isPrefix_of_lex (by decide) h
          simp [List.replicate_succ] at hbegins
        | cons d text =>
          by_cases hd : d = '\\'
          · subst hd
            have hword : word ++ (List.replicate (lost + 1) '\\' ++ '\\' :: '\\' :: text) =
                word ++ ['\\'] ++ (List.replicate (lost + 2) '\\' ++ text) := by
              rw [replicate_append_cons, replicate_append_cons, List.replicate_succ]
              simp
            rw [hword] at h
            exact lex_lost hback hends text _ (lost + 1) h
          · have hbegins := isPrefix_of_lex (by decide) h
            simp [List.replicate_succ, hd] at hbegins
      · rename_i hkept
        cases text with
        | nil =>
          have hword : word ++ (List.replicate (lost + 1) '\\' ++ ['\\']) =
              word ++ ['\\'] ++ List.replicate (lost + 1) '\\' := by
            rw [replicate_append_cons, List.replicate_succ]
            simp
          rw [hword] at h
          have hnothing := eq_nil_of_lex_closed hends h
          simp at hnothing
        | cons d text =>
          have hd : d ≠ '\\' := by
            rintro rfl
            exact hkept hback
          rw [lex_escapeQuotes_cons hd, List.append_assoc] at h
          have hbegins := isPrefix_of_lex (by decide) h
          cases lost <;> simp [List.replicate_succ, hd] at hbegins
    · rw [lex_escapeQuotes_cons hc] at h
      have hbegins := isPrefix_of_lex (by decide) h
      simp [List.replicate_succ, hc] at hbegins

/-- A text that does not keep a backslash does not come back. -/
theorem lex_quote_ne (hends : Ends rest) : ∀ (text word : List Char), shell.keeps text = false →
    shell.lex .quoted (some word) (escapeQuotes text ++ '\'' :: rest) ≠
      some (.word (word ++ text) :: tokens)
  | [], _, hkeeps => by cases hkeeps
  | c :: text, word, hkeeps => by
    intro h
    by_cases hc : c = '\\'
    · subst hc
      rw [lex_backslash] at h
      split at h
      · rename_i hhides
        cases text with
        | nil =>
          have hbegins := isPrefix_of_lex (by decide) h
          simp at hbegins
        | cons d text =>
          by_cases hd : d = '\\'
          · subst hd
            rw [show word ++ '\\' :: '\\' :: text =
              word ++ ['\\'] ++ (List.replicate (0 + 1) '\\' ++ text) by simp] at h
            exact lex_lost hhides hends text _ 0 h
          · have hbegins := isPrefix_of_lex (by decide) h
            simp [hd] at hbegins
      · rename_i hkept
        have hrest : shell.keeps text = false := by
          rw [keeps, Bool.eq_false_iff.mpr hkept] at hkeeps
          simpa using hkeeps
        rw [show word ++ '\\' :: text = word ++ ['\\'] ++ text by simp] at h
        exact lex_quote_ne hends text _ hrest h
    · have hrest : shell.keeps text = false := by simpa [keeps, hc] using hkeeps
      rw [lex_escapeQuotes_cons hc, show word ++ c :: text = word ++ [c] ++ text by simp] at h
      exact lex_quote_ne hends text _ hrest h

/-! ## Texts that keep their backslashes -/

theorem keeps_of_hides (hnone : ∀ c, shell.hides c = false) (text : List Char) :
    shell.keeps text = true := by
  induction text with
  | nil => rfl
  | cons c text ih => rw [keeps, hnone, ih, Bool.not_false, Bool.or_true, Bool.and_true]

theorem keeps_of_notMem (h : '\\' ∉ text) : shell.keeps text = true := by
  induction text with
  | nil => rfl
  | cons c text ih =>
    rw [List.mem_cons, not_or] at h
    simp [keeps, ih h.2, Ne.symm h.1]

/-- Where a quote is hidden, a text that keeps its backslashes ends in none. -/
theorem keeps_append (hquote : shell.hides '\'' = true) {more : List Char}
    (htext : shell.keeps text = true) (hmore : shell.keeps more = true) :
    shell.keeps (text ++ more) = true := by
  induction text with
  | nil => exact hmore
  | cons c text ih =>
    rw [keeps, Bool.and_eq_true] at htext
    obtain ⟨hfirst, hrest⟩ := htext
    rw [List.cons_append, keeps, ih hrest, Bool.and_true]
    cases text with
    | nil =>
      have hc : c ≠ '\\' := by simpa [hquote] using hfirst
      simp [hc]
    | cons d text => exact hfirst

/-! ## Whole lines -/

theorem lex_isPlain {c : Char} (hc : isPlain c = true) (word : Option (List Char))
    (rest : List Char) :
    shell.lex .bare word (c :: rest) = shell.lex .bare (add word [c]) rest := by
  have hne : ∀ d, isPlain d = false → c ≠ d := by
    rintro d hd rfl
    rw [hd] at hc
    cases hc
  simp [lex, hc, hne '\'' (by decide), hne '\\' (by decide), hne ' ' (by decide),
    hne '\t' (by decide), hne '#' (by decide)]

/-- A run of plain characters is a word, or adds to one. -/
theorem lex_plain (hplain : text.all isPlain = true) (word rest : List Char) :
    shell.lex .bare (some word) (text ++ rest) = shell.lex .bare (some (word ++ text)) rest := by
  induction text generalizing word with
  | nil => simp
  | cons c text ih =>
    rw [List.all_cons, Bool.and_eq_true] at hplain
    rw [List.cons_append, lex_isPlain hplain.1, add_some, ih hplain.2, List.append_assoc,
      List.singleton_append]

theorem lex_word (hne : text ≠ []) (hplain : text.all isPlain = true) (rest : List Char) :
    shell.lex .bare none (text ++ rest) = shell.lex .bare (some text) rest := by
  cases text with
  | nil => exact absurd rfl hne
  | cons c text =>
    rw [List.all_cons, Bool.and_eq_true] at hplain
    rw [List.cons_append, lex_isPlain hplain.1, add_none, lex_plain hplain.2,
      List.singleton_append]

theorem lex_blank (word rest : List Char) :
    shell.lex .bare (some word) (' ' :: rest) =
      (shell.lex .bare none rest).map (.word word :: ·) := by
  have hflush : flush (some word) = (.word word :: ·) := rfl
  simp [lex, hflush]

theorem lex_open (rest : List Char) :
    shell.lex .bare none ('\'' :: rest) = shell.lex .quoted (some []) rest := by
  simp [lex]

/-- Without quotes there is nothing to escape. -/
theorem escapeQuotes_eq (h : '\'' ∉ text) : escapeQuotes text = text := by
  induction text with
  | nil => rfl
  | cons c text ih =>
    rw [List.mem_cons, not_or] at h
    rw [escapeQuotes_cons, if_neg (Ne.symm h.1), ih h.2, List.singleton_append]

/-- Arguments after a word, each quoted. -/
def arguments (args : List (List Char)) : List Char := args.flatMap fun arg => ' ' :: quote arg

theorem ends_arguments (args : List (List Char)) : Ends (arguments args) := by
  cases args with
  | nil => exact .inl rfl
  | cons arg args => exact .inr ⟨_, rfl⟩

theorem lex_argument (word arg : List Char) (args : List (List Char)) :
    shell.lex .bare (some word) (arguments (arg :: args)) =
      (shell.lex .quoted (some []) (escapeQuotes arg ++ '\'' :: arguments args)).map
        (.word word :: ·) := by
  have harguments : arguments (arg :: args) =
      ' ' :: '\'' :: (escapeQuotes arg ++ '\'' :: arguments args) := by simp [arguments, quote]
  rw [harguments, lex_blank, lex_open]

/-- The arguments come back exactly if each keeps its backslashes. -/
theorem lex_arguments_iff (args : List (List Char)) (word : List Char) :
    shell.lex .bare (some word) (arguments args) = some (.word word :: args.map .word) ↔
      ∀ arg ∈ args, shell.keeps arg = true := by
  induction args generalizing word with
  | nil => simp [arguments, lex, flush]
  | cons arg args ih =>
    rw [lex_argument, List.forall_mem_cons]
    cases hkeeps : shell.keeps arg with
    | true =>
      rw [lex_quote hkeeps, List.nil_append, ← ih arg]
      simp
    | false =>
      refine iff_of_false ?_ (by simp)
      intro h
      obtain ⟨tokens, htokens, heq⟩ := Option.map_eq_some_iff.mp h
      obtain rfl := (List.cons.inj heq).2
      exact lex_quote_ne (ends_arguments args) arg [] hkeeps htokens

end

end Shell

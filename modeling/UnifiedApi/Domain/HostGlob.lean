import UnifiedApi.Domain.HostFilter

/-! # What a host pattern matches

A pattern cuts a text into one piece for each of its characters. The walk of
`glob` finds such a cut, but it lets a star that stands at a `*` of the text
take that one character and no more. -/

namespace UnifiedApi.HostFilter

/-- `text` is cut into pieces along `pattern`. `run piece text` says that a
star may take `piece` from the beginning of `text`. -/
inductive Cut (run : List Char → List Char → Prop) : List Char → List Char → Prop
  | done : Cut run [] []
  | one {pattern text : List Char} (c : Char) (h : Cut run pattern text) :
      Cut run ('?' :: pattern) (c :: text)
  | self {pattern text : List Char} {c : Char} (hstar : c ≠ '*') (hone : c ≠ '?')
      (h : Cut run pattern text) : Cut run (c :: pattern) (c :: text)
  | star {pattern text : List Char} (piece : List Char) (hrun : run piece (piece ++ text))
      (h : Cut run pattern text) : Cut run ('*' :: pattern) (piece ++ text)

/-- `*` is any run of characters. -/
def Matches (pattern text : List Char) : Prop := Cut (fun _ _ => True) pattern text

/-- A star that stands at a `*` of the text takes exactly it. -/
def TakesStar (piece text : List Char) : Prop := text.head? = some '*' → piece = ['*']

/-- The cuts among which the walk looks. -/
def MatchesApart (pattern text : List Char) : Prop := Cut TakesStar pattern text

section
variable {run : List Char → List Char → Prop} {pattern text : List Char} {p c : Char}

theorem Cut.mono {run' : List Char → List Char → Prop} (hrun : ∀ piece text, run piece text →
    run' piece text) (h : Cut run pattern text) : Cut run' pattern text := by
  induction h with
  | done => exact .done
  | one c _ ih => exact .one c ih
  | self hstar hone _ ih => exact .self hstar hone ih
  | star piece hpiece _ ih => exact .star piece (hrun _ _ hpiece) ih

theorem cut_suffix_of_cons (hp : p ≠ '*') (h : Cut run (p :: pattern) text) :
    ∃ c rest, text = c :: rest ∧ (p = '?' ∨ p = c) ∧ Cut run pattern rest := by
  cases h with
  | one c h => exact ⟨c, _, rfl, .inl rfl, h⟩
  | self _ _ h => exact ⟨_, _, rfl, .inr rfl, h⟩
  | star _ _ _ => exact absurd rfl hp

theorem cut_cons_iff (hp : p ≠ '*') :
    Cut run (p :: pattern) (c :: text) ↔ (p = '?' ∨ p = c) ∧ Cut run pattern text := by
  constructor
  · intro h
    obtain ⟨first, rest, htext, hsame, hrest⟩ := cut_suffix_of_cons hp h
    obtain ⟨rfl, rfl⟩ := List.cons.inj htext
    exact ⟨hsame, hrest⟩
  · intro h
    obtain ⟨hsame, h⟩ := h
    by_cases hone : p = '?'
    · subst hone
      exact .one c h
    · obtain rfl := hsame.resolve_left hone
      exact .self hp hone h

theorem cut_star_iff : Cut run ('*' :: pattern) text ↔
    ∃ piece rest, text = piece ++ rest ∧ run piece text ∧ Cut run pattern rest := by
  constructor
  · intro h
    cases h with
    | self hstar _ _ => exact absurd rfl hstar
    | star piece hrun h => exact ⟨piece, _, rfl, hrun, h⟩
  · intro h
    obtain ⟨piece, rest, rfl, hrun, h⟩ := h
    exact .star piece hrun h

theorem not_cut_nil_cons : ¬ Cut run [] (c :: text) := nofun

end

/-! ## Cuts in which a star at a `*` takes exactly it -/

section
variable {pattern text : List Char}

theorem matchesApart_star_cons :
    MatchesApart ('*' :: pattern) ('*' :: text) ↔ MatchesApart pattern text := by
  unfold MatchesApart
  rw [cut_star_iff]
  constructor
  · intro h
    obtain ⟨piece, rest, htext, hrun, h⟩ := h
    obtain rfl := hrun rfl
    obtain rfl := List.cons.inj htext |>.2
    exact h
  · intro h
    exact ⟨['*'], text, rfl, fun _ => rfl, h⟩

/-- Anywhere else it may take any run. -/
theorem matchesApart_star_iff (hhead : text.head? ≠ some '*') :
    MatchesApart ('*' :: pattern) text ↔ ∃ rest, rest <:+ text ∧ MatchesApart pattern rest := by
  unfold MatchesApart
  rw [cut_star_iff]
  constructor
  · intro h
    obtain ⟨piece, rest, rfl, _, h⟩ := h
    exact ⟨rest, List.suffix_append piece rest, h⟩
  · intro h
    obtain ⟨rest, ⟨piece, rfl⟩, h⟩ := h
    exact ⟨piece, rest, rfl, fun hstar => absurd hstar hhead, h⟩

/-- Behind the star that a longer text begins with comes what a shorter one
would leave. -/
theorem matchesApart_star_suffix {shorter : List Char} (hsuffix : shorter <:+ text)
    (hhead : text.head? ≠ some '*') (h : MatchesApart ('*' :: pattern) shorter) :
    MatchesApart ('*' :: pattern) text := by
  obtain ⟨piece, rest, rfl, _, hrest⟩ := cut_star_iff.mp h
  rw [matchesApart_star_iff hhead]
  exact ⟨rest, (List.suffix_append piece rest).trans hsuffix, hrest⟩

theorem matchesApart_nil_iff : MatchesApart pattern [] ↔ pattern.all (· == '*') = true := by
  induction pattern with
  | nil => exact iff_of_true .done rfl
  | cons p rest ih =>
    by_cases hp : p = '*'
    · subst hp
      rw [matchesApart_star_iff (by simp)]
      simp only [List.suffix_nil, exists_eq_left]
      rw [ih]
      simp
    · refine iff_of_false (fun h => ?_) (by simp [hp])
      obtain ⟨c, _, hc, _, _⟩ := cut_suffix_of_cons hp h
      cases hc

end

/-! ## The walk -/

/-- What the walk may come back to: the pattern behind the last star, at any
later place of the text. -/
def Later (star : Option (List Char × List Char)) : Prop :=
  ∃ behind back, star = some (behind, back) ∧ ∃ rest, rest <:+ back.tail ∧ MatchesApart behind rest

/-- Nothing is lost by going on instead: whatever a later place would leave to
be matched, the text that is left can still be cut down to it. -/
def Ahead (pattern text : List Char) (star : Option (List Char × List Char)) : Prop :=
  ∀ behind back, star = some (behind, back) → ∀ rest, rest <:+ back → MatchesApart behind rest →
    ∃ left, left <:+ text ∧ MatchesApart pattern left

theorem ahead_refl (behind back : List Char) : Ahead behind back (some (behind, back)) := by
  intro behind' back' hstar rest hrest h
  obtain ⟨rfl, rfl⟩ := Prod.mk.inj (Option.some.inj hstar)
  exact ⟨rest, hrest, h⟩

theorem Ahead.of_later {pattern text : List Char} {star : Option (List Char × List Char)}
    (h : Ahead pattern text star) (hlater : Later star) :
    ∃ left, left <:+ text ∧ MatchesApart pattern left := by
  obtain ⟨behind, back, hstar, rest, hrest, hcut⟩ := hlater
  exact h behind back hstar rest (hrest.trans (List.tail_suffix back)) hcut

/-- The step that takes one character of both. -/
theorem Ahead.step {p c : Char} {pattern text : List Char}
    {star : Option (List Char × List Char)} (hsame : p = '?' ∨ p = c)
    (h : Ahead (p :: pattern) (c :: text) star) : Ahead pattern text star := by
  intro behind back hstar rest hrest hcut
  obtain ⟨left, hleft, hpattern⟩ := h behind back hstar rest hrest hcut
  by_cases hp : p = '*'
  · subst hp
    obtain rfl : '*' = c := hsame.resolve_left (by decide)
    rcases List.suffix_cons_iff.mp hleft with rfl | hleft
    · exact ⟨text, List.suffix_refl text, matchesApart_star_cons.mp hpattern⟩
    · obtain ⟨piece, after, rfl, _, hafter⟩ := cut_star_iff.mp hpattern
      exact ⟨after, (List.suffix_append piece after).trans hleft, hafter⟩
  · obtain ⟨first, after, rfl, _, hafter⟩ := cut_suffix_of_cons hp hpattern
    refine ⟨after, ?_, hafter⟩
    obtain ⟨before, hbefore⟩ := hleft
    cases before with
    | nil => exact (List.cons.inj hbefore).2 ▸ List.suffix_refl _
    | cons b before =>
      refine ⟨before ++ [first], ?_⟩
      rw [List.append_assoc]
      exact (List.cons.inj hbefore).2

theorem later_iff {behind back : List Char} : Later (some (behind, back)) ↔
    ∃ rest, rest <:+ back.tail ∧ MatchesApart behind rest := by
  constructor
  · intro h
    obtain ⟨behind', back', hstar, hlater⟩ := h
    obtain ⟨rfl, rfl⟩ := Prod.mk.inj (Option.some.inj hstar)
    exact hlater
  · intro hlater
    exact ⟨behind, back, rfl, hlater⟩

/-- The pattern at this place, or at a later one. -/
theorem here_or_later_iff {behind back : List Char} :
    MatchesApart behind back ∨ Later (some (behind, back)) ↔
      ∃ rest, rest <:+ back ∧ MatchesApart behind rest := by
  rw [later_iff]
  cases back with
  | nil => simp
  | cons c rest => simp [List.suffix_cons_iff, or_and_right, exists_or]

/-- Neither character of the pattern nor star: the text is not cut here. -/
theorem not_matchesApart {pattern rest : List Char} {c : Char}
    (hsame : ¬(pattern.head? = some '?' ∨ pattern.head? = some c))
    (hstar : pattern.head? ≠ some '*') : ¬ MatchesApart pattern (c :: rest) := by
  cases pattern with
  | nil => exact not_cut_nil_cons
  | cons p pattern =>
    have hp : p ≠ '*' := fun h => hstar (congrArg some h)
    intro h
    refine hsame ((cut_cons_iff hp).mp h |>.1.imp ?_ ?_) <;> exact congrArg some

/-- The walk finds a cut of what is left, or one from a later place of the
last star. -/
theorem globWalk_iff (pattern text : List Char) (star : Option (List Char × List Char))
    (hback : ∀ back ∈ star, text.length ≤ back.2.length) (hahead : Ahead pattern text star) :
    globWalk pattern text star hback = true ↔ MatchesApart pattern text ∨ Later star := by
  fun_induction globWalk pattern text star hback with
  | case1 pattern star h =>
    rw [← matchesApart_nil_iff]
    refine ⟨.inl, fun hor => hor.elim id fun hlater => ?_⟩
    obtain ⟨left, hleft, hcut⟩ := hahead.of_later hlater
    rwa [List.suffix_nil.mp hleft] at hcut
  | case2 pattern star c rest _ hsame _ ih =>
    cases pattern with
    | nil => simp at hsame
    | cons p pattern =>
      replace hsame : p = '?' ∨ p = c := by simpa using hsame
      rw [ih (hahead.step hsame)]
      refine or_congr_left ?_
      by_cases hp : p = '*'
      · subst hp
        obtain rfl : '*' = c := hsame.resolve_left (by decide)
        exact matchesApart_star_cons.symm
      · exact ((cut_cons_iff hp).trans (and_iff_right hsame)).symm
  | case3 pattern star c rest _ hsame hstar _ ih =>
    cases pattern with
    | nil => simp at hstar
    | cons p pattern =>
      obtain rfl : p = '*' := by simpa using hstar
      have hhead : (c :: rest).head? ≠ some '*' := by
        intro hc
        exact hsame (.inr hc.symm)
      rw [ih (ahead_refl _ _), here_or_later_iff]
      change (∃ left, left <:+ c :: rest ∧ MatchesApart pattern left) ↔ _
      rw [← matchesApart_star_iff hhead]
      refine ⟨.inl, fun hor => hor.elim id fun hlater => ?_⟩
      obtain ⟨left, hleft, hcut⟩ := hahead.of_later hlater
      exact matchesApart_star_suffix hleft hhead hcut
  | case4 pattern c rest hsame hstar behind head swallowed _ _ _ ih =>
    rw [ih (ahead_refl _ _), here_or_later_iff, later_iff]
    exact ⟨.inr, fun hor => hor.resolve_left (not_matchesApart hsame hstar)⟩
  | case5 pattern star c rest hsame hstar hback' _ _ hnone =>
    match star, hback' with
    | none, _ =>
      refine iff_of_false Bool.false_ne_true fun hor => ?_
      obtain hcut | ⟨_, _, hsome, _⟩ := hor
      · exact not_matchesApart hsame hstar hcut
      · cases hsome
    | some (behind, []), hback => exact absurd (hback _ rfl) (by simp)
    | some (behind, head :: swallowed), _ => exact (hnone _ _ _ _ _ rfl HEq.rfl HEq.rfl).elim

theorem glob_iff (pattern text : List Char) :
    glob pattern text = true ↔ MatchesApart pattern text := by
  have hahead : Ahead pattern text none := by
    intro _ _ hstar
    cases hstar
  unfold glob
  rw [globWalk_iff pattern text none _ hahead, or_iff_left]
  intro h
  obtain ⟨_, _, hstar, _⟩ := h
  cases hstar

/-- Every match that the walk finds is one. -/
theorem MatchesApart.matches {pattern text : List Char} (h : MatchesApart pattern text) :
    Matches pattern text := h.mono fun _ _ _ => trivial

/-- Where the text has no `*` of its own, a star takes whatever it has to. -/
theorem Matches.apart {pattern text : List Char} (htext : '*' ∉ text) (h : Matches pattern text) :
    MatchesApart pattern text := by
  induction h with
  | done => exact .done
  | one c _ ih => exact .one c (ih fun hmem => htext (List.mem_cons_of_mem c hmem))
  | self hstar hone _ ih =>
    exact .self hstar hone (ih fun hmem => htext (List.mem_cons_of_mem _ hmem))
  | star piece _ _ ih =>
    refine .star piece (fun hhead => ?_) (ih fun hmem => htext (List.mem_append_right piece hmem))
    exact absurd (List.mem_of_mem_head? hhead) htext

/-- On a text without `*`, as host names are, `glob` is the relation. -/
theorem glob_iff_of_notMem {pattern text : List Char} (htext : '*' ∉ text) :
    glob pattern text = true ↔ Matches pattern text := by
  rw [glob_iff]
  exact ⟨MatchesApart.matches, Matches.apart htext⟩

/-- `glob` decides the relation unless the text can only be cut by a star that
takes a `*` of the text along with more, or leaves it to what follows. -/
theorem glob_exact_iff (pattern text : List Char) :
    (glob pattern text = true ↔ Matches pattern text) ↔
      (Matches pattern text → MatchesApart pattern text) := by
  rw [glob_iff]
  exact ⟨fun h => h.mpr, fun h => ⟨MatchesApart.matches, h⟩⟩

/-- A star before a text that begins with one. -/
theorem starName_not_exact :
    ¬ (glob ['*'] ['*', 'x'] = true ↔ Matches ['*'] ['*', 'x']) := by
  have hcut : Matches ['*'] (['*', 'x'] ++ []) := .star _ trivial .done
  have hwalk : ¬ MatchesApart ['*'] ['*', 'x'] := by
    rw [matchesApart_star_cons]
    exact not_cut_nil_cons
  rw [glob_iff]
  exact fun h => hwalk (h.mpr hcut)

end UnifiedApi.HostFilter

import Mathlib.Data.List.Forall2
import Mathlib.Data.List.Infix
import RoutingRules.Condition.DomainPattern
import RoutingRules.Proofs.Text.Regex

/-!
# Patterns with wildcards

What a pattern covers, with and without a meaning of its own for a leading `+.`, and that the
regular expression made from a pattern finds exactly the domains that the pattern covers.

A pattern covers a domain by trying what its wildcards could stand for.  {lit}`DomainPattern.Says`
tells the same without a search: the domain is cut into runs, one for each character of the pattern.

Main results:

- Theorem {lit}`DomainPattern.covers_star_iff`: a star stands for any text.
- Theorem {lit}`DomainPattern.coversLevels_plus_iff`: a leading `+.` stands for nothing or for some
  text and a dot.
- Theorem {lit}`DomainPattern.coversLevels_iff_says`: a pattern covers the domains that can be cut
  into the runs that it says.
- Theorem {lit}`DomainPattern.covers_eq_coversLevels_iff`: when this meaning makes a difference.
- Theorem {lit}`DomainPattern.finds_regex_iff`: the regular expression of a pattern is read, and it
  finds what the pattern covers.
- Theorem {lit}`DomainPattern.regex_finds_iff_says`: which domains these are by their runs.
-/

namespace RoutingRules.DomainPattern

/-! ## What patterns cover -/

/-- Whether a pattern covers a domain: a star stands for any text, a question mark for one
character, and every other character for itself. -/
def covers : List Char → List Char → Bool
  | [], domain => domain.isEmpty
  | c :: pattern, domain =>
    if c = '*' then domain.tails.any (covers pattern)
    else
      match domain with
      | [] => false
      | d :: domain => (c = '?' || c = d) && covers pattern domain

/-- Whether a pattern covers a domain when a leading `+.` stands for nothing, or for a text that is
not empty and a dot. -/
def coversLevels (pattern domain : List Char) : Bool :=
  match pattern with
  | '+' :: '.' :: rest => covers rest domain || covers ('?' :: '*' :: '.' :: rest) domain
  | cs => covers cs domain

/-- Whether a character of a pattern stands for a text. -/
def StandsFor (c : Char) (run : List Char) : Prop :=
  c = '*' ∨ ∃ d, run = [d] ∧ (c = '?' ∨ c = d)

section Covers

variable {pattern domain : List Char}

/-- The first character of a pattern covers the front of a domain, and the others cover the rest. -/
theorem covers_cons_iff {c : Char} :
    covers (c :: pattern) domain = true ↔
      ∃ run rest, domain = run ++ rest ∧ StandsFor c run ∧ covers pattern rest = true := by
  by_cases hstar : c = '*'
  · have htails : covers (c :: pattern) domain = domain.tails.any (covers pattern) := by
      rw [hstar]
      rfl
    rw [htails, List.any_eq_true]
    constructor
    · rintro ⟨rest, hrest, hcovers⟩
      obtain ⟨run, rfl⟩ := (List.mem_tails _ _).1 hrest
      exact ⟨run, rest, rfl, .inl hstar, hcovers⟩
    · rintro ⟨run, rest, rfl, _, hcovers⟩
      exact ⟨rest, (List.mem_tails _ _).2 (List.suffix_append run rest), hcovers⟩
  · cases domain with
    | nil =>
      have hfalse : covers (c :: pattern) [] = false := by simp [covers, hstar]
      refine iff_of_false (by simp [hfalse]) ?_
      rintro ⟨run, rest, hempty, hstands | ⟨d, rfl, _⟩, _⟩
      · exact hstar hstands
      · cases hempty
    | cons d domain =>
      have hcons : covers (c :: pattern) (d :: domain) =
          ((c = '?' || c = d) && covers pattern domain) := by simp [covers, hstar]
      simp only [hcons, Bool.and_eq_true, Bool.or_eq_true, decide_eq_true_eq]
      constructor
      · rintro ⟨hd, hcovers⟩
        exact ⟨[d], domain, rfl, .inr ⟨d, rfl, hd⟩, hcovers⟩
      · rintro ⟨run, rest, hdomain, hstands | ⟨e, rfl, he⟩, hcovers⟩
        · exact absurd hstands hstar
        · obtain ⟨rfl, rfl⟩ := List.cons.inj hdomain
          exact ⟨he, hcovers⟩

/-- A star stands for any text. -/
theorem covers_star_iff :
    covers ('*' :: pattern) domain = true ↔
      ∃ run rest, domain = run ++ rest ∧ covers pattern rest = true := by
  simp [covers_cons_iff, StandsFor]

/-- A question mark stands for one character. -/
theorem covers_question_iff :
    covers ('?' :: pattern) domain = true ↔
      ∃ c rest, domain = c :: rest ∧ covers pattern rest = true := by
  rw [covers_cons_iff]
  constructor
  · rintro ⟨_, rest, rfl, hstar | ⟨c, rfl, _⟩, hcovers⟩
    · cases hstar
    · exact ⟨c, rest, rfl, hcovers⟩
  · rintro ⟨c, rest, rfl, hcovers⟩
    exact ⟨[c], rest, rfl, .inr ⟨c, rfl, .inl rfl⟩, hcovers⟩

/-- Every other character stands for itself. -/
theorem covers_literal_iff {c : Char} (hstar : c ≠ '*') (hquestion : c ≠ '?') :
    covers (c :: pattern) domain = true ↔
      ∃ rest, domain = c :: rest ∧ covers pattern rest = true := by
  rw [covers_cons_iff]
  constructor
  · rintro ⟨_, rest, rfl, hstands | ⟨d, rfl, hstands | rfl⟩, hcovers⟩
    · exact absurd hstands hstar
    · exact absurd hstands hquestion
    · exact ⟨rest, rfl, hcovers⟩
  · rintro ⟨rest, rfl, hcovers⟩
    exact ⟨[c], rest, rfl, .inr ⟨c, rfl, .inr rfl⟩, hcovers⟩

/-- A leading `+.` stands for nothing or for some text and a dot. -/
theorem coversLevels_plus_iff {rest : List Char} :
    coversLevels ('+' :: '.' :: rest) domain = true ↔ covers rest domain = true ∨
      ∃ levels below, levels ≠ [] ∧ domain = levels ++ '.' :: below ∧ covers rest below = true := by
  have hdot : ∀ {text : List Char}, covers ('.' :: rest) text = true ↔
      ∃ below, text = '.' :: below ∧ covers rest below = true :=
    covers_literal_iff (by decide) (by decide)
  rw [coversLevels, Bool.or_eq_true, covers_question_iff]
  simp only [covers_star_iff, hdot]
  refine or_congr_right ⟨?_, ?_⟩
  · rintro ⟨c, _, rfl, run, _, rfl, below, rfl, hcovers⟩
    exact ⟨c :: run, below, List.cons_ne_nil _ _, rfl, hcovers⟩
  · rintro ⟨levels, below, hne, rfl, hcovers⟩
    obtain ⟨c, run, rfl⟩ := List.exists_cons_of_ne_nil hne
    exact ⟨c, run ++ '.' :: below, rfl, run, _, rfl, below, rfl, hcovers⟩

/-- Other patterns cover what they cover without a meaning of their own for a leading `+.`. -/
theorem coversLevels_of_not_plus (h : ∀ rest, pattern ≠ '+' :: '.' :: rest) :
    coversLevels pattern domain = covers pattern domain := by
  unfold coversLevels
  split
  next rest => exact absurd rfl (h rest)
  next => rfl

end Covers

/-! ## Runs of characters -/

/-- Whether a domain can be cut into runs that the characters of a pattern stand for, one run for
each of them in their order. -/
def Spells (pattern domain : List Char) : Prop :=
  ∃ runs : List (List Char), List.Forall₂ StandsFor pattern runs ∧ domain = runs.flatten

/-- The domains that a pattern says. -/
inductive Says : List Char → List Char → Prop
  /-- A leading `+.` stands for nothing. -/
  | itself {rest domain : List Char} (hrest : Spells rest domain) :
      Says ('+' :: '.' :: rest) domain
  /-- A leading `+.` stands for one or more characters and a dot. -/
  | below {rest levels domain : List Char} (hlevels : levels ≠ []) (hrest : Spells rest domain) :
      Says ('+' :: '.' :: rest) (levels ++ '.' :: domain)
  /-- Without a leading `+.` there are only wildcards and characters that stand for themselves. -/
  | plain {pattern domain : List Char} (hplain : ∀ rest, pattern ≠ '+' :: '.' :: rest)
      (hpattern : Spells pattern domain) : Says pattern domain

section Runs

variable {pattern domain : List Char}

theorem spells_nil_iff : Spells [] domain ↔ domain = [] := by
  simp [Spells]

/-- The run of the first character stands at the front, and the other runs make up the rest. -/
theorem spells_cons_iff {c : Char} :
    Spells (c :: pattern) domain ↔
      ∃ run rest, domain = run ++ rest ∧ StandsFor c run ∧ Spells pattern rest := by
  constructor
  · rintro ⟨runs, hruns, rfl⟩
    rcases List.forall₂_cons_left_iff.1 hruns with ⟨run, others, hrun, hothers, rfl⟩
    exact ⟨run, others.flatten, List.flatten_cons, hrun, others, hothers, rfl⟩
  · rintro ⟨run, rest, rfl, hrun, others, hothers, rfl⟩
    exact ⟨run :: others, .cons hrun hothers, List.flatten_cons.symm⟩

/-- Trying what the wildcards could stand for finds a way to cut the domain where there is one. -/
theorem covers_iff_spells : covers pattern domain = true ↔ Spells pattern domain := by
  induction pattern generalizing domain with
  | nil =>
    rw [spells_nil_iff]
    exact List.isEmpty_iff
  | cons c pattern ih =>
    rw [covers_cons_iff, spells_cons_iff]
    refine exists_congr fun run => exists_congr fun rest => ?_
    rw [ih]

/-- A pattern covers what it says. -/
theorem coversLevels_iff_says : coversLevels pattern domain = true ↔ Says pattern domain := by
  constructor
  · intro h
    by_cases hplus : ∃ rest, pattern = '+' :: '.' :: rest
    · rcases hplus with ⟨rest, rfl⟩
      rcases coversLevels_plus_iff.1 h with hcovers | ⟨levels, below, hne, rfl, hcovers⟩
      · exact .itself (covers_iff_spells.1 hcovers)
      · exact .below hne (covers_iff_spells.1 hcovers)
    · have hplain := not_exists.1 hplus
      rw [coversLevels_of_not_plus hplain] at h
      exact .plain hplain (covers_iff_spells.1 h)
  · intro h
    cases h with
    | itself hrest => exact coversLevels_plus_iff.2 (.inl (covers_iff_spells.2 hrest))
    | below hne hrest =>
      exact coversLevels_plus_iff.2 (.inr ⟨_, _, hne, rfl, covers_iff_spells.2 hrest⟩)
    | plain hplain hpattern =>
      rw [coversLevels_of_not_plus hplain]
      exact covers_iff_spells.2 hpattern

end Runs

/-! ## Domains that show what a pattern covers -/

/-- A pattern with letters for its wildcards. -/
def sample (pattern : List Char) : List Char :=
  pattern.map fun c => if c = '*' ∨ c = '?' then 'a' else c

section Sample

variable {pattern domain : List Char}

/-- A pattern covers its sample. -/
theorem covers_sample : covers pattern (sample pattern) = true := by
  induction pattern with
  | nil => rfl
  | cons c pattern ih =>
    refine covers_cons_iff.2 ⟨[_], sample pattern, rfl, ?_, ih⟩
    by_cases hstar : c = '*'
    · exact .inl hstar
    · refine .inr ⟨_, rfl, ?_⟩
      by_cases hquestion : c = '?' <;> simp [hstar, hquestion]

/-- A character that is no wildcard and is not put in for one is as often in the sample of a pattern
as in the pattern. -/
theorem count_sample {c : Char} (hstar : c ≠ '*') (hquestion : c ≠ '?') (ha : c ≠ 'a') :
    (sample pattern).count c = pattern.count c := by
  induction pattern with
  | nil => rfl
  | cons d pattern ih =>
    have hhead : ((if d = '*' ∨ d = '?' then 'a' else d) == c) = (d == c) := by
      split
      next hwild =>
        rcases hwild with rfl | rfl <;> simp [Ne.symm hstar, Ne.symm hquestion, Ne.symm ha]
      next => rfl
    rw [sample, List.map_cons, List.count_cons, List.count_cons, hhead]
    exact congrArg (· + _) ih

/-- A domain has every character at least as often as a pattern that covers it, wildcards apart. -/
theorem count_le_of_covers {c : Char} (hstar : c ≠ '*') (hquestion : c ≠ '?')
    (h : covers pattern domain = true) : pattern.count c ≤ domain.count c := by
  induction pattern generalizing domain with
  | nil => exact Nat.zero_le _
  | cons d pattern ih =>
    obtain ⟨run, rest, rfl, hstands, hrest⟩ := covers_cons_iff.1 h
    have hhead : [d].count c ≤ run.count c := by
      rcases hstands with rfl | ⟨e, rfl, rfl | rfl⟩
      · simp [Ne.symm hstar]
      · simp [Ne.symm hquestion]
      · exact Nat.le_refl _
    rw [← List.singleton_append, List.count_append, List.count_append]
    exact Nat.add_le_add hhead (ih hrest)

end Sample

/-! ## Leading `+.` with and without a meaning of its own -/

section Plus

variable {first : Char} {rest domain : List Char}

/-- Whatever stands in front of the dot, unless it stands for nothing, stands for a level. -/
theorem coversLevels_of_covers (h : covers (first :: '.' :: rest) domain = true)
    (hhead : domain.head? ≠ some '.') : coversLevels ('+' :: '.' :: rest) domain = true := by
  obtain ⟨run, behind, rfl, _, hbehind⟩ := covers_cons_iff.1 h
  obtain ⟨below, rfl, hbelow⟩ := (covers_literal_iff (by decide) (by decide)).1 hbehind
  refine coversLevels_plus_iff.2 (.inr ⟨run, below, ?_, rfl, hbelow⟩)
  rintro rfl
  exact hhead rfl

/-- With a dot in front a pattern no longer covers its sample. -/
theorem covers_dotted_sample : covers (first :: '.' :: rest) (sample rest) = false := by
  rw [← Bool.not_eq_true]
  intro h
  -- The sample has one dot less than the pattern, and no wildcard can make up for it.
  have hcount := count_le_of_covers (by decide : '.' ≠ '*') (by decide) h
  rw [count_sample (by decide) (by decide) (by decide), List.count_cons, List.count_cons_self]
    at hcount
  omega

/-- A leading `+.` means the same as any other character and a dot only where a line break stops the
pattern from covering anything. -/
theorem covers_eq_coversLevels_iff :
    (∀ domain, '\n' ∉ domain →
      covers (first :: '.' :: rest) domain = coversLevels ('+' :: '.' :: rest) domain) ↔
      '\n' ∈ rest := by
  constructor
  · intro h
    by_contra hline
    -- Where nothing stands for the `+.`, the sample of what is behind it tells them apart.
    have hsample : '\n' ∉ sample rest := by
      rw [← List.count_eq_zero] at hline ⊢
      rwa [count_sample (by decide) (by decide) (by decide)]
    have hlevels : coversLevels ('+' :: '.' :: rest) (sample rest) = true :=
      coversLevels_plus_iff.2 (.inl covers_sample)
    rw [← h _ hsample, covers_dotted_sample] at hlevels
    cases hlevels
  · intro hline domain hdomain
    have hfalse : ∀ pattern, '\n' ∈ pattern → covers pattern domain = false := by
      intro pattern hpattern
      rw [← Bool.not_eq_true]
      intro h
      have hcount := count_le_of_covers (by decide : '\n' ≠ '*') (by decide) h
      rw [List.count_eq_zero.2 hdomain] at hcount
      exact List.count_eq_zero.1 (Nat.le_zero.1 hcount) hpattern
    rw [coversLevels, hfalse _ (by simp [hline]), hfalse _ hline, hfalse _ (by simp [hline])]
    rfl

end Plus

/-! ## Regular expressions of patterns -/

/-- A character of a pattern as it is read back from its regular expression. -/
def partOf (c : Char) : Regex :=
  if c = '*' then .star .any else if c = '?' then .any else .char c

/-- A sign with a backslash in front of it stands for itself. -/
theorem readFrom_sign {enclosing : List (List Regex)} {items : List Regex} {c : Char}
    (h : isRegexSign c = true) (cs : List Char) :
    Regex.readFrom enclosing items ('\\' :: c :: cs) =
      Regex.readFrom enclosing (.char c :: items) cs := by
  have hplain : c.isAlphanum = false := by
    have hall : regexSigns.all (fun c => !c.isAlphanum) = true := by decide
    simpa using List.all_eq_true.1 hall c (by simpa [isRegexSign] using h)
  rw [Regex.readFrom, hplain]
  rfl

/-- A character that is not a sign stands for itself. -/
theorem readFrom_plain {enclosing : List (List Regex)} {items : List Regex} {c : Char}
    (h : isRegexSign c = false) (cs : List Char) :
    Regex.readFrom enclosing items (c :: cs) =
      Regex.readFrom enclosing (.char c :: items) cs := by
  have hsigns : ∀ d, isRegexSign d = true → c ≠ d := by
    rintro d hd rfl
    exact Bool.false_ne_true (h.symm.trans hd)
  have hother : ['|', '[', ']', '{', '}'].contains c = false := by
    rw [← Bool.not_eq_true, List.contains_iff_mem]
    intro hmem
    have hall : ['|', '[', ']', '{', '}'].all isRegexSign = true := by decide
    exact hsigns c (List.all_eq_true.1 hall c hmem) rfl
  rw [Regex.readFrom, hother]
  · rfl
  all_goals exact hsigns _ (by decide)

/-- A character of a pattern is read back from its regular expression. -/
theorem readFrom_regexPart {enclosing : List (List Regex)} {items : List Regex} (c : Char)
    (cs : List Char) :
    Regex.readFrom enclosing items (regexPart c ++ cs) =
      Regex.readFrom enclosing (partOf c :: items) cs := by
  unfold regexPart partOf
  split
  next => rfl
  next =>
    split
    next => rfl
    next =>
      unfold regexLiteral
      split
      next hsign => exact readFrom_sign hsign cs
      next hplain => exact readFrom_plain (eq_false_of_ne_true hplain) cs

/-- The characters of a pattern are read back from their regular expression. -/
theorem readFrom_flatMap_regexPart {enclosing : List (List Regex)} {items : List Regex}
    (pattern cs : List Char) :
    Regex.readFrom enclosing items (pattern.flatMap regexPart ++ cs) =
      Regex.readFrom enclosing ((pattern.map partOf).reverse ++ items) cs := by
  induction pattern generalizing items with
  | nil => rfl
  | cons c pattern ih =>
    rw [List.flatMap_cons, List.append_assoc, readFrom_regexPart, ih, List.map_cons,
      List.reverse_cons, List.append_assoc, List.singleton_append]

/-- What a leading `+.` is read back as. -/
def levelsPart : Regex :=
  .optional (.group (.inOrder [.plus .any, .char '.']))

/-- The parts of a pattern as they are read back from its regular expression. -/
def partsOf : List Char → List Regex
  | '+' :: '.' :: rest => levelsPart :: rest.map partOf
  | cs => cs.map partOf

theorem partsOf_of_not_plus {pattern : List Char} (h : ∀ rest, pattern ≠ '+' :: '.' :: rest) :
    partsOf pattern = pattern.map partOf := by
  unfold partsOf
  split
  next rest => exact absurd rfl (h rest)
  next => rfl

/-- The regular expression of a pattern is read as its parts between both anchors. -/
theorem ofText?_regex (pattern : String) :
    Regex.ofText? (regex pattern) =
      some (.inOrder (.start :: (partsOf pattern.toList ++ [.finish]))) := by
  -- Behind what was read already come the characters of the pattern and the last anchor.
  have hrest : ∀ (items : List Regex) (cs : List Char),
      Regex.readFrom [] (items ++ [.start]) (cs.flatMap regexPart ++ ['$']) =
        some (.inOrder (.start :: (items.reverse ++ cs.map partOf ++ [.finish]))) := by
    intro items cs
    rw [readFrom_flatMap_regexPart]
    simp [Regex.readFrom]
  rw [Regex.ofText?, regex, String.toList_ofList]
  split
  next rest hplus =>
    rw [hplus]
    exact hrest [levelsPart] rest
  next hplain =>
    rw [partsOf_of_not_plus hplain]
    exact hrest [] pattern.toList

/-- What a character is read back as matches what the character stands for. -/
theorem matches_partOf_iff {c : Char} {before part after : List Char} (hline : '\n' ∉ part) :
    (partOf c).Matches before part after ↔ StandsFor c part := by
  unfold partOf StandsFor
  by_cases hstar : c = '*'
  · rw [if_pos hstar]
    exact iff_of_true (Regex.matches_star_any_iff.2 hline) (.inl hstar)
  · rw [if_neg hstar, or_iff_right hstar]
    by_cases hquestion : c = '?'
    · rw [if_pos hquestion]
      constructor
      · rintro ⟨d, _, rfl⟩
        exact ⟨d, rfl, .inl hquestion⟩
      · rintro ⟨d, rfl, _⟩
        exact ⟨d, fun hd => hline (hd ▸ List.mem_singleton_self _), rfl⟩
    · rw [if_neg hquestion]
      constructor
      · rintro rfl
        exact ⟨c, rfl, .inr rfl⟩
      · rintro ⟨d, rfl, hstands | rfl⟩
        · exact absurd hstands hquestion
        · rfl

/-- What the characters of a pattern are read back as matches what the pattern covers. -/
theorem matches_map_partOf_iff {pattern before part after : List Char} (hline : '\n' ∉ part) :
    (Regex.inOrder (pattern.map partOf)).Matches before part after ↔
      covers pattern part = true := by
  -- What stands around the part matters to anchors only, and there are none among the parts.
  induction pattern generalizing before part with
  | nil => exact List.isEmpty_iff.symm
  | cons c pattern ih =>
    rw [List.map_cons, Regex.matches_inOrder_cons, covers_cons_iff]
    refine exists_congr fun run => exists_congr fun rest => and_congr_right ?_
    rintro rfl
    rw [List.mem_append, not_or] at hline
    exact and_congr (matches_partOf_iff hline.1) (ih hline.2)

/-- What a leading `+.` is read back as matches nothing, or a text that is not empty and a dot. -/
theorem matches_levelsPart_iff {before part after : List Char} (hline : '\n' ∉ part) :
    levelsPart.Matches before part after ↔ part = [] ∨ ∃ run, run ≠ [] ∧ part = run ++ ['.'] := by
  refine or_congr_right ⟨?_, ?_⟩
  · rintro ⟨run, _, rfl, hrun, dot, _, rfl, rfl, rfl⟩
    exact ⟨run, (Regex.matches_plus_any_iff.1 hrun).1, rfl⟩
  · rintro ⟨run, hne, rfl⟩
    rw [List.mem_append, not_or] at hline
    exact ⟨run, ['.'], rfl, Regex.matches_plus_any_iff.2 ⟨hne, hline.1⟩, ['.'], [], rfl, rfl, rfl⟩

/-- The parts of a pattern match what the pattern covers. -/
theorem matches_partsOf_iff {pattern before part after : List Char} (hline : '\n' ∉ part) :
    (Regex.inOrder (partsOf pattern)).Matches before part after ↔
      coversLevels pattern part = true := by
  by_cases hplus : ∃ rest, pattern = '+' :: '.' :: rest
  · obtain ⟨rest, rfl⟩ := hplus
    rw [partsOf, Regex.matches_inOrder_cons, coversLevels_plus_iff]
    constructor
    · rintro ⟨front, below, rfl, hfront, hbelow⟩
      rw [List.mem_append, not_or] at hline
      have hcovers := (matches_map_partOf_iff hline.2).1 hbelow
      rcases (matches_levelsPart_iff hline.1).1 hfront with rfl | ⟨run, hne, rfl⟩
      · exact .inl hcovers
      · exact .inr ⟨run, below, hne, by simp, hcovers⟩
    · rintro (hcovers | ⟨run, below, hne, rfl, hcovers⟩)
      · refine ⟨[], part, rfl, .inl rfl, (matches_map_partOf_iff hline).2 hcovers⟩
      · have hparts : run ++ '.' :: below = (run ++ ['.']) ++ below := by simp
        rw [hparts, List.mem_append, not_or] at hline
        exact ⟨run ++ ['.'], below, hparts,
          (matches_levelsPart_iff hline.1).2 (.inr ⟨run, hne, rfl⟩),
          (matches_map_partOf_iff hline.2).2 hcovers⟩
  · have hplain : ∀ rest, pattern ≠ '+' :: '.' :: rest := not_exists.1 hplus
    rw [coversLevels_of_not_plus hplain, ← matches_map_partOf_iff hline,
      partsOf_of_not_plus hplain]

/-- The regular expression of a pattern is read, and it finds what the pattern covers. -/
theorem finds_regex_iff (pattern : String) :
    ∃ r, Regex.ofText? (regex pattern) = some r ∧
      ∀ domain : List Char, '\n' ∉ domain →
        (r.Finds domain ↔ coversLevels pattern.toList domain = true) :=
  ⟨_, ofText?_regex pattern, fun _ hline =>
    Regex.finds_anchored_iff.trans (matches_partsOf_iff hline)⟩

/-- The regular expression of a pattern is read, and in a text without line breaks it finds
something just when the pattern says the text: a star stands for any run of characters, a question
mark for one character, a leading `+.` for nothing or for one or more characters and a dot, and
everything else for itself. -/
theorem regex_finds_iff_says (pattern : String) :
    ∃ r, Regex.ofText? (regex pattern) = some r ∧
      ∀ domain : String, '\n' ∉ domain.toList →
        (r.Finds domain.toList ↔ Says pattern.toList domain.toList) := by
  rcases finds_regex_iff pattern with ⟨r, hread, hfinds⟩
  refine ⟨r, hread, ?_⟩
  intro domain hline
  rw [hfinds _ hline, coversLevels_iff_says]

/-- The regular expression of a pattern with all wildcards finds two levels in front of a name. -/
theorem regex_finds_iff_says_wildPattern :
    '\n' ∉ "x.y.a.b-c".toList ∧
      ∃ r, Regex.ofText? (regex "+.?.*-c") = some r ∧ r.Finds "x.y.a.b-c".toList ∧
        Says "+.?.*-c".toList "x.y.a.b-c".toList := by
  have hline : '\n' ∉ "x.y.a.b-c".toList := by decide +kernel
  have hsays : Says "+.?.*-c".toList "x.y.a.b-c".toList := by
    rw [← coversLevels_iff_says]
    decide +kernel
  rcases regex_finds_iff_says "+.?.*-c" with ⟨r, hread, hfinds⟩
  exact ⟨hline, r, hread, (hfinds _ hline).2 hsays, hsays⟩

end RoutingRules.DomainPattern

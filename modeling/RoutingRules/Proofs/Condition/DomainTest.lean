import RoutingRules.Line.Client
import RoutingRules.Proofs.Condition.Made
import RoutingRules.Proofs.Condition.Wildcard

/-!
# What clients ask of domains

A condition on a domain is written as a line for some clients and as a field for others.  This module
says what each of them is asked, and whether they are asked the same.

An entry of a domain list that is a name, with or without what is below it, is asked alike.  A
pattern becomes a wildcard in a line and a regular expression in a field, and only the latter knows
a leading `+.`, which also stands for nothing: in the line of an entry of a domain list a star and
a dot stand for it, and in the line of a pattern it stands for itself.

Main results:

- Definition {lit}`DomainTest.Holds`: when a domain passes a test.
- Theorem {lit}`DomainTest.agree_plus_iff`: when a wildcard and the regular expression made from a
  pattern with a leading `+.` ask the same.
- Theorem {lit}`Condition.agree_iff_of_wildcard`: when they do for any pattern.
- Theorem {lit}`domainTests_agree_iff`: for which conditions all clients are asked the same.
-/

namespace RoutingRules

/-- What a client is asked about a domain. -/
inductive DomainTest where
  /-- Whether it is a given one. -/
  | exact (name : String)
  /-- Whether it is a given one or below it. -/
  | within (name : String)
  /-- Whether a pattern covers it; a leading `+.` has no meaning of its own. -/
  | wildcard (pattern : String)
  /-- Whether a regular expression finds something in it. -/
  | regex (expression : Regex)

namespace DomainTest

/-- Whether a domain passes a test. -/
def Holds : DomainTest → String → Prop
  | exact name, domain => domain = name
  | within name, domain => domain = name ∨ ∃ below, domain = below ++ "." ++ name
  | wildcard pattern, domain => DomainPattern.covers pattern.toList domain.toList = true
  | regex expression, domain => expression.Finds domain.toList

/-- The test that the fields of a line stand for. -/
def ofLine? : LineClient → List String → Option DomainTest
  | .clash, ["DOMAIN", name] => some (exact name)
  | .clash, ["DOMAIN-SUFFIX", name] => some (within name)
  | .clash, ["DOMAIN-WILDCARD", pattern] => some (wildcard pattern)
  | .quantumult, ["host", name] => some (exact name)
  | .quantumult, ["host-suffix", name] => some (within name)
  | .quantumult, ["host-wildcard", pattern] => some (wildcard pattern)
  | _, _ => none

/-- The test that the field of a rule stands for. -/
def ofField? : String × Json → Option DomainTest
  | ("domain", .str name) => some (exact name)
  | ("domain_suffix", .str name) => some (within name)
  | ("domain_regex", .str expression) => (Regex.ofText? expression).map regex
  | _ => none

/-- Whether two tests let the same domains in one line pass. -/
def Agree (t u : DomainTest) : Prop :=
  ∀ domain, '\n' ∉ domain.toList → (t.Holds domain ↔ u.Holds domain)

/-- Whether all domains in one line that pass a test pass another one, those that start with a dot
apart. -/
def Implies (t u : DomainTest) : Prop :=
  ∀ domain, '\n' ∉ domain.toList → domain.toList.head? ≠ some '.' → t.Holds domain → u.Holds domain

/-! ## Wildcards and regular expressions -/

section Patterns

variable {value line : String} {r : Regex}

/-- A regular expression made from a pattern asks whether the pattern covers a domain. -/
theorem holds_regex_iff (hr : Regex.ofText? (DomainPattern.regex value) = some r) {domain : String}
    (hline : '\n' ∉ domain.toList) :
    (regex r).Holds domain ↔ DomainPattern.coversLevels value.toList domain.toList = true := by
  obtain ⟨other, hother, hfinds⟩ := DomainPattern.finds_regex_iff value
  obtain rfl := Option.some.inj (hr.symm.trans hother)
  exact hfinds _ hline

/-- Without a leading `+.` a pattern as a wildcard and its regular expression ask the same. -/
theorem agree_of_not_plus (hr : Regex.ofText? (DomainPattern.regex value) = some r)
    (hplain : ∀ rest, value.toList ≠ '+' :: '.' :: rest) : Agree (wildcard value) (regex r) := by
  intro domain hdomain
  rw [holds_regex_iff hr hdomain, DomainPattern.coversLevels_of_not_plus hplain]
  rfl

variable {first : Char} {rest : List Char}

/-- A wildcard that has a character in place of a leading plus implies the regular expression. -/
theorem implies_of_plus (hr : Regex.ofText? (DomainPattern.regex value) = some r)
    (hvalue : value.toList = '+' :: '.' :: rest) (hpattern : line.toList = first :: '.' :: rest) :
    Implies (wildcard line) (regex r) := by
  intro domain hdomain hhead hholds
  rw [holds_regex_iff hr hdomain, hvalue]
  rw [Holds, hpattern] at hholds
  exact DomainPattern.coversLevels_of_covers hholds hhead

/-- It asks the same only where a line break stops the pattern from covering anything. -/
theorem agree_plus_iff (hr : Regex.ofText? (DomainPattern.regex value) = some r)
    (hvalue : value.toList = '+' :: '.' :: rest) (hpattern : line.toList = first :: '.' :: rest) :
    Agree (wildcard line) (regex r) ↔ '\n' ∈ rest := by
  rw [← @DomainPattern.covers_eq_coversLevels_iff first rest]
  constructor
  · intro h domain hdomain
    have hsame := h (String.ofList domain) (by rwa [String.toList_ofList])
    rw [holds_regex_iff hr (by rwa [String.toList_ofList]), hvalue, Holds, hpattern,
      String.toList_ofList] at hsame
    exact Bool.eq_iff_iff.2 hsame
  · intro h domain hdomain
    rw [holds_regex_iff hr hdomain, hvalue, Holds, hpattern, h _ hdomain]

end Patterns

end DomainTest

/-! ## Conditions -/

namespace Condition

/-- What a client with lines is asked by a condition on a domain. -/
def lineTest? (c : Condition) (client : LineClient) : Option DomainTest :=
  (c.lineFields client.client).toOption.bind (DomainTest.ofLine? client)

/-- What sing-box is asked by a condition on a domain. -/
def ruleTest? (c : Condition) : Option DomainTest :=
  c.singBoxField.toOption.bind DomainTest.ofField?

/-- Whether a leading `+.` has a meaning for sing-box that is not in the lines of a condition. -/
def losesLevels (c : Condition) : Bool :=
  match (c.value?.getD "").toList with
  | '+' :: '.' :: rest =>
    (c.kind = .domainWildcard || rest.contains '*') && !rest.contains '\n'
  | _ => false

variable {value : String} {mark : Option Bool} {client : LineClient}

theorem lineTest?_domainWildcard :
    (on .domainWildcard value mark).lineTest? client = some (.wildcard value) := by
  cases client <;> rfl

theorem lineTest?_domainListItem :
    (on .domainListItem value mark).lineTest? client =
      match DomainPattern.read value with
      | .suffix name => some (.within name)
      | .wildcard pattern => some (.wildcard (DomainPattern.starred pattern))
      | .exact domain => some (.exact domain) := by
  have hwritten : (on .domainListItem value mark).written =
      ((decomposed value).1, some (decomposed value).2) := rfl
  rw [lineTest?, lineFields, hwritten, decomposed]
  cases client <;> cases DomainPattern.read value <;> rfl

theorem ruleTest?_domainWildcard :
    (on .domainWildcard value mark).ruleTest? =
      (Regex.ofText? (DomainPattern.regex value)).map .regex :=
  rfl

theorem ruleTest?_domainListItem :
    (on .domainListItem value mark).ruleTest? =
      match DomainPattern.read value with
      | .suffix name => some (.within name)
      | .wildcard pattern => (Regex.ofText? (DomainPattern.regex pattern)).map .regex
      | .exact domain => some (.exact domain) := by
  show DomainTest.ofField? (domainItemField value) = _
  unfold domainItemField
  cases DomainPattern.read value <;> rfl

theorem losesLevels_of_plus {kind : Kind} {rest : List Char}
    (hvalue : value.toList = '+' :: '.' :: rest) :
    (on kind value mark).losesLevels =
      ((kind = .domainWildcard || rest.contains '*') && !rest.contains '\n') := by
  have hparts : ((on kind value mark).value?.getD "").toList = '+' :: '.' :: rest := hvalue
  unfold losesLevels
  rw [hparts]
  rfl

theorem losesLevels_of_not_plus {kind : Kind}
    (hplain : ∀ rest, value.toList ≠ '+' :: '.' :: rest) :
    (on kind value mark).losesLevels = false := by
  unfold losesLevels
  split
  next rest hvalue => exact absurd hvalue (hplain rest)
  next => rfl

/-- A wildcard on a line implies the regular expression made from the pattern, and they ask the same
unless a leading `+.` has a meaning that is lost. -/
theorem agree_iff_of_wildcard {kind : Kind} {line : String} {r : Regex}
    (hr : Regex.ofText? (DomainPattern.regex value) = some r)
    (hkind : kind = .domainWildcard ∨ '*' ∈ value.toList)
    (hplus : ∀ rest, value.toList = '+' :: '.' :: rest →
      ∃ first, line.toList = first :: '.' :: rest)
    (hplain : (∀ rest, value.toList ≠ '+' :: '.' :: rest) → line = value) :
    (DomainTest.wildcard line).Implies (.regex r) ∧
      ((DomainTest.wildcard line).Agree (.regex r) ↔
        (on kind value mark).losesLevels = false) := by
  by_cases hvalue : ∃ rest, value.toList = '+' :: '.' :: rest
  · obtain ⟨rest, hvalue⟩ := hvalue
    obtain ⟨first, hline⟩ := hplus rest hvalue
    have hwild : (kind = .domainWildcard || rest.contains '*') = true := by
      rw [hvalue] at hkind
      simpa using hkind
    refine ⟨DomainTest.implies_of_plus hr hvalue hline, ?_⟩
    rw [DomainTest.agree_plus_iff hr hvalue hline, losesLevels_of_plus hvalue, hwild]
    simp
  · have hplus : ∀ rest, value.toList ≠ '+' :: '.' :: rest := not_exists.1 hvalue
    obtain rfl := hplain hplus
    have hagree := DomainTest.agree_of_not_plus hr hplus
    exact ⟨fun domain hdomain _ => (hagree domain hdomain).1,
      iff_of_true hagree (losesLevels_of_not_plus hplus)⟩

/-- Tests that are the same imply each other and agree. -/
theorem agree_iff_of_eq {kind : Kind} {test : DomainTest}
    (h : (on kind value mark).losesLevels = false) :
    test.Implies test ∧ (test.Agree test ↔ (on kind value mark).losesLevels = false) :=
  ⟨fun _ _ _ hholds => hholds, iff_of_true (fun _ _ => Iff.rfl) h⟩

/-- Without a star an entry of a domain list has no pattern. -/
theorem losesLevels_of_not_star (h : '*' ∉ value.toList) :
    (on .domainListItem value mark).losesLevels = false := by
  by_cases hvalue : ∃ rest, value.toList = '+' :: '.' :: rest
  · obtain ⟨rest, hvalue⟩ := hvalue
    have hrest : rest.contains '*' = false := by
      rw [hvalue] at h
      simpa using h
    rw [losesLevels_of_plus hvalue, hrest]
    rfl
  · exact losesLevels_of_not_plus (not_exists.1 hvalue)

end Condition

/-- Entries of domain lists and patterns over domains are written for every client, and what a line
lets pass sing-box lets pass as well.  They ask the same about all domains in one line unless a
leading `+.` has a meaning for sing-box that is not in the line. -/
theorem domainTests_agree_iff {kind : Kind} {text : String} {mark : Option Bool} {c : Condition}
    (client : LineClient) (hkind : kind = .domainListItem ∨ kind = .domainWildcard)
    (h : Condition.make kind text mark = .ok c) :
    ∃ onLine inRule, c.lineTest? client = some onLine ∧ c.ruleTest? = some inRule ∧
      onLine.Implies inRule ∧ (onLine.Agree inRule ↔ c.losesLevels = false) := by
  obtain ⟨value, _, rfl⟩ := Condition.eq_of_make h
  obtain ⟨r, hr, _⟩ := DomainPattern.finds_regex_iff value
  rcases hkind with rfl | rfl
  · rw [Condition.lineTest?_domainListItem, Condition.ruleTest?_domainListItem]
    by_cases hstar : '*' ∈ value.toList
    · have hread : DomainPattern.read value = .wildcard value := if_pos hstar
      rw [hread]
      refine ⟨_, .regex r, rfl, by simp [hr], ?_⟩
      refine Condition.agree_iff_of_wildcard hr (.inr hstar) (fun rest hvalue => ⟨'*', ?_⟩)
        fun hplain => ?_
      · unfold DomainPattern.starred
        rw [hvalue]
        exact String.toList_ofList
      · unfold DomainPattern.starred
        split
        next rest hvalue => exact absurd hvalue (hplain rest)
        next => rfl
    · have hsame := fun test => @Condition.agree_iff_of_eq value mark .domainListItem test
        (Condition.losesLevels_of_not_star hstar)
      cases hread : DomainPattern.read value with
      | suffix name => exact ⟨_, _, rfl, rfl, hsame _⟩
      | exact domain => exact ⟨_, _, rfl, rfl, hsame _⟩
      | wildcard pattern =>
        unfold DomainPattern.read at hread
        rw [if_neg hstar] at hread
        split at hread <;> cases hread
  · refine ⟨_, .regex r, Condition.lineTest?_domainWildcard, ?_, ?_⟩
    · rw [Condition.ruleTest?_domainWildcard, hr, Option.map_some]
    · exact Condition.agree_iff_of_wildcard hr (.inl rfl) (fun rest hvalue => ⟨'+', hvalue⟩)
        fun _ => rfl

theorem domainTests_agree_iff_starredEntry :
    ∃ c onLine inRule,
      Condition.make .domainListItem " *.example.? " none = .ok c ∧
      c.lineTest? .clash = some onLine ∧ c.ruleTest? = some inRule ∧
      onLine.Implies inRule ∧ (onLine.Agree inRule ↔ c.losesLevels = false) ∧
      c.losesLevels = false := by
  have hmade : Condition.make .domainListItem " *.example.? " none =
      .ok (.on .domainListItem "*.example.?" none) := rfl
  obtain ⟨onLine, inRule, hline, hrule, himplies, hagree⟩ :=
    domainTests_agree_iff .clash (.inl rfl) hmade
  exact ⟨_, onLine, inRule, hmade, hline, hrule, himplies, hagree, by decide +kernel⟩

/-- A domain passes the regular expression of a pattern with a leading `+.` that covers it without,
but its line only lets domains pass that start with a plus. -/
theorem domainTests_plusPattern_differ :
    ∃ c onLine inRule,
      Condition.make .domainWildcard "+.example.com" none = .ok c ∧
      c.lineTest? .clash = some onLine ∧ c.ruleTest? = some inRule ∧
      '\n' ∉ "example.com".toList ∧ inRule.Holds "example.com" ∧ ¬onLine.Holds "example.com" := by
  obtain ⟨r, hr, hfinds⟩ := DomainPattern.finds_regex_iff "+.example.com"
  have hline : '\n' ∉ "example.com".toList := by decide +kernel
  have hcovers :
      DomainPattern.coversLevels "+.example.com".toList "example.com".toList = true := by
    decide +kernel
  have hmisses : ¬DomainPattern.covers "+.example.com".toList "example.com".toList = true := by
    decide +kernel
  refine ⟨.on .domainWildcard "+.example.com" none, .wildcard "+.example.com", .regex r,
    rfl, rfl, ?_, hline, (hfinds _ hline).2 hcovers, hmisses⟩
  rw [Condition.ruleTest?_domainWildcard, hr]
  rfl

end RoutingRules

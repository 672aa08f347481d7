import RoutingRules.Condition.RuleList
import RoutingRules.Proofs.Condition.Literal

/-!
# Lines of rule lists and rules on their own

A line of a rule list has the fields of a rule on its own and may have others between the value and
the mark.  Where the mark is missing the list has a default, which strict lists do not use: they
refuse a line that does not say whether addresses are looked up.

Main results:

- Theorem {lit}`Condition.ofLine_of_ofLiteral`: a rule on its own is a line of a list.
- Theorem {lit}`RuleList.classical_strict_eq_ok_iff`: what a strict list accepts.
- Theorem {lit}`RuleList.classical_strict_eq_error_iff`: with which error it fails.
- Theorem {lit}`RuleList.classical_extends_ofLiteral` puts these together.
-/

namespace RoutingRules

/-! ## Rules on their own as lines -/

namespace Condition

/-- Building a condition does not depend on the mark. -/
theorem make_setMark {kind : Kind} {text : String} {mark : Option Bool} {c : Condition}
    (h : make kind text mark = .ok c) (new : Option Bool) :
    make kind text new = .ok (c.setMark new) := by
  obtain ⟨hall, hvalue, value, hform, rfl⟩ := make_eq_ok_iff.1 h
  exact make_eq_ok_iff.2 ⟨hall, hvalue, value, hform, rfl⟩

/-- The arguments of a rule on its own are its value and what is read as the mark of a line. -/
theorem trailingMark_of_literalArgs {literal value : String} {args : List String}
    {mark : Option Bool} (h : literalArgs literal args = .ok (value, mark)) :
    ∃ others, args = value :: others ∧ trailingMark args = mark := by
  unfold literalArgs at h
  split at h
  next => cases h
  next =>
    cases h
    exact ⟨[], rfl, rfl⟩
  next other word =>
    split at h
    next read hread =>
      cases h
      exact ⟨[word], rfl, hread⟩
    next => cases h
  next => cases h

/-- A rule on its own is a line of a list, where only a mark that it lacks is taken from the
list. -/
theorem ofLine_of_ofLiteral {literal : String} {c : Condition} (h : ofLiteral literal = .ok c)
    (default : Option Bool) :
    ofLine default literal = .ok (c.setMark (c.mark?.or default)) := by
  obtain ⟨kind, hlookup, hcases⟩ := cases_of_ofLiteral h
  unfold ofLine
  rcases hfields : fieldsOf literal with ⟨token, args⟩
  simp only [hfields] at hlookup hcases ⊢
  refine Except.bind_eq_ok_iff.2 ⟨kind, hlookup, ?_⟩
  rcases hcases with ⟨hall, rfl⟩ | ⟨hall, value, mark, hargs, hmake⟩
  · rw [if_pos hall]
    rfl
  · rw [if_neg hall]
    obtain ⟨others, rfl, hmark⟩ := trailingMark_of_literalArgs hargs
    have hc : c.mark? = mark := by
      obtain ⟨form, _, rfl⟩ := eq_of_make hmake
      rfl
    simp only [hc, hmark]
    exact make_setMark hmake (mark.or default)

/-- Whether a condition that may look up addresses does not say if it does. -/
def isUnmarked (c : Condition) : Bool :=
  c.kind.mayRequireResolution && c.mark? = none

end Condition

namespace RuleList

open Condition (ofLine ofLiteral)

/-! ## Strict lists -/

/-- A line that a strict list refuses: it cannot be read, or it does not say whether addresses are
looked up. -/
inductive Refuses (line : String) : RuleError → Prop
  | unreadable {e : RuleError} (h : ofLine none line = .error e) : Refuses line e
  | unmarked {c : Condition} (h : ofLine none line = .ok c) (hmark : c.isUnmarked = true) :
      Refuses line (.unresolved line)

variable {lines : List String} {line : String} {c : Condition} {e : RuleError}

theorem strictLine_eq_ok_iff :
    strictLine line = .ok c ↔ ofLine none line = .ok c ∧ c.isUnmarked = false := by
  rw [strictLine, Except.bind_eq_ok_iff]
  constructor
  · rintro ⟨found, hfound, h⟩
    split at h
    next => cases h
    next hmark =>
      obtain rfl := Except.ok.inj h
      refine ⟨hfound, eq_false_of_ne_true fun h => hmark ?_⟩
      simpa [Condition.isUnmarked] using h
  · rintro ⟨hfound, hmark⟩
    refine ⟨c, hfound, if_neg fun h => ?_⟩
    simp [Condition.isUnmarked, h] at hmark

theorem strictLine_eq_error_iff : strictLine line = .error e ↔ Refuses line e := by
  rw [strictLine, Except.bind_eq_error_iff]
  constructor
  · rintro (h | ⟨found, hfound, h⟩)
    · exact .unreadable h
    · split at h
      next hmark =>
        obtain rfl := Except.error.inj h
        refine .unmarked hfound ?_
        simpa [Condition.isUnmarked] using hmark
      next => cases h
  · rintro (h | ⟨h, hmark⟩)
    · exact .inl h
    · refine .inr ⟨_, h, if_pos ?_⟩
      simpa [Condition.isUnmarked] using hmark

/-! ## Rule lists -/

theorem classical_strict (lines : List String) (default : Option Bool) :
    classical lines default true = lines.mapM strictLine :=
  rfl

theorem classical_lenient (lines : List String) (default : Option Bool) :
    classical lines default false = lines.mapM (ofLine default) :=
  rfl

/-- The error of the first line that a strict list refuses. -/
def RefusesFirst (lines : List String) (e : RuleError) : Prop :=
  ∃ before line after, lines = before ++ line :: after ∧
    (∀ earlier ∈ before, ∀ other, ¬ Refuses earlier other) ∧ Refuses line e

/-- A strict list is the list without a default mark, if all conditions that may look up addresses
say whether they do. -/
theorem classical_strict_eq_ok_iff {default : Option Bool} {conditions : List Condition} :
    classical lines default true = .ok conditions ↔
      classical lines none false = .ok conditions ∧
        ∀ c ∈ conditions, c.isUnmarked = false := by
  simp only [classical_strict, classical_lenient, Except.mapM_eq_ok_iff, strictLine_eq_ok_iff,
    forall₂_and_right_iff]

/-- A strict list fails with the error of the first line that it refuses. -/
theorem classical_strict_eq_error_iff {default : Option Bool} :
    classical lines default true = .error e ↔ RefusesFirst lines e := by
  have haccepts : ∀ line, (∃ c, strictLine line = .ok c) ↔ ∀ other, ¬ Refuses line other := by
    intro line
    simp only [← strictLine_eq_error_iff]
    cases strictLine line <;> simp
  rw [classical_strict, Except.mapM_eq_error_iff]
  simp only [haccepts, strictLine_eq_error_iff, RefusesFirst]

/-- A rule on its own is a list with the same condition, whose mark is the one that it has or else
the default. -/
theorem exists_classical_of_ofLiteral {literal : String} (h : ofLiteral literal = .ok c)
    (default : Option Bool) :
    ∃ found, classical [literal] default false = .ok [found] ∧ found.kind = c.kind ∧
      found.value? = c.value? ∧
      found.mark? = if c.kind = .matchAll then some true else c.mark?.or default := by
  have hfound : classical [literal] default false = .ok [c.setMark (c.mark?.or default)] := by
    rw [classical_lenient, List.mapM_cons, Condition.ofLine_of_ofLiteral h default]
    rfl
  have hmark : (c.setMark (c.mark?.or default)).mark? =
      if c.kind = .matchAll then some true else c.mark?.or default := by
    cases Condition.isLiteral_of_ofLiteral h with
    | always => rfl
    | @on kind value mark hall => exact (if_neg hall).symm
  exact ⟨_, hfound, Condition.kind_setMark c _, Condition.value?_setMark c _, hmark⟩

/-- Strict lists are lists without a default mark: a list for Quantumult X is one without a default,
and a strict list is read no matter what the default is, exactly if the list without a default is
read into conditions that all have the marks that they need, and fails otherwise with the error of
the first line that stands in the way. -/
theorem classical_without_default (default : Option Bool) (lines : List String) :
    quantumult lines = classical lines none false ∧
      (∀ other, classical lines default true = classical lines other true) ∧
      (∀ conditions, classical lines default true = .ok conditions ↔
        classical lines none false = .ok conditions ∧ ∀ c ∈ conditions, c.isUnmarked = false) ∧
      ∀ e, classical lines default true = .error e ↔ RefusesFirst lines e := by
  refine ⟨(classical_lenient lines none).symm, fun other => ?_, fun _ => classical_strict_eq_ok_iff,
    fun _ => classical_strict_eq_error_iff⟩
  rw [classical_strict, classical_strict]

/-- Lines extend rules on their own, and strict lists are lists without a default mark. -/
theorem classical_extends_ofLiteral (default : Option Bool) (lines : List String) :
    (∀ literal c, ofLiteral literal = .ok c →
      ∃ found, classical [literal] default false = .ok [found] ∧ found.kind = c.kind ∧
        found.value? = c.value? ∧
        found.mark? = if c.kind = .matchAll then some true else c.mark?.or default) ∧
      quantumult lines = classical lines none false ∧
      (∀ other, classical lines default true = classical lines other true) ∧
      (∀ conditions, classical lines default true = .ok conditions ↔
        classical lines none false = .ok conditions ∧ ∀ c ∈ conditions, c.isUnmarked = false) ∧
      ∀ e, classical lines default true = .error e ↔ RefusesFirst lines e :=
  ⟨fun _ _ h => exists_classical_of_ofLiteral h default, classical_without_default default lines⟩

/-- A list of which the second line lacks its mark and the third one cannot be read. -/
def unmarkedLines : List String :=
  ["DOMAIN,a.com,PROXY", "IP-CIDR,10.0.0.0/8,PROXY", "DOMAIN"]

theorem refusesFirst_unmarkedLines :
    RefusesFirst unmarkedLines (.unresolved "IP-CIDR,10.0.0.0/8,PROXY") := by
  refine ⟨["DOMAIN,a.com,PROXY"], "IP-CIDR,10.0.0.0/8,PROXY", ["DOMAIN"], rfl, ?_, ?_⟩
  · have hok : strictLine "DOMAIN,a.com,PROXY" = .ok (.on .domain "a.com" none) :=
      Except.toOption_eq_some_iff.1 (by decide +kernel)
    intro earlier hearlier other
    obtain rfl := List.mem_singleton.1 hearlier
    rw [← strictLine_eq_error_iff, hok]
    nofun
  · have hok : ofLine none "IP-CIDR,10.0.0.0/8,PROXY" = .ok (.on .ipCidr "10.0.0.0/8" none) :=
      Except.toOption_eq_some_iff.1 (by decide +kernel)
    exact .unmarked hok rfl

/-- A country takes the mark that it lacks from the list. -/
theorem classical_extends_ofLiteral_country :
    ofLiteral "geoip, CN" = .ok (.on .geoIp "CN" none) ∧
      (∃ found, classical ["geoip, CN"] (some false) false = .ok [found] ∧
        found.kind = .geoIp ∧ found.value? = some "CN" ∧ found.mark? = some false) ∧
      classical unmarkedLines (some false) true =
        .error (.unresolved "IP-CIDR,10.0.0.0/8,PROXY") := by
  have h : ofLiteral "geoip, CN" = .ok (.on .geoIp "CN" none) :=
    Except.toOption_eq_some_iff.1 (by decide +kernel)
  obtain ⟨hfound, -, -, -, herror⟩ := classical_extends_ofLiteral (some false) unmarkedLines
  exact ⟨h, hfound _ _ h, (herror _).2 refusesFirst_unmarkedLines⟩

end RuleList
end RoutingRules

import RoutingRules.Proofs.Condition.RuleList
import RoutingRules.Proofs.Line.Fields

/-!
# Reading a line back

The line of a condition that a rule on its own gives is read as a line of a rule list.  What is read
tests the same as the condition, unless the value of the condition is the word for the mark: then
the name of the destination stands where the value is read.

Behind the value only the last field matters, so the name of the destination is read as a mark if
it is one and no mark follows.

Main results:

- Theorem {lit}`LineEntry.ofLine_of_not_taken` and {lit}`LineEntry.ofLine_of_taken`: what is read.
- Theorem {lit}`LineEntry.readsBack_of_not_taken` and {lit}`LineEntry.readsBack_of_taken`: when this
  is the condition again.
- Theorem {lit}`LineEntry.readsBack_iff_of_ofLiteral`: which lines are read back as their
  conditions.
-/

namespace RoutingRules

open Condition (ofLine ofLiteral noResolve readMark)

/-! ## Lines with a known word -/

section Lines

variable {client : LineClient} {kind : Kind} {word : String}

/-- A line behind the word for all connections is the condition that holds always. -/
theorem ofLine_matchAll (hword : Kind.matchAll.spelling client.client = some word)
    {others : List String} (hcomma : ∀ field ∈ others, ',' ∉ field.toList)
    (default : Option Bool) :
    ofLine default (Text.joinWith "," (word :: others)) = .ok .always := by
  have hfield := Kind.isField_spelling hword
  have hfields := Condition.fieldsOf_joinWith_trim (List.forall_mem_cons.2 ⟨hfield.comma, hcomma⟩)
  rw [ofLine, hfields, hfield.trim]
  simp only [Kind.lookup_spelling hword]
  rfl

/-- A line behind another word is the condition of its kind and of the text behind it, marked by the
last field if there is one more. -/
theorem ofLine_spelling (hword : kind.spelling client.client = some word)
    (hall : kind ≠ .matchAll) {value : String} {others : List String}
    (hcomma : ∀ field ∈ value :: others, ',' ∉ field.toList) (default : Option Bool) :
    ofLine default (Text.joinWith "," (word :: value :: others)) =
      Condition.make kind (Text.trim value)
        (((others.map Text.trim).getLast?.bind readMark).or default) := by
  have hfield := Kind.isField_spelling hword
  have hfields := Condition.fieldsOf_joinWith_trim (List.forall_mem_cons.2 ⟨hfield.comma, hcomma⟩)
  rw [ofLine, hfields, hfield.trim]
  simp only [Kind.lookup_spelling hword, bind, Except.bind, if_neg hall, List.map_cons,
    Kind.refine_spelling hword]
  rfl

end Lines

namespace Condition

/-- The word for the mark is a mark and stands alone between its commas. -/
theorem noResolve_plain :
    ',' ∉ noResolve.toList ∧ Text.trim noResolve = noResolve ∧
      readMark noResolve = some false := by
  decide

/-- A kind that takes the word for the mark as a value takes every value. -/
theorem canonicalValue_of_noResolve {kind : Kind}
    (h : canonicalValue kind noResolve = .ok noResolve) (value : String) :
    canonicalValue kind value = .ok value := by
  cases kind <;> first | rfl | exact absurd (Except.toOption_eq_some_iff.2 h) (by decide +kernel)

variable {kind : Kind} {value : String} {mark : Option Bool}

/-- A condition of another kind than the one of all connections takes a mark when it may look up
addresses. -/
theorem takesMark_on (hall : kind ≠ .matchAll) :
    (on kind value mark).takesMark = kind.mayRequireResolution := by
  simp [takesMark, Condition.kind, hall]

theorem requiresResolution_on :
    (on kind value mark).requiresResolution = (kind.mayRequireResolution && mark = some true) :=
  rfl

/-- The value of a condition that a rule on its own gives is taken for the mark when it is the word
for it and no mark follows. -/
theorem IsLiteral.isTakenForMark_eq_true_iff (h : (Condition.on kind value mark).IsLiteral) :
    (Condition.on kind value mark).isTakenForMark = true ↔
      value = noResolve ∧ (Condition.on kind value mark).staysUnresolved = false := by
  rw [isTakenForMark, h.written_eq]
  simp [Condition.value?]

end Condition

/-! ## Reading back -/

/-- A line that is read as a duplicate of a condition, which looks up addresses if the condition
does.  Lines without a mark look them up. -/
def ReadsBack (line : String) (c : Condition) : Prop :=
  ∃ found, RuleList.classical [line] (some true) false = .ok [found] ∧
    found.sameTest c = true ∧ found.requiresResolution = c.requiresResolution

/-- What is read from a single line. -/
theorem readsBack_iff {line : String} {c : Condition} :
    ReadsBack line c ↔ ∃ found, ofLine (some true) line = .ok found ∧
      found.sameTest c = true ∧ found.requiresResolution = c.requiresResolution := by
  have hline : ∀ found, RuleList.classical [line] (some true) false = .ok [found] ↔
      ofLine (some true) line = .ok found := by
    intro found
    rw [RuleList.classical_lenient, Except.mapM_eq_ok_iff]
    simp
  simp only [ReadsBack, hline]

/-- A line that is read as a given condition. -/
theorem readsBack_iff_of_ok {line : String} {c found : Condition}
    (h : ofLine (some true) line = .ok found) :
    ReadsBack line c ↔
      found.test = c.test ∧ found.requiresResolution = c.requiresResolution := by
  rw [readsBack_iff]
  constructor
  · rintro ⟨other, hother, htest, hresolves⟩
    obtain rfl := Except.ok.inj (h.symm.trans hother)
    exact ⟨of_decide_eq_true htest, hresolves⟩
  · rintro ⟨htest, hresolves⟩
    exact ⟨found, h, decide_eq_true htest, hresolves⟩

namespace LineEntry

section Values

variable {client : LineClient} {d : Destination} {entry : LineEntry} {kind : Kind}
  {value : String} {mark : Option Bool} (hlit : (Condition.on kind value mark).IsLiteral)
  (hname : ',' ∉ (client.destinationName d).toList)
  (h : ofCondition client d (.on kind value mark) = .ok entry)
include hlit hname h

/-- The value is read, and the name of the destination marks a line that has no mark if the name is
read as one. -/
theorem ofLine_of_not_taken (htaken : (Condition.on kind value mark).isTakenForMark = false) :
    ofLine (some true) entry.line = .ok (.on kind value
      ((if (Condition.on kind value mark).staysUnresolved then some false
        else readMark (Text.trim (client.destinationName d))).or (some true))) := by
  have hwritten : (Condition.on kind value mark).written = (kind, some value) := hlit.written_eq
  obtain ⟨word, hword⟩ := exists_spelling h
  rw [line_eq h hword, htaken, hwritten]
  rw [hwritten] at hword
  obtain ⟨hmarkComma, hmarkTrim, hmarkRead⟩ := Condition.noResolve_plain
  cases hlit with
  | on hall hentry hform hvalue hfield =>
    have hcomma : ∀ field ∈ value :: client.destinationName d ::
        (Condition.on kind value mark).markWords, ',' ∉ field.toList := by
      unfold Condition.markWords
      cases (Condition.on kind value mark).staysUnresolved <;>
        simp [hfield.comma, hname, hmarkComma]
    have hread := ofLine_spelling hword hall hcomma (some true)
    rw [hfield.trim, Condition.make_of_trim hall hform hvalue hfield.trim] at hread
    refine hread.trans ?_
    unfold Condition.markWords
    cases (Condition.on kind value mark).staysUnresolved <;> simp [hmarkTrim, hmarkRead]

/-- The name of the destination is read in the place of the value. -/
theorem ofLine_of_taken (htaken : (Condition.on kind value mark).isTakenForMark = true) :
    ofLine (some true) entry.line =
      Condition.make kind (Text.trim (client.destinationName d)) (some false) := by
  have hwritten : (Condition.on kind value mark).written = (kind, some value) := hlit.written_eq
  obtain ⟨word, hword⟩ := exists_spelling h
  rw [line_eq h hword, htaken]
  rw [hwritten] at hword
  obtain ⟨hmarkComma, hmarkTrim, hmarkRead⟩ := Condition.noResolve_plain
  cases hlit with
  | on hall =>
    have hcomma : ∀ field ∈ [client.destinationName d, noResolve], ',' ∉ field.toList := by
      simp [hname, hmarkComma]
    refine (ofLine_spelling hword hall hcomma (some true)).trans ?_
    simp [hmarkTrim, hmarkRead]

/-- Behind a value that is not taken for the mark only the name of the destination can be. -/
theorem readsBack_of_not_taken (htaken : (Condition.on kind value mark).isTakenForMark = false) :
    ReadsBack entry.line (.on kind value mark) ↔
      (readMark (Text.trim (client.destinationName d)) = some false →
        (Condition.on kind value mark).takesMark = true →
          (Condition.on kind value mark).requiresResolution = false) := by
  rw [readsBack_iff_of_ok (ofLine_of_not_taken hlit hname h htaken)]
  have hmark := (ofCondition_eq_ok_iff.1 h).2.1
  cases hlit with
  | on hall =>
    simp only [Condition.lacksMark, Condition.staysUnresolved, Condition.takesMark_on hall,
      Condition.requiresResolution_on, Condition.mark?, Condition.test, Condition.kind,
      Condition.value?] at hmark ⊢
    cases hmay : kind.mayRequireResolution with
    | false => simp
    | true =>
      rcases mark with _ | _ | _
      · simp [hmay] at hmark
      · simp
      · rcases readMark (Text.trim (client.destinationName d)) with _ | _ | _ <;> simp

/-- In the place of a value that is taken for the mark the name of the destination is read. -/
theorem readsBack_of_taken (htaken : (Condition.on kind value mark).isTakenForMark = true) :
    ReadsBack entry.line (.on kind value mark) ↔
      Text.trim (client.destinationName d) = noResolve ∧
        (Condition.on kind value mark).requiresResolution = false := by
  obtain ⟨rfl, -⟩ := hlit.isTakenForMark_eq_true_iff.1 htaken
  have hread := ofLine_of_taken hlit hname h htaken
  cases hlit with
  | on hall hentry hform hvalue hfield =>
    constructor
    · intro hback
      obtain ⟨found, hfound, htest, hresolves⟩ := readsBack_iff.1 hback
      rw [hread] at hfound
      obtain ⟨form, hcanonical, rfl⟩ := Condition.eq_of_make hfound
      -- The kind takes the word for the mark as a value, so the name is kept as it is.
      rw [Text.trim_trim, Condition.canonicalValue_of_noResolve hform] at hcanonical
      obtain rfl := Except.ok.inj hcanonical
      refine ⟨?_, hresolves.symm.trans ?_⟩
      · simpa [Condition.sameTest, Condition.test, Condition.kind, Condition.value?] using htest
      · simp [Condition.requiresResolution_on]
    · rintro ⟨hname, hresolves⟩
      rw [hname, Condition.make_of_trim hall hform hvalue hfield.trim] at hread
      refine (readsBack_iff_of_ok hread).2 ⟨rfl, ?_⟩
      rw [hresolves]
      simp [Condition.requiresResolution_on]

end Values

/-! ## Rules on their own -/

section Literals

variable {literal : String} {c : Condition} {client : LineClient} {d : Destination}
  {entry : LineEntry}

theorem readsBack_always (hname : ',' ∉ (client.destinationName d).toList)
    (h : ofCondition client d .always = .ok entry) : ReadsBack entry.line .always := by
  obtain ⟨word, hword⟩ := exists_spelling h
  have hread := ofLine_matchAll hword (List.forall_mem_singleton.2 hname) (some true)
  rw [line_eq h hword]
  exact (readsBack_iff_of_ok hread).2 ⟨rfl, rfl⟩

/-- When the line of a condition that a rule on its own gives is read back. -/
theorem readsBack_iff_of_isLiteral (hlit : c.IsLiteral)
    (hname : ',' ∉ (client.destinationName d).toList)
    (h : ofCondition client d c = .ok entry) :
    ReadsBack entry.line c ↔
      (c.value? = some noResolve → c.staysUnresolved = false →
        Text.trim (client.destinationName d) = noResolve) ∧
      (readMark (Text.trim (client.destinationName d)) = some false → c.takesMark = true →
        c.requiresResolution = false) := by
  cases c with
  | always =>
    have hvalue : Condition.value? .always ≠ some noResolve := nofun
    have hmark : Condition.takesMark .always = false := rfl
    simp [readsBack_always hname h, hvalue, hmark]
  | on kind value mark =>
    have htakenIff := hlit.isTakenForMark_eq_true_iff
    cases htaken : (Condition.on kind value mark).isTakenForMark with
    | false =>
      rw [readsBack_of_not_taken hlit hname h htaken]
      refine (and_iff_right fun hvalue hstays => ?_).symm
      rw [htakenIff.2 ⟨Option.some.inj hvalue, hstays⟩] at htaken
      cases htaken
    | true =>
      obtain ⟨hvalue, hstays⟩ := htakenIff.1 htaken
      rw [readsBack_of_taken hlit hname h htaken]
      constructor
      · rintro ⟨hname, hresolves⟩
        exact ⟨fun _ _ => hname, fun _ _ => hresolves⟩
      · rintro ⟨hname, hresolves⟩
        have hname := hname (congrArg some hvalue) hstays
        refine ⟨hname, ?_⟩
        rw [hname] at hresolves
        cases htakes : (Condition.on kind value mark).takesMark with
        | true => exact hresolves Condition.noResolve_plain.2.2 htakes
        | false =>
          cases hlit with
          | on hall =>
            rw [Condition.takesMark_on hall] at htakes
            simp [Condition.requiresResolution_on, htakes]

/-- The key of a line shows the value unless it is the word for the mark. -/
theorem key_eq_iff_of_isLiteral (hlit : c.IsLiteral) (h : ofCondition client d c = .ok entry)
    {word : String} (hword : c.kind.spelling client.client = some word) :
    entry.key = Text.joinWith "," (word :: c.value?.toList) ↔ c.value? ≠ some noResolve := by
  have hwritten := hlit.written_eq
  have hword' : c.written.1.spelling client.client = some word := by
    rw [hwritten]
    exact hword
  rw [key_eq h hword', Condition.shownValue, hwritten]
  cases c.value? with
  | none => simp
  | some value =>
    by_cases hvalue : value = noResolve
    · subst hvalue
      have hne : Text.joinWith "," [word] ≠ Text.joinWith "," [word, noResolve] := by
        intro heq
        have hlength := congrArg String.length heq
        have hmark : ",".length + noResolve.length ≠ 0 := by decide
        simp only [Text.joinWith, String.length_append] at hlength
        omega
      simpa [Option.filter] using hne
    · simp [Option.filter, hvalue]

/-- The destination stands behind the key, unless the value is the word for the mark. -/
theorem line_eq_of_isLiteral (hlit : c.IsLiteral) (h : ofCondition client d c = .ok entry)
    (hvalue : c.value? ≠ some noResolve) :
    entry.line = Text.joinWith "," (entry.key :: client.destinationName d :: c.markWords) := by
  have hwritten := hlit.written_eq
  obtain ⟨word, hword⟩ := exists_spelling h
  have htaken : c.isTakenForMark = false := by
    apply Condition.isTakenForMark_eq_false
    rw [hwritten]
    exact hvalue
  have hline := line_eq h hword
  rw [htaken, hwritten] at hline
  rw [hwritten] at hword
  rw [hline, (key_eq_iff_of_isLiteral hlit h hword).2 hvalue]
  exact Text.joinWith_append (List.cons_ne_nil word c.value?.toList) (List.cons_ne_nil _ _)

/-- The line of a rule on its own says what the rule says, unless the value is the word for the mark
or the name of the destination is a mark: the key is the word and the value exactly if the value is
another one, then the destination stands behind the key, and the line is read back exactly if
neither the value nor the name is taken for something else. -/
theorem readsBack_iff_of_ofLiteral (h : ofLiteral literal = .ok c)
    (hname : ',' ∉ (client.destinationName d).toList)
    (hentry : ofCondition client d c = .ok entry) :
    (∃ word, c.kind.spelling client.client = some word ∧
        (entry.key = Text.joinWith "," (word :: c.value?.toList) ↔ c.value? ≠ some noResolve)) ∧
      (c.value? ≠ some noResolve →
        entry.line =
          Text.joinWith "," (entry.key :: client.destinationName d :: c.markWords)) ∧
      (ReadsBack entry.line c ↔
        (c.value? = some noResolve → c.staysUnresolved = false →
          Text.trim (client.destinationName d) = noResolve) ∧
        (readMark (Text.trim (client.destinationName d)) = some false → c.takesMark = true →
          c.requiresResolution = false)) := by
  have hlit := Condition.isLiteral_of_ofLiteral h
  obtain ⟨word, hword⟩ := exists_spelling hentry
  rw [hlit.written_eq] at hword
  exact ⟨⟨word, hword, key_eq_iff_of_isLiteral hlit hentry hword⟩,
    line_eq_of_isLiteral hlit hentry, readsBack_iff_of_isLiteral hlit hname hentry⟩

/-- A network that looks up no addresses. -/
theorem readsBack_iff_of_ofLiteral_network :
    ofLiteral "ip_cidr, 10.0.0.0/8, no-resolve" = .ok (.on .ipCidr "10.0.0.0/8" (some false)) ∧
      ',' ∉ (LineClient.clash.destinationName (.outbound "PROXY")).toList ∧
      ofCondition .clash (.outbound "PROXY") (.on .ipCidr "10.0.0.0/8" (some false)) =
        .ok ⟨"IP-CIDR,10.0.0.0/8", "IP-CIDR,10.0.0.0/8,PROXY,no-resolve"⟩ ∧
      ReadsBack "IP-CIDR,10.0.0.0/8,PROXY,no-resolve" (.on .ipCidr "10.0.0.0/8" (some false)) := by
  have h : ofLiteral "ip_cidr, 10.0.0.0/8, no-resolve" =
      .ok (.on .ipCidr "10.0.0.0/8" (some false)) :=
    Except.toOption_eq_some_iff.1 (by decide +kernel)
  have hname : ',' ∉ (LineClient.clash.destinationName (.outbound "PROXY")).toList := by decide
  have hentry : ofCondition .clash (.outbound "PROXY") (.on .ipCidr "10.0.0.0/8" (some false)) =
      .ok ⟨"IP-CIDR,10.0.0.0/8", "IP-CIDR,10.0.0.0/8,PROXY,no-resolve"⟩ :=
    rfl
  obtain ⟨-, -, hback⟩ := readsBack_iff_of_ofLiteral h hname hentry
  exact ⟨h, hname, hentry, hback.2 ⟨nofun, nofun⟩⟩

/-- A domain with the name of the mark is left out of its key, and the destination is read in its
place. -/
theorem markedDomain_not_readsBack :
    ∃ c entry, ofLiteral "DOMAIN,no-resolve" = .ok c ∧
      ofCondition .clash (.outbound "PROXY") c = .ok entry ∧
      readMark (Text.trim "PROXY") = none ∧ entry.key ≠ "DOMAIN,no-resolve" ∧
      ¬ ReadsBack entry.line c := by
  have hliteral : ofLiteral "DOMAIN,no-resolve" = .ok (.on .domain noResolve none) :=
    Except.toOption_eq_some_iff.1 (by decide +kernel)
  have hentry : ofCondition .clash (.outbound "PROXY") (.on .domain noResolve none) =
      .ok ⟨"DOMAIN", "DOMAIN,PROXY,no-resolve"⟩ :=
    rfl
  have hback := readsBack_iff_of_isLiteral (Condition.isLiteral_of_ofLiteral hliteral)
    (by decide) hentry
  refine ⟨_, _, hliteral, hentry, by decide, by decide, fun h => ?_⟩
  have hname : Text.trim "PROXY" = noResolve := (hback.1 h).1 rfl rfl
  exact absurd hname (by decide)

end Literals

end LineEntry

end RoutingRules

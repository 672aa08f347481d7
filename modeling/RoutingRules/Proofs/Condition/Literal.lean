import RoutingRules.Condition.Literal
import RoutingRules.Proofs.Condition.Made
import RoutingRules.Proofs.Kind.Registry
import RoutingRules.Proofs.Line.Rendered
import RoutingRules.Proofs.Text.Blank

/-!
# Conditions that are read back from their lines

A condition is written as fields with commas between them.  This module says which conditions a rule
on its own can give, and that such a condition is found again in each line that is written for it:
the value stands alone between its commas, its canonical form is its own canonical form, and the
word in front of it has the kind that it was written for, whichever client's word it is.

Only the mark may change.  A line says that no address is looked up, and otherwise it says nothing.

Main results:

- Theorem {lit}`Condition.fieldsOf_joinWith`: fields are found again in their line.
- Theorem {lit}`Condition.canonicalValue_canonicalValue`: a canonical form stays as it is.
- Theorem {lit}`Kind.lookup_spelling`: the words of clients are those of the kinds that they are
  for.
- Theorem {lit}`Condition.isLiteral_of_ofLiteral`: what rules on their own can give.
- Theorem {lit}`Condition.ofLiteral_writtenFields`: such a condition is found again.
- Theorem {lit}`Condition.exists_ofLiteral_of_lineFields`: the same for every rule on its own and
  every client with lines.
-/

namespace RoutingRules

/-! ## Words of clients -/

namespace Kind

/-- The words of clients with lines are finitely many, so what they have can be checked one by one. -/
theorem of_spelling {p : Kind → String → Prop}
    (hall : ∀ client ∈ [LineClient.clash, .quantumult], ∀ kind ∈ all,
      ∀ word ∈ kind.spelling client.client, p kind word)
    {kind : Kind} {client : LineClient} {word : String}
    (h : kind.spelling client.client = some word) : p kind word :=
  hall client (by cases client <;> decide) kind (mem_all kind) word h

/-- The word of a client with lines for a kind is read as the kind. -/
theorem lookup_spelling {kind : Kind} {client : LineClient} {word : String}
    (h : kind.spelling client.client = some word) : lookup word = .ok kind := by
  rw [← Except.toOption_eq_some_iff]
  exact of_spelling (p := fun kind word => (lookup word).toOption = some kind)
    (by decide +kernel) h

/-- Entries of domain lists have no word. -/
theorem ne_domainListItem_of_lookup {word : String} {kind : Kind} (h : lookup word = .ok kind) :
    kind ≠ .domainListItem := by
  have hnone : ∀ key, Kind.domainListItem.hasKey key = false := fun _ => rfl
  rintro rfl
  rw [lookup, Registry.standard_eq, Registry.lookup_eq_ok_iff] at h
  exact absurd (List.find?_some h) (by simp [hnone])

/-- The value decides between the families only behind the word for both. -/
theorem refine_spelling {kind : Kind} {client : LineClient} {word : String}
    (h : kind.spelling client.client = some word) (value : String) :
    kind.refine word value = kind := by
  have hother : kind = .ipCidr → Text.sameAsciiWord (Text.trim word) "ip_cidr" = false :=
    of_spelling
      (p := fun kind word => kind = .ipCidr →
        Text.sameAsciiWord (Text.trim word) "ip_cidr" = false)
      (by decide +kernel) h
  unfold refine
  refine if_neg ?_
  rintro ⟨hkind, hword, _⟩
  rw [hother hkind] at hword
  cases hword

/-- The value may turn the kind of the word for both families into that of the other one. -/
theorem refine_eq (kind : Kind) (word value : String) :
    kind.refine word value = kind ∨
      kind.refine word value = .ipCidr6 ∧ kind = .ipCidr := by
  unfold refine
  split
  next h => exact .inr ⟨rfl, h.1⟩
  next => exact .inl rfl

end Kind

/-! ## Fields -/

/-- A text that stands alone between two commas of a line. -/
structure IsField (text : String) : Prop where
  comma : ',' ∉ text.toList
  trim : Text.trim text = text

/-- A text of digits and hyphens stands alone between two commas. -/
theorem isField_of_digits {text : String} (h : ∀ c ∈ text.toList, c.isDigit = true ∨ c = '-') :
    IsField text := by
  refine ⟨fun hcomma => ?_, Text.trim_of_not_blank fun c hc => ?_⟩
  · rcases h _ hcomma with hdigit | hhyphen
    · cases hdigit
    · cases hhyphen
  · rcases h c hc with hdigit | rfl
    · exact Text.isBlank_of_isDigit hdigit
    · rfl

/-- The word of a client with lines stands alone between two commas. -/
theorem Kind.isField_spelling {kind : Kind} {client : LineClient} {word : String}
    (h : kind.spelling client.client = some word) : IsField word := by
  obtain ⟨hcomma, htrim⟩ :=
    of_spelling (p := fun _ word => ',' ∉ word.toList ∧ Text.trim word = word)
      (by decide +kernel) h
  exact ⟨hcomma, htrim⟩

/-! ## Canonical forms -/

namespace Port

variable {low high port : Nat}

/-- No blank is among the digits of a port. -/
theorem not_blank_of_mem_toDigits {c : Char} (h : c ∈ Nat.toDigits 10 port) :
    Text.isBlank c = false :=
  Text.isBlank_of_isDigit (Nat.isDigit_of_mem_toDigits (by decide) (by decide) h)

/-- The digits of a port are read as the port. -/
theorem read_toDigits (value : String) (h : port ≤ most) :
    read value (Nat.toDigits 10 port) = .ok port := by
  have hblank : ∀ c ∈ Nat.toDigits 10 port, Text.isBlank c = false :=
    fun c hc => not_blank_of_mem_toDigits hc
  rw [read, Text.trimChars_of_not_blank hblank, Number.readAtMost_toDigits h]

/-- The canonical form of ports is its own canonical form. -/
theorem canonical_canonical {value form : String} (h : canonical value = .ok form) :
    canonical form = .ok form := by
  rcases eq_of_canonical h with ⟨port, hport, rfl⟩ | ⟨low, high, hle, hhigh, rfl⟩
  · have hlist : (Number.decimal port).toList = Nat.toDigits 10 port := String.toList_ofList
    rw [canonical, hlist, Text.splitFirst_of_not_mem (hyphen_not_mem port)]
    simp only [read_toDigits _ hport]
    rfl
  · rw [canonical, toList_range, Text.splitFirst_append (hyphen_not_mem low)]
    simp only [read_toDigits _ (hle.trans hhigh), read_toDigits _ hhigh]
    exact if_neg (Nat.not_lt.2 hle)

/-- The canonical form of ports has digits and hyphens only, and at least one of them. -/
theorem chars_of_canonical {value form : String} (h : canonical value = .ok form) :
    form ≠ "" ∧ ∀ c ∈ form.toList, c.isDigit = true ∨ c = '-' := by
  have hdigit : ∀ n, ∀ c ∈ Nat.toDigits 10 n, c.isDigit = true := fun n c hc =>
    Nat.isDigit_of_mem_toDigits (by decide) (by decide) hc
  rcases eq_of_canonical h with ⟨port, _, rfl⟩ | ⟨low, high, _, _, rfl⟩
  · have hlist : (Number.decimal port).toList = Nat.toDigits 10 port := String.toList_ofList
    refine ⟨fun hempty => ?_, fun c hc => .inl (hdigit port c (hlist ▸ hc))⟩
    rw [hempty] at hlist
    exact Nat.toDigits_ne_nil hlist.symm
  · refine ⟨fun hempty => ?_, fun c hc => ?_⟩
    · have hlist := toList_range low high
      rw [hempty] at hlist
      simp at hlist
    · rw [toList_range, List.mem_append, List.mem_cons] at hc
      rcases hc with hc | rfl | hc
      · exact .inl (hdigit low c hc)
      · exact .inr rfl
      · exact .inl (hdigit high c hc)

end Port

namespace Condition

/-- Only ports are changed by bringing them into their canonical form. -/
theorem canonicalValue_eq_ok {kind : Kind} {value form : String}
    (h : canonicalValue kind value = .ok form) :
    form = value ∨ (kind = .srcPort ∨ kind = .dstPort) ∧ Port.canonical value = .ok form := by
  unfold canonicalValue at h
  split at h
  case h_4 => exact .inr ⟨.inl rfl, h⟩
  case h_5 => exact .inr ⟨.inr rfl, h⟩
  case h_6 => exact .inl (Except.ok.inj h).symm
  all_goals
    split at h
    · exact .inl (Except.ok.inj h).symm
    · cases h

/-- The canonical form of a value is its own canonical form. -/
theorem canonicalValue_canonicalValue {kind : Kind} {value form : String}
    (h : canonicalValue kind value = .ok form) : canonicalValue kind form = .ok form := by
  rcases canonicalValue_eq_ok h with rfl | ⟨rfl | rfl, hport⟩
  · exact h
  · exact Port.canonical_canonical hport
  · exact Port.canonical_canonical hport

/-- The canonical form of a field is a field that is not empty. -/
theorem isField_of_canonicalValue {kind : Kind} {value form : String} (hfield : IsField value)
    (hvalue : value ≠ "") (h : canonicalValue kind value = .ok form) :
    form ≠ "" ∧ IsField form := by
  rcases canonicalValue_eq_ok h with rfl | ⟨_, hport⟩
  · exact ⟨hvalue, hfield⟩
  · obtain ⟨hform, hchars⟩ := Port.chars_of_canonical hport
    exact ⟨hform, isField_of_digits hchars⟩

end Condition

/-! ## Lines -/

namespace Condition

/-- Texts without commas are the fields of their line, up to the blanks around them. -/
theorem fieldsOf_joinWith_trim {first : String} {others : List String}
    (h : ∀ field ∈ first :: others, ',' ∉ field.toList) :
    fieldsOf (Text.joinWith "," (first :: others)) =
      (Text.trim first, others.map Text.trim) := by
  have hpieces : Text.pieces ',' (Text.joinWith "," (first :: others)) = first :: others :=
    Text.pieces_joinWith (List.cons_ne_nil _ _) h
  rw [fieldsOf, hpieces, List.map_cons]

/-- No blanks are cut off fields. -/
theorem map_trim_of_isField {fields : List String} (h : ∀ field ∈ fields, IsField field) :
    fields.map Text.trim = fields :=
  (List.map_congr_left fun field hfield => (h field hfield).trim).trans (List.map_id _)

/-- Fields are found again in their line. -/
theorem fieldsOf_joinWith {first : String} {others : List String}
    (h : ∀ field ∈ first :: others, IsField field) :
    fieldsOf (Text.joinWith "," (first :: others)) = (first, others) := by
  obtain ⟨hfirst, hothers⟩ := List.forall_mem_cons.1 h
  rw [fieldsOf_joinWith_trim fun field hfield => (h field hfield).comma, hfirst.trim,
    map_trim_of_isField hothers]

/-- The fields of a line stand alone between their commas. -/
theorem isField_of_mem_fieldsOf {line field : String} (h : field ∈ (fieldsOf line).2) :
    IsField field := by
  have hpiece : ∃ piece ∈ Text.pieces ',' line, Text.trim piece = field := by
    unfold fieldsOf at h
    split at h
    next => cases h
    next first others hfields =>
      refine List.mem_map.1 ?_
      rw [hfields]
      exact List.mem_cons_of_mem _ h
  obtain ⟨piece, hmem, rfl⟩ := hpiece
  refine ⟨fun hcomma => Text.not_mem_of_mem_pieces hmem ?_, Text.trim_trim piece⟩
  rw [Text.trim, String.toList_ofList] at hcomma
  exact Text.mem_of_mem_trimChars hcomma

/-- The conditions that a rule on its own can give. -/
inductive IsLiteral : Condition → Prop
  | always : IsLiteral always
  | on {kind : Kind} {value : String} {mark : Option Bool} (hall : kind ≠ .matchAll)
      (hentry : kind ≠ .domainListItem) (hform : canonicalValue kind value = .ok value)
      (hvalue : value ≠ "") (hfield : IsField value) : IsLiteral (on kind value mark)

/-- A condition that a rule on its own can give is written with its own kind and value. -/
theorem IsLiteral.written_eq {c : Condition} (h : c.IsLiteral) :
    c.written = (c.kind, c.value?) := by
  cases h with
  | always => rfl
  | @on kind value mark hall hentry =>
    cases kind <;> first | rfl | exact absurd rfl hentry

/-- The value of a rule on its own is one of its fields. -/
theorem mem_of_literalArgs {literal : String} {args : List String} {value : String}
    {mark : Option Bool} (h : literalArgs literal args = .ok (value, mark)) : value ∈ args := by
  unfold literalArgs at h
  split at h
  next => cases h
  next =>
    obtain ⟨rfl, -⟩ := Prod.mk.inj (Except.ok.inj h)
    exact List.mem_cons_self
  next =>
    split at h
    · obtain ⟨rfl, -⟩ := Prod.mk.inj (Except.ok.inj h)
      exact List.mem_cons_self
    · cases h
  next => cases h

/-- What is built from a field can be given by a rule on its own. -/
theorem isLiteral_of_make {kind : Kind} {value : String} {mark : Option Bool} {c : Condition}
    (hall : kind ≠ .matchAll) (hentry : kind ≠ .domainListItem) (hfield : IsField value)
    (h : make kind value mark = .ok c) : c.IsLiteral := by
  obtain ⟨_, hvalue, form, hform, rfl⟩ := make_eq_ok_iff.1 h
  rw [hfield.trim] at hvalue hform
  obtain ⟨hne, hfield⟩ := isField_of_canonicalValue hfield hvalue hform
  exact .on hall hentry (canonicalValue_canonicalValue hform) hne hfield

/-- A value in canonical form without blanks around it is the value of the condition that is built
from it. -/
theorem make_of_trim {kind : Kind} {value : String} (hall : kind ≠ .matchAll)
    (hform : canonicalValue kind value = .ok value) (hvalue : value ≠ "")
    (htrim : Text.trim value = value) (mark : Option Bool) :
    make kind value mark = .ok (on kind value mark) := by
  rw [make_eq_ok_iff, htrim]
  exact ⟨hall, hvalue, value, hform, rfl⟩

/-- What is built from a field for the kind of the word in front of it can be given by a rule on its
own. -/
theorem isLiteral_of_make_refine {token value : String} {kind : Kind} {mark : Option Bool}
    {c : Condition} (hlookup : Kind.lookup token = .ok kind) (hall : kind ≠ .matchAll)
    (hfield : IsField value) (h : make (kind.refine token value) value mark = .ok c) :
    c.IsLiteral := by
  have hentry := Kind.ne_domainListItem_of_lookup hlookup
  rcases Kind.refine_eq kind token value with hrefine | ⟨hrefine, _⟩
  · rw [hrefine] at h
    exact isLiteral_of_make hall hentry hfield h
  · rw [hrefine] at h
    exact isLiteral_of_make (by decide) (by decide) hfield h

/-- A rule on its own gives the condition that always holds, or what is built from the value behind
its word. -/
theorem cases_of_ofLiteral {literal : String} {c : Condition} (h : ofLiteral literal = .ok c) :
    ∃ kind, Kind.lookup (fieldsOf literal).1 = .ok kind ∧
      (kind = .matchAll ∧ c = always ∨
        kind ≠ .matchAll ∧ ∃ value mark,
          literalArgs literal (fieldsOf literal).2 = .ok (value, mark) ∧
            make (kind.refine (fieldsOf literal).1 value) value mark = .ok c) := by
  unfold ofLiteral at h
  rcases hfields : fieldsOf literal with ⟨token, args⟩
  simp only [hfields] at h
  obtain ⟨kind, hlookup, h⟩ := Except.bind_eq_ok_iff.1 h
  refine ⟨kind, hlookup, ?_⟩
  by_cases hall : kind = .matchAll
  · rw [if_pos hall] at h
    split at h
    next => exact .inl ⟨hall, (Except.ok.inj h).symm⟩
    next => cases h
  · rw [if_neg hall] at h
    obtain ⟨⟨value, mark⟩, hargs, hmake⟩ := Except.bind_eq_ok_iff.1 h
    exact .inr ⟨hall, value, mark, hargs, hmake⟩

/-- What rules on their own can give. -/
theorem isLiteral_of_ofLiteral {literal : String} {c : Condition} (h : ofLiteral literal = .ok c) :
    c.IsLiteral := by
  obtain ⟨kind, hlookup, ⟨_, rfl⟩ | ⟨hall, value, mark, hargs, hmake⟩⟩ := cases_of_ofLiteral h
  · exact .always
  · have hfield : IsField value := isField_of_mem_fieldsOf (mem_of_literalArgs hargs)
    exact isLiteral_of_make_refine hlookup hall hfield hmake

/-- The mark that the line of a condition has. -/
def lineMark (c : Condition) : Option Bool :=
  if c.staysUnresolved then some false else none

/-- The fields behind the word of a condition are its value and the mark of its line. -/
theorem literalArgs_lineMark (literal value : String) (c : Condition) :
    literalArgs literal (value :: if c.staysUnresolved then [noResolve] else []) =
      .ok (value, c.lineMark) := by
  have hmark : readMark noResolve = some false := by decide
  unfold lineMark
  cases c.staysUnresolved with
  | false => rfl
  | true => simp only [if_true, literalArgs, hmark]

/-- A condition that a rule on its own can give is found again in the line that is written for
it.  The line says that no address is looked up, and otherwise it says nothing. -/
theorem ofLiteral_writtenFields {c : Condition} {client : LineClient} (h : c.IsLiteral)
    (hspelled : c.isSpelled client = true) :
    ofLiteral (Text.joinWith "," (c.writtenFields client)) = .ok (c.setMark c.lineMark) := by
  have hwritten := h.written_eq
  cases h with
  | always =>
    refine Except.toOption_eq_some_iff.1 ?_
    cases client <;> decide +kernel
  | @on kind value mark hall hentry hform hvalue hfield =>
    change (on kind value mark).written = (kind, some value) at hwritten
    obtain ⟨word, hword⟩ := Option.isSome_iff_exists.1 hspelled
    rw [hwritten] at hword
    have hfields : (on kind value mark).writtenFields client =
        word :: value :: if (on kind value mark).staysUnresolved then [noResolve] else [] := by
      rw [writtenFields, hwritten, hword]
      rfl
    have hall' : ∀ field ∈ (on kind value mark).writtenFields client, IsField field := by
      rw [hfields]
      refine List.forall_mem_cons.2 ⟨Kind.isField_spelling hword, List.forall_mem_cons.2
        ⟨hfield, fun field hmem => ?_⟩⟩
      split at hmem
      · obtain rfl := List.mem_singleton.1 hmem
        exact ⟨by decide, by decide⟩
      · cases hmem
    rw [hfields] at hall' ⊢
    rw [ofLiteral, fieldsOf_joinWith hall']
    simp only [Kind.lookup_spelling hword, literalArgs_lineMark, Kind.refine_spelling hword,
      bind, Except.bind, if_neg hall]
    exact make_of_trim hall hform hvalue hfield.trim _

@[simp] theorem kind_setMark (c : Condition) (mark : Option Bool) :
    (c.setMark mark).kind = c.kind := by
  cases c <;> rfl

@[simp] theorem value?_setMark (c : Condition) (mark : Option Bool) :
    (c.setMark mark).value? = c.value? := by
  cases c <;> rfl

/-- A line says that no address is looked up exactly if its condition says so and is of a kind that
takes a mark. -/
theorem IsLiteral.mark?_lineMark {c : Condition} (h : c.IsLiteral) :
    (c.setMark c.lineMark).mark? = some false ↔
      c.kind.mayRequireResolution = true ∧ c.mark? = some false := by
  cases h with
  | always => decide
  | @on kind value mark hall =>
    have hmark : ∀ new, ((Condition.on kind value mark).setMark new).mark? = new := fun _ => rfl
    have hkind : (Condition.on kind value mark).kind ≠ .matchAll := hall
    rw [hmark, lineMark]
    simp [staysUnresolved, takesMark, hkind]

/-! ## Rules on their own -/

variable {literal : String} {c : Condition} {client : LineClient} {fields : List String}

/-- A rule on its own is found again in the fields that are written for it: the condition that is
read there has the kind and the value of the rule, and says that no address is looked up exactly
if the rule says so of a kind that takes a mark. -/
theorem exists_ofLiteral_of_lineFields (h : ofLiteral literal = .ok c)
    (hfields : c.lineFields client.client = .ok fields) :
    ∃ found, ofLiteral (Text.joinWith "," fields) = .ok found ∧
      found.kind = c.kind ∧ found.value? = c.value? ∧
      (found.mark? = some false ↔ c.kind.mayRequireResolution = true ∧ c.mark? = some false) := by
  rw [lineFields_eq] at hfields
  split at hfields
  case isFalse => cases hfields
  case isTrue hspelled =>
    split at hfields
    next => cases hfields
    next =>
      obtain rfl := Except.ok.inj hfields
      refine ⟨_, ofLiteral_writtenFields (isLiteral_of_ofLiteral h) hspelled, ?_⟩
      exact ⟨kind_setMark c _, value?_setMark c _, (isLiteral_of_ofLiteral h).mark?_lineMark⟩

/-- A rule with blanks, with another client's word and with a mark in capital letters. -/
theorem exists_ofLiteral_of_lineFields_network :
    ∃ found, ofLiteral (Text.joinWith "," ["ip6-cidr", "2001:db8::/32", "no-resolve"]) =
        .ok found ∧
      found.kind = .ipCidr6 ∧ found.value? = some "2001:db8::/32" ∧
      (found.mark? = some false ↔
        Kind.ipCidr6.mayRequireResolution = true ∧ some false = some false) := by
  have h : ofLiteral " ip_cidr , 2001:db8::/32 , NO-RESOLVE " =
      .ok (on .ipCidr6 "2001:db8::/32" (some false)) :=
    Except.toOption_eq_some_iff.1 (by decide +kernel)
  have hfields : (on .ipCidr6 "2001:db8::/32" (some false)).lineFields
      LineClient.quantumult.client = .ok ["ip6-cidr", "2001:db8::/32", "no-resolve"] :=
    Except.toOption_eq_some_iff.1 (by decide +kernel)
  exact exists_ofLiteral_of_lineFields h hfields

end Condition

end RoutingRules

import Mathlib.Order.Interval.Set.Basic
import RoutingRules.Proofs.Condition.Literal

/-!
# Values in canonical form

Building a condition cuts the blanks off its value and brings it into a canonical form.  A
condition that is built from this form has it as its value again, whatever its mark is.

The canonical form of ports is a number or a range of two.  A line of Clash has it as it is, and a
rule of sing-box has a number in one field or a range with a colon in another one.  This module
reads both of them as sets of ports and compares these.

Main results:

- Theorem {lit}`Condition.exists_of_make`: what is built has a canonical form without blanks around
  it as its value.
- Theorem {lit}`Condition.exists_ports_of_canonical`: a line and a rule ask for the same ports.
- Theorem {lit}`Condition.make_canonical`: what is built has a value in canonical form and, unless
  sing-box has no word for it, a field.
-/

namespace RoutingRules

/-! ## Texts without blanks around them -/

/-- A text that is not empty and has no blanks at its ends. -/
structure Text.IsClean (text : String) : Prop where
  ne_empty : text ≠ ""
  trimmed : Text.Trimmed text.toList

namespace Text

variable {text : String}

/-- Nothing is cut off a clean text. -/
theorem IsClean.trim_eq (h : IsClean text) : trim text = text := by
  rw [trim, trimChars_of_trimmed h.trimmed, String.ofList_toList]

/-- What is left of a text without the blanks around it is clean, unless nothing is left. -/
theorem isClean_trim (h : trim text ≠ "") : IsClean (trim text) := by
  refine ⟨h, ?_⟩
  rw [trim, String.toList_ofList]
  exact trimmed_trimChars _

/-- A text without any blanks is clean, unless it is empty. -/
theorem isClean_of_not_blank (hne : text ≠ "") (h : ∀ c ∈ text.toList, isBlank c = false) :
    IsClean text :=
  ⟨hne, fun c hc => h c (List.mem_of_mem_head? hc), fun c hc => h c (List.mem_of_mem_getLast? hc)⟩

end Text

/-! ## What is built -/

namespace Condition

variable {kind : Kind} {text value : String} {mark : Option Bool} {c : Condition}

/-- The canonical form of a clean value is clean. -/
theorem isClean_of_canonicalValue {form : String} (hclean : Text.IsClean value)
    (h : canonicalValue kind value = .ok form) : Text.IsClean form := by
  rcases canonicalValue_eq_ok h with rfl | ⟨_, hport⟩
  · exact hclean
  · obtain ⟨hform, hchars⟩ := Port.chars_of_canonical hport
    refine Text.isClean_of_not_blank hform fun c hc => ?_
    rcases hchars c hc with hdigit | rfl
    · exact Text.isBlank_of_isDigit hdigit
    · rfl

/-- What is built has a canonical form without blanks around it as its value. -/
theorem exists_of_make (h : make kind text mark = .ok c) :
    ∃ value, c = on kind value mark ∧ kind ≠ .matchAll ∧ Text.IsClean value ∧
      canonicalValue kind value = .ok value := by
  obtain ⟨hall, hne, value, hvalue, rfl⟩ := make_eq_ok_iff.1 h
  exact ⟨value, rfl, hall, isClean_of_canonicalValue (Text.isClean_trim hne) hvalue,
    canonicalValue_canonicalValue hvalue⟩

end Condition

/-! ## Ports that are asked for -/

/-- What a client is asked about a connection: whether its source port, or else its destination
port, is one of several. -/
structure PortTest where
  source : Bool
  ports : Set Nat

namespace PortTest

/-- Read a port. -/
def port? (digits : List Char) : Option Nat :=
  (Number.readAtMost 65535 digits).toOption

/-- The ports from the first to the last of two with a sign between them. -/
def range? (sign : Char) (text : String) : Option (Set Nat) := do
  let (low, high) ← Text.splitFirst sign text.toList
  return Set.Icc (← port? low) (← port? high)

/-- The ports that the value of a line stands for: a range with a hyphen, or a single port. -/
def ofValue? (value : String) : Option (Set Nat) :=
  if '-' ∈ value.toList then range? '-' value
  else (port? value.toList).map fun port => {port}

/-- The test that a line of Clash stands for. -/
def ofLine? : List String → Option PortTest
  | ["SRC-PORT", value] => (ofValue? value).map (⟨true, ·⟩)
  | ["DST-PORT", value] => (ofValue? value).map (⟨false, ·⟩)
  | _ => none

/-- The test that a field of a rule of sing-box stands for. -/
def ofField? : String × Json → Option PortTest
  | ("source_port", .int number) => some ⟨true, {port | (port : Int) = number}⟩
  | ("source_port_range", .str range) => (range? ':' range).map (⟨true, ·⟩)
  | ("port", .int number) => some ⟨false, {port | (port : Int) = number}⟩
  | ("port_range", .str range) => (range? ':' range).map (⟨false, ·⟩)
  | _ => none

/-- The digits of a port are read as the port. -/
theorem port?_toDigits {port : Nat} (h : port ≤ 65535) :
    port? (Nat.toDigits 10 port) = some port := by
  rw [port?, Number.readAtMost_toDigits h]
  rfl

/-- Two ports with a sign between them are a range, if the sign is no digit. -/
theorem range?_decimal {sign : Char} (hsign : sign.isDigit = false) {low high : Nat}
    (hlow : low ≤ 65535) (hhigh : high ≤ 65535) :
    range? sign (Number.decimal low ++ String.singleton sign ++ Number.decimal high) =
      some (Set.Icc low high) := by
  have hsplit := Text.splitFirst_append (Number.not_mem_toDigits hsign low) (Nat.toDigits 10 high)
  rw [range?, Port.toList_between, hsplit]
  simp [port?_toDigits hlow, port?_toDigits hhigh]

/-- The text of a single port stands for this port. -/
theorem ofValue?_decimal {port : Nat} (h : port ≤ 65535) :
    ofValue? (Number.decimal port) = some {port} := by
  have hlist : (Number.decimal port).toList = Nat.toDigits 10 port := String.toList_ofList
  rw [ofValue?, hlist, if_neg (Port.hyphen_not_mem port), port?_toDigits h]
  rfl

/-- The text of a range of ports stands for the ports from one end to the other. -/
theorem ofValue?_range {low high : Nat} (hlow : low ≤ 65535) (hhigh : high ≤ 65535) :
    ofValue? (Number.decimal low ++ "-" ++ Number.decimal high) = some (Set.Icc low high) := by
  have hhyphen : '-' ∈ (Number.decimal low ++ "-" ++ Number.decimal high).toList := by
    rw [Port.toList_range]
    simp
  rw [ofValue?, if_pos hhyphen]
  exact range?_decimal (by decide) hlow hhigh

end PortTest

namespace Condition

variable {kind : Kind} {text value : String} {mark : Option Bool} {c : Condition}

/-- What Clash is asked by a condition on ports. -/
def linePorts? (c : Condition) : Option PortTest :=
  (c.lineFields .clash).toOption.bind PortTest.ofLine?

/-- What sing-box is asked by a condition on ports. -/
def rulePorts? (c : Condition) : Option PortTest :=
  c.singBoxField.toOption.bind PortTest.ofField?

/-- A line asks for the ports that its value stands for. -/
theorem linePorts?_on (h : kind = .srcPort ∨ kind = .dstPort) (value : String)
    (mark : Option Bool) :
    (on kind value mark).linePorts? =
      (PortTest.ofValue? value).map fun ports => ⟨kind = .srcPort, ports⟩ := by
  rcases h with rfl | rfl
  · rfl
  · rfl

/-- A rule asks for the ports that its field stands for. -/
theorem rulePorts?_eq {field : String × Json} (h : c.singBoxField = .ok field) :
    c.rulePorts? = PortTest.ofField? field := by
  rw [rulePorts?, h]
  rfl

/-- A rule asks for a single port by its number. -/
theorem rulePorts?_decimal (h : kind = .srcPort ∨ kind = .dstPort) (mark : Option Bool)
    {port : Nat} (hport : port ≤ Port.most) :
    (on kind (Number.decimal port) mark).rulePorts? = some ⟨kind = .srcPort, {port}⟩ := by
  have hset : {other : Nat | (other : Int) = port} = {port} := by
    ext other
    simp only [Set.mem_ofPred_eq, Int.natCast_inj, Set.mem_singleton_iff]
  rcases h with rfl | rfl
  · have hfield : (on .srcPort (Number.decimal port) mark).singBoxField = _ :=
      Port.singBoxField_decimal "source_port" "source_port_range" hport
    refine (rulePorts?_eq hfield).trans ?_
    rw [← hset]
    rfl
  · have hfield : (on .dstPort (Number.decimal port) mark).singBoxField = _ :=
      Port.singBoxField_decimal "port" "port_range" hport
    refine (rulePorts?_eq hfield).trans ?_
    rw [← hset]
    rfl

/-- A rule asks for a range of ports with a colon between its ends. -/
theorem rulePorts?_range (h : kind = .srcPort ∨ kind = .dstPort) (mark : Option Bool)
    {low high : Nat} (hlow : low ≤ Port.most) (hhigh : high ≤ Port.most) :
    (on kind (Number.decimal low ++ "-" ++ Number.decimal high) mark).rulePorts? =
      some ⟨kind = .srcPort, Set.Icc low high⟩ := by
  have hread : ∀ source : Bool,
      (PortTest.range? ':' (Number.decimal low ++ ":" ++ Number.decimal high)).map
        (PortTest.mk source) = some ⟨source, Set.Icc low high⟩ := by
    intro source
    have hcolon : ':'.isDigit = false := by decide
    have hrange := PortTest.range?_decimal hcolon hlow hhigh
    exact congrArg (Option.map (PortTest.mk source)) hrange
  rcases h with rfl | rfl
  · have hfield : (on .srcPort _ mark).singBoxField = _ :=
      Port.singBoxField_range "source_port" "source_port_range" low high
    exact (rulePorts?_eq hfield).trans (hread true)
  · have hfield : (on .dstPort _ mark).singBoxField = _ :=
      Port.singBoxField_range "port" "port_range" low high
    exact (rulePorts?_eq hfield).trans (hread false)

/-- Ports in canonical form are a number or a range of two, and a line and a rule ask for the same
ones. -/
theorem exists_ports_of_canonical (hkind : kind = .srcPort ∨ kind = .dstPort)
    (h : canonicalValue kind value = .ok value) (mark : Option Bool) :
    ∃ low high, low ≤ high ∧ high ≤ Port.most ∧
      (low = high ∧ value = Number.decimal low ∨
        value = Number.decimal low ++ "-" ++ Number.decimal high) ∧
      (on kind value mark).linePorts? = some ⟨kind = .srcPort, Set.Icc low high⟩ ∧
      (on kind value mark).rulePorts? = some ⟨kind = .srcPort, Set.Icc low high⟩ := by
  have hform : Port.canonical value = .ok value := by
    rcases hkind with rfl | rfl
    · exact h
    · exact h
  rcases Port.eq_of_canonical hform with ⟨port, hport, rfl⟩ | ⟨low, high, hle, hhigh, rfl⟩
  · refine ⟨port, port, le_refl port, hport, .inl ⟨rfl, rfl⟩, ?_, ?_⟩
    · rw [linePorts?_on hkind, PortTest.ofValue?_decimal hport, Set.Icc_self]
      rfl
    · rw [rulePorts?_decimal hkind mark hport, Set.Icc_self]
  · have hlow : low ≤ Port.most := hle.trans hhigh
    refine ⟨low, high, hle, hhigh, .inr rfl, ?_, ?_⟩
    · rw [linePorts?_on hkind, PortTest.ofValue?_range hlow hhigh]
      rfl
    · exact rulePorts?_range hkind mark hlow hhigh

/-- The only condition without a field is one that sing-box has no word for. -/
theorem IsMade.error_of_singBoxField (h : c.IsMade) {e : RuleError}
    (herror : c.singBoxField = .error e) : e = .unsupported c.kind .singBox := by
  rcases h.singBoxField with ⟨field, hfield⟩ | hunsupported
  · rw [hfield] at herror
    cases herror
  · rw [hunsupported] at herror
    exact (Except.error.inj herror).symm

/-! ## Conditions with their canonical values -/

/-- What is built has a value in canonical form: the same condition is built from it with any other
mark, sing-box has a field for it or no word for its kind, and if it is a condition on ports then
it has one port or a range of them, which is what both a line and a rule ask for. -/
theorem make_canonical (h : make kind text mark = .ok c) :
    ∃ value, c = on kind value mark ∧
      (∀ other, make kind value other = .ok (on kind value other)) ∧
      (∀ e, c.singBoxField = .error e → e = .unsupported kind .singBox) ∧
      (kind = .srcPort ∨ kind = .dstPort →
        ∃ low high, low ≤ high ∧ high ≤ 65535 ∧
          (low = high ∧ value = Number.decimal low ∨
            value = Number.decimal low ++ "-" ++ Number.decimal high) ∧
          c.linePorts? = some ⟨kind = .srcPort, Set.Icc low high⟩ ∧
          c.rulePorts? = some ⟨kind = .srcPort, Set.Icc low high⟩) := by
  obtain ⟨value, rfl, hall, hclean, hform⟩ := exists_of_make h
  have hmade : (on kind value mark).IsMade := .make h
  refine ⟨value, rfl, ?_, ?_, ?_⟩
  · intro other
    exact make_of_trim hall hform hclean.ne_empty hclean.trim_eq other
  · intro e herror
    exact hmade.error_of_singBoxField herror
  · intro hport
    exact exists_ports_of_canonical hport hform mark

/-- A range with blanks, a sign and zeros in front of its ends. -/
theorem make_canonical_range :
    make .dstPort " +080 - 0443 " none = .ok (on .dstPort "80-443" none) ∧
      (∀ other, make .dstPort "80-443" other = .ok (on .dstPort "80-443" other)) ∧
      (on .dstPort "80-443" none).linePorts? = some ⟨false, Set.Icc 80 443⟩ ∧
      (on .dstPort "80-443" none).rulePorts? = some ⟨false, Set.Icc 80 443⟩ := by
  have h : make .dstPort " +080 - 0443 " none = .ok (on .dstPort "80-443" none) :=
    Except.toOption_eq_some_iff.1 (by decide +kernel)
  obtain ⟨value, hvalue, hall, _, hports⟩ := make_canonical h
  obtain rfl : "80-443" = value := (on.inj hvalue).2.1
  obtain ⟨low, high, _, _, _, hline, hrule⟩ := hports (.inr rfl)
  have hread : (on .dstPort "80-443" none).linePorts? = some ⟨false, Set.Icc 80 443⟩ := by
    have hends : "80-443" = Number.decimal 80 ++ "-" ++ Number.decimal 443 := by decide +kernel
    have hlow : 80 ≤ 65535 := by decide
    have hhigh : 443 ≤ 65535 := by decide
    rw [linePorts?_on (.inr rfl), hends, PortTest.ofValue?_range hlow hhigh]
    rfl
  exact ⟨h, hall, hread, hrule.trans (hline.symm.trans hread)⟩

end Condition

end RoutingRules

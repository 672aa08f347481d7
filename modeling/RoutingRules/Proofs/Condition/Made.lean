import RoutingRules.Condition
import RoutingRules.Proofs.Number.Natural
import RoutingRules.Proofs.Result

/-!
# Conditions that can be built

Conditions are built by {lit}`Condition.make`, which brings the value into a canonical form, or
are the condition that holds always.  This module gives them a name and shows what the canonical
form is for: the value of a port condition can be read back, so the condition has a field in
rules of sing-box.

Main results:

- Theorem {lit}`Port.singBoxField_of_canonical`: ports in canonical form have a field.
- Theorem {lit}`Condition.IsMade.singBoxField`: a condition that can be built has a field, unless
  sing-box has no word for its kind.
-/

namespace RoutingRules

/-! ## Splitting at a separator -/

namespace Text

/-- A text without the separator is not split. -/
theorem splitFirst_of_not_mem {sep : Char} {cs : List Char} (h : sep ∉ cs) :
    splitFirst sep cs = none := by
  induction cs with
  | nil => rfl
  | cons c cs ih =>
    rw [List.mem_cons, not_or] at h
    rw [splitFirst, if_neg (Ne.symm h.1), ih h.2]
    rfl

/-- A text is split at the first separator. -/
theorem splitFirst_append {sep : Char} {before : List Char} (h : sep ∉ before)
    (after : List Char) : splitFirst sep (before ++ sep :: after) = some (before, after) := by
  induction before with
  | nil => simp [splitFirst]
  | cons c before ih =>
    rw [List.mem_cons, not_or] at h
    rw [List.cons_append, splitFirst, if_neg (Ne.symm h.1), ih h.2]
    rfl

end Text

/-! ## Ports -/

namespace Port

/-- A port that was read is within the bound. -/
theorem read_le {value : String} {cs : List Char} {port : Nat} (h : read value cs = .ok port) :
    port ≤ most := by
  unfold read at h
  split at h
  next other hread =>
    obtain rfl : other = port := Except.ok.inj h
    exact Number.readAtMost_le hread
  next => cases h

/-- The canonical form of ports is one port within the bound or a range of two in order. -/
theorem eq_of_canonical {value form : String} (h : canonical value = .ok form) :
    (∃ port ≤ most, form = Number.decimal port) ∨
      ∃ low high, low ≤ high ∧ high ≤ most ∧
        form = Number.decimal low ++ "-" ++ Number.decimal high := by
  unfold canonical at h
  split at h
  next =>
    obtain ⟨port, hport, hform⟩ := Except.bind_eq_ok_iff.1 h
    exact Or.inl ⟨port, read_le hport, (Except.ok.inj hform).symm⟩
  next low high _ =>
    obtain ⟨lowPort, _, h⟩ := Except.bind_eq_ok_iff.1 h
    obtain ⟨highPort, hhigh, h⟩ := Except.bind_eq_ok_iff.1 h
    split at h
    next => cases h
    next hle =>
      exact Or.inr ⟨lowPort, highPort, Nat.le_of_not_lt hle, read_le hhigh,
        (Except.ok.inj h).symm⟩

/-- No hyphen is among the digits of a port. -/
theorem hyphen_not_mem (port : Nat) : '-' ∉ Nat.toDigits 10 port :=
  Number.not_mem_toDigits (by decide) port

/-- Two ports with a sign between them are the digits of both with the sign between them. -/
theorem toList_between (sign : Char) (low high : Nat) :
    (Number.decimal low ++ String.singleton sign ++ Number.decimal high).toList =
      Nat.toDigits 10 low ++ sign :: Nat.toDigits 10 high := by
  simp [Number.decimal]

/-- A range is the digits of its ends with a hyphen between them. -/
theorem toList_range (low high : Nat) :
    (Number.decimal low ++ "-" ++ Number.decimal high).toList =
      Nat.toDigits 10 low ++ '-' :: Nat.toDigits 10 high :=
  toList_between '-' low high

/-- A single port is a number in its field. -/
theorem singBoxField_decimal (single range : String) {port : Nat} (h : port ≤ most) :
    singBoxField single range (Number.decimal port) = .ok (single, .int port) := by
  have hlist : (Number.decimal port).toList = Nat.toDigits 10 port := String.toList_ofList
  simp only [singBoxField, hlist, Text.splitFirst_of_not_mem (hyphen_not_mem port),
    Number.readAtMost_toDigits h]

/-- A range of ports is written with a colon in its field. -/
theorem singBoxField_range (single range : String) (low high : Nat) :
    singBoxField single range (Number.decimal low ++ "-" ++ Number.decimal high) =
      .ok (range, .str (Number.decimal low ++ ":" ++ Number.decimal high)) := by
  rw [singBoxField, toList_range, Text.splitFirst_append (hyphen_not_mem low)]
  rfl

/-- Ports in canonical form have a field in rules of sing-box. -/
theorem singBoxField_of_canonical {value form : String} (single range : String)
    (h : canonical value = .ok form) : ∃ field, singBoxField single range form = .ok field := by
  rcases eq_of_canonical h with ⟨port, hport, rfl⟩ | ⟨low, high, _, _, rfl⟩
  · exact ⟨_, singBoxField_decimal single range hport⟩
  · exact ⟨_, singBoxField_range single range low high⟩

end Port

/-! ## Conditions -/

namespace Condition

/-- The conditions that can be built. -/
inductive IsMade : Condition → Prop
  | always : IsMade always
  | make {kind : Kind} {text : String} {mark : Option Bool} {c : Condition}
      (h : make kind text mark = .ok c) : IsMade c

/-- A condition that is built from its own parts can be built. -/
theorem isMade_of_make {kind : Kind} {text : String} {mark : Option Bool}
    (h : make kind text mark = .ok (on kind text mark)) : IsMade (on kind text mark) :=
  .make h

/-- A condition is built from a kind that takes a value and from a text that is not blank, and holds
the canonical form of the text. -/
theorem make_eq_ok_iff {kind : Kind} {text : String} {mark : Option Bool} {c : Condition} :
    make kind text mark = .ok c ↔
      kind ≠ .matchAll ∧ Text.trim text ≠ "" ∧
        ∃ value, canonicalValue kind (Text.trim text) = .ok value ∧ on kind value mark = c := by
  unfold make
  by_cases hall : kind = .matchAll
  · simp [hall]
  by_cases hvalue : Text.trim text = ""
  · simp [hall, hvalue]
  · simp [hall, hvalue, Except.map_eq_ok_iff]

/-- A condition that is built from a kind and a text holds the canonical form of the text. -/
theorem eq_of_make {kind : Kind} {text : String} {mark : Option Bool} {c : Condition}
    (h : make kind text mark = .ok c) :
    ∃ value, canonicalValue kind (Text.trim text) = .ok value ∧ c = on kind value mark := by
  obtain ⟨_, _, value, hvalue, rfl⟩ := make_eq_ok_iff.1 h
  exact ⟨value, hvalue, rfl⟩

/-- A condition that can be built has a field in rules of sing-box, unless sing-box has no word
for its kind. -/
theorem IsMade.singBoxField {c : Condition} (h : c.IsMade) :
    (∃ field, c.singBoxField = .ok field) ∨
      c.singBoxField = .error (.unsupported c.kind .singBox) := by
  cases h with
  | always => exact Or.inr rfl
  | @make kind text mark _ h =>
    obtain ⟨value, hvalue, rfl⟩ := eq_of_make h
    cases kind with
    | srcPort =>
      have hport : Port.canonical (Text.trim text) = .ok value := hvalue
      exact Or.inl (Port.singBoxField_of_canonical "source_port" "source_port_range" hport)
    | dstPort =>
      have hport : Port.canonical (Text.trim text) = .ok value := hvalue
      exact Or.inl (Port.singBoxField_of_canonical "port" "port_range" hport)
    | geoIp => exact Or.inr rfl
    | userAgent => exact Or.inr rfl
    | matchAll => exact Or.inr rfl
    | _ => exact Or.inl ⟨_, rfl⟩

end Condition

end RoutingRules

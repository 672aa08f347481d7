import Mathlib.Data.List.Infix
import RoutingRules.Proofs.Network

/-!
# Dotted quads in networks

Lists of networks tell the families apart by looking for four numbers with dots between them, of any
size and anywhere in a line.  Every IPv4 network starts with such numbers.  In an IPv6 network they
are there exactly if part of its address is written as an IPv4 address, for it has no dots
otherwise.

Main results:

- Theorem {lit}`hasDottedQuad_iff`: what the search finds.
- Theorem {lit}`holdsQuad_of_isV4`: an IPv4 network holds a dotted quad.
- Theorem {lit}`holdsQuad_iff_of_isV6`: an IPv6 network holds one exactly if it has a dot.
-/

namespace RoutingRules.Network

/-! ## Numerals with dots between them -/

/-- A numeral: ASCII digits, and at least one of them. -/
def IsNumeral (cs : List Char) : Prop :=
  cs ≠ [] ∧ ∀ c ∈ cs, c.isDigit = true

/-- Numerals with a number of dots, one between any two neighbours. -/
def IsDotted : Nat → List Char → Prop
  | 0, cs => IsNumeral cs
  | dots + 1, cs =>
    ∃ first others, IsNumeral first ∧ IsDotted dots others ∧ cs = first ++ '.' :: others

/-- Whether four numerals with dots between them stand anywhere in a text. -/
def HoldsQuad (cs : List Char) : Prop :=
  ∃ quad, IsDotted 3 quad ∧ quad <:+: cs

variable {cs rest : List Char} {dots : Nat}

/-- A text that starts with a numeral starts with a digit. -/
theorem IsNumeral.head_isDigit {numeral : List Char} (h : IsNumeral numeral) (rest : List Char) :
    (numeral ++ rest).head?.any Char.isDigit = true := by
  obtain ⟨c, digits, rfl⟩ := List.exists_cons_of_ne_nil h.1
  exact h.2 c List.mem_cons_self

/-- The digits at the front of a text are a numeral if there are any. -/
theorem isNumeral_takeWhile (h : cs.head?.any Char.isDigit = true) :
    IsNumeral (cs.takeWhile Char.isDigit) := by
  refine ⟨?_, fun c hc => List.mem_takeWhile_imp hc⟩
  cases cs with
  | nil => cases h
  | cons c cs => rw [List.takeWhile_cons_of_pos (show c.isDigit = true from h)]; simp

/-- Numerals at the front of a text are found as far as they go. -/
theorem startsDotted_iff :
    startsDotted dots cs = true ↔ ∃ front, IsDotted dots front ∧ front <+: cs := by
  induction dots generalizing cs with
  | zero =>
    constructor
    · intro h
      exact ⟨_, isNumeral_takeWhile h, List.takeWhile_prefix _⟩
    · rintro ⟨front, hfront, rest, rfl⟩
      exact hfront.head_isDigit rest
  | succ dots ih =>
    rw [startsDotted, Bool.and_eq_true]
    constructor
    · rintro ⟨hhead, h⟩
      split at h
      next rest hrest =>
        obtain ⟨others, hothers, back, rfl⟩ := ih.1 h
        refine ⟨_, ⟨_, others, isNumeral_takeWhile hhead, hothers, rfl⟩, back, ?_⟩
        rw [List.append_assoc, List.cons_append, ← hrest, List.takeWhile_append_dropWhile]
      next => cases h
    · rintro ⟨_, ⟨first, others, hfirst, hothers, rfl⟩, back, rfl⟩
      -- The first numeral ends at its dot, which is no digit.
      have hdrop : (first ++ '.' :: others ++ back).dropWhile Char.isDigit =
          '.' :: (others ++ back) := by
        rw [List.append_assoc, List.dropWhile_append_of_pos hfirst.2, List.cons_append,
          List.dropWhile_cons_of_neg (by decide)]
      rw [List.append_assoc]
      refine ⟨hfirst.head_isDigit _, ?_⟩
      rw [← List.append_assoc, hdrop]
      exact ih.2 ⟨others, hothers, List.prefix_append others back⟩

/-- The search finds a dotted quad exactly if there is one. -/
theorem hasDottedQuad_iff : hasDottedQuad cs = true ↔ HoldsQuad cs := by
  induction cs with
  | nil =>
    constructor
    · intro h
      cases h
    · rintro ⟨quad, hquad, hwithin⟩
      obtain ⟨first, others, _, _, rfl⟩ := hquad
      simp at hwithin
  | cons c cs ih =>
    rw [hasDottedQuad, Bool.or_eq_true, startsDotted_iff, ih]
    constructor
    · rintro (⟨quad, hquad, hfront⟩ | ⟨quad, hquad, hwithin⟩)
      · exact ⟨quad, hquad, hfront.isInfix⟩
      · exact ⟨quad, hquad, List.infix_cons hwithin⟩
    · rintro ⟨quad, hquad, hwithin⟩
      rcases List.infix_cons_iff.1 hwithin with hfront | hwithin
      · exact .inl ⟨quad, hquad, hfront⟩
      · exact .inr ⟨quad, hquad, hwithin⟩

/-- A text in which another one stands holds the quads of it. -/
theorem HoldsQuad.mono {ds : List Char} (h : HoldsQuad cs) (hwithin : cs <:+: ds) :
    HoldsQuad ds := by
  obtain ⟨quad, hquad, hin⟩ := h
  exact ⟨quad, hquad, hin.trans hwithin⟩

/-! ## Numbers -/

/-- The decimal digits that readers know are the ASCII digits. -/
theorem isSome_digit?_ten (c : Char) : (Number.digit? 10 c).isSome = c.isDigit := by
  rw [Bool.eq_iff_iff]
  simp only [Number.digit?, Char.isDigit, Char.le_def, UInt32.le_iff_toNat_le]
  grind [Char.toNat_val]

/-- A decimal number is taken off a text as a numeral. -/
theorem exists_numeral_of_takeNumber {most bound : Nat}
    (h : takeNumber 10 most bound cs = some rest) :
    ∃ numeral, IsNumeral numeral ∧ cs = numeral ++ rest := by
  obtain ⟨digits, hne, hdigits, heq⟩ := exists_of_takeNumber h
  exact ⟨digits, ⟨hne, fun c hc => isSome_digit?_ten c ▸ hdigits c hc⟩, heq⟩

theorem eq_cons_of_takeChar {c : Char} (h : takeChar c cs = some rest) : cs = c :: rest := by
  cases cs with
  | nil => cases h
  | cons d ds =>
    rw [takeChar] at h
    split at h
    next heq => rw [heq, Option.some.inj h]
    next => cases h

/-! ## Addresses -/

/-- An IPv4 address is taken off a text as a dotted quad. -/
theorem exists_quad_of_takeAddress4 (h : takeAddress4 cs = some rest) :
    ∃ quad, IsDotted 3 quad ∧ cs = quad ++ rest := by
  obtain ⟨cs₁, h₁, h⟩ := Option.bind_eq_some_iff.1 h
  obtain ⟨cs₂, h₂, h⟩ := Option.bind_eq_some_iff.1 h
  obtain ⟨cs₃, h₃, h₄⟩ := Option.bind_eq_some_iff.1 h
  have hsigned : ∀ {ds rest' : List Char}, (takeChar '.' ds >>= takeNumber 10 3 256) = some rest' →
      ∃ numeral, IsNumeral numeral ∧ ds = '.' :: numeral ++ rest' := by
    intro ds rest' h
    obtain ⟨ds', hdot, hnumber⟩ := Option.bind_eq_some_iff.1 h
    obtain ⟨numeral, hnumeral, rfl⟩ := exists_numeral_of_takeNumber hnumber
    exact ⟨numeral, hnumeral, eq_cons_of_takeChar hdot⟩
  obtain ⟨a, ha, rfl⟩ := exists_numeral_of_takeNumber h₁
  obtain ⟨b, hb, rfl⟩ := hsigned h₂
  obtain ⟨c, hc, rfl⟩ := hsigned h₃
  obtain ⟨d, hd, rfl⟩ := hsigned h₄
  refine ⟨a ++ '.' :: (b ++ '.' :: (c ++ '.' :: d)), ?_, by simp⟩
  exact ⟨a, _, ha, ⟨b, _, hb, ⟨c, _, hc, hd, rfl⟩, rfl⟩, rfl⟩

/-- An IPv4 network holds a dotted quad. -/
theorem holdsQuad_of_isV4 (h : isV4 cs = true) : HoldsQuad cs := by
  obtain ⟨ds, hds, _⟩ := Option.bind_eq_some_iff.1 (of_decide_eq_true h)
  obtain ⟨ds', hds', _⟩ := Option.bind_eq_some_iff.1 hds
  obtain ⟨quad, hquad, rfl⟩ := exists_quad_of_takeAddress4 hds'
  exact ⟨quad, hquad, (List.prefix_append quad ds').isInfix⟩

/-! ## Dots in IPv6 networks -/

/-- A part is taken off the front of a text, and if it has a dot then it holds a dotted quad. -/
def TakesDotted (cs rest : List Char) : Prop :=
  ∃ front, cs = front ++ rest ∧ ('.' ∈ front → HoldsQuad front)

namespace TakesDotted

theorem refl (cs : List Char) : TakesDotted cs cs :=
  ⟨[], rfl, nofun⟩

theorem of_not_mem {front : List Char} (h : '.' ∉ front) (rest : List Char) :
    TakesDotted (front ++ rest) rest :=
  ⟨front, rfl, fun hdot => absurd hdot h⟩

theorem trans {ds : List Char} (h : TakesDotted cs ds) (hrest : TakesDotted ds rest) :
    TakesDotted cs rest := by
  obtain ⟨front, rfl, hfront⟩ := h
  obtain ⟨middle, rfl, hmiddle⟩ := hrest
  refine ⟨front ++ middle, (List.append_assoc _ _ _).symm, fun hdot => ?_⟩
  rcases List.mem_append.1 hdot with hdot | hdot
  · exact (hfront hdot).mono (List.prefix_append front middle).isInfix
  · exact (hmiddle hdot).mono (List.suffix_append front middle).isInfix

end TakesDotted

theorem takesDotted_takeNumber {radix most bound : Nat}
    (h : takeNumber radix most bound cs = some rest) : TakesDotted cs rest := by
  obtain ⟨digits, _, hdigits, rfl⟩ := exists_of_takeNumber h
  refine .of_not_mem (fun hdot => ?_) rest
  have hnone : (Number.digit? radix '.').isSome = false := by
    simp [Number.digit?]
  rw [hdigits _ hdot] at hnone
  cases hnone

theorem takesDotted_takeChar {c : Char} (hc : c ≠ '.') (h : takeChar c cs = some rest) :
    TakesDotted cs rest := by
  rw [eq_cons_of_takeChar h]
  exact ⟨[c], rfl, fun hdot => absurd (List.mem_singleton.1 hdot).symm hc⟩

theorem takesDotted_takeAddress4 (h : takeAddress4 cs = some rest) : TakesDotted cs rest := by
  obtain ⟨quad, hquad, rfl⟩ := exists_quad_of_takeAddress4 h
  exact ⟨quad, rfl, fun _ => ⟨quad, hquad, List.infix_refl quad⟩⟩

/-- What is read of an IPv6 network has no dots but those of embedded IPv4 addresses. -/
theorem Reads.takesDotted (h : Reads cs rest) : TakesDotted cs rest := by
  induction h with
  | refl cs => exact .refl cs
  | number _ hpart _ ih => exact (takesDotted_takeNumber hpart).trans ih
  | sign hc hpart _ ih =>
    refine (takesDotted_takeChar ?_ hpart).trans ih
    rcases hc with rfl | rfl <;> decide
  | address4 hpart _ ih => exact (takesDotted_takeAddress4 hpart).trans ih

/-- An IPv6 network holds a dotted quad exactly if it has a dot, which is one of an embedded IPv4
address. -/
theorem holdsQuad_iff_of_isV6 (h : isV6 cs = true) : HoldsQuad cs ↔ '.' ∈ cs := by
  constructor
  · rintro ⟨_, ⟨first, others, _, _, rfl⟩, hwithin⟩
    exact hwithin.subset (by simp)
  · intro hdot
    obtain ⟨front, heq, hfront⟩ := (reads_of_isV6 h).takesDotted
    rw [List.append_nil] at heq
    rw [heq] at hdot ⊢
    exact hfront hdot

end RoutingRules.Network

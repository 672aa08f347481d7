import RoutingRules.Number.Text
import RoutingRules.Proofs.Number.Natural

/-!
# Characters of numbers

The text of a number has digits, and beside them only a sign, a point and the mark of an exponent.

Main results:

- Theorem {lit}`isNumeric_of_mem_decimalInt`: this holds of integers.
- Theorem {lit}`isNumeric_of_mem_render`: this holds of floating-point numbers.
-/

namespace RoutingRules.Number

/-- Whether a character can be in the text of a number. -/
def isNumeric (c : Char) : Bool :=
  c.isDigit || ['-', '+', '.', 'e'].contains c

theorem isNumeric_of_mem_toDigits {c : Char} {n : Nat} (h : c ∈ Nat.toDigits 10 n) :
    isNumeric c = true := by
  rw [isNumeric, Nat.isDigit_of_mem_toDigits (by decide) (by decide) h, Bool.true_or]

/-- The text of an integer has the characters of numbers. -/
theorem isNumeric_of_mem_decimalInt {i : Int} : ∀ c ∈ (decimalInt i).toList, isNumeric c = true := by
  have hdecimal : ∀ n, ∀ c ∈ (decimal n).toList, isNumeric c = true := by
    intro n c hc
    rw [decimal, String.toList_ofList] at hc
    exact isNumeric_of_mem_toDigits hc
  have hsign : ∀ c ∈ "-".toList, isNumeric c = true := List.all_eq_true.1 (by decide)
  unfold decimalInt
  split
  · rw [String.toList_append, List.forall_mem_append]
    exact ⟨hsign, hdecimal _⟩
  · exact hdecimal _

theorem isNumeric_of_mem_exponent {style : ExponentStyle} {e : Int} :
    ∀ c ∈ style.render e, isNumeric c = true := by
  have hsign : ∀ c ∈ (if e < 0 then ['-'] else if style = .signed then ['+'] else []),
      isNumeric c = true := by
    split
    · exact List.all_eq_true.1 (by decide)
    · split <;> exact List.all_eq_true.1 (by decide)
  rw [ExponentStyle.render, List.cons_append, List.forall_mem_cons, List.forall_mem_append]
  exact ⟨by decide, hsign, fun c => isNumeric_of_mem_toDigits⟩

/-- Digits and a power of ten are laid out with the characters of numbers. -/
theorem isNumeric_of_mem_layout {style : ExponentStyle} {digits : Nat} {power : Int} :
    ∀ c ∈ layout style digits power, isNumeric c = true := by
  have hdigits : ∀ c ∈ Nat.toDigits 10 digits, isNumeric c = true := fun c =>
    isNumeric_of_mem_toDigits
  have hzero : isNumeric '0' = true := by decide
  have hpoint : isNumeric '.' = true := by decide
  have hzeros : ∀ n, ∀ c ∈ List.replicate n '0', isNumeric c = true := by
    intro n c hc
    rw [List.eq_of_mem_replicate hc, hzero]
  unfold layout
  generalize Nat.toDigits 10 digits = ds at hdigits
  dsimp only
  split
  · simp only [List.forall_mem_append, List.forall_mem_cons]
    exact ⟨⟨hdigits, hzeros _⟩, hpoint, hzero, by simp⟩
  split
  · simp only [List.forall_mem_append, List.forall_mem_cons]
    exact ⟨fun c hc => hdigits c (List.mem_of_mem_take hc), hpoint,
      fun c hc => hdigits c (List.mem_of_mem_drop hc)⟩
  split
  · simp only [List.forall_mem_append, List.forall_mem_cons]
    exact ⟨⟨hzero, hpoint, hzeros _⟩, hdigits⟩
  -- With an exponent, a point stands only behind the first of several digits.
  split
  · exact List.forall_mem_cons.2 ⟨hdigits _ List.mem_cons_self, isNumeric_of_mem_exponent⟩
  · obtain ⟨hfirst, hrest⟩ := List.forall_mem_cons.1 hdigits
    simp only [List.forall_mem_append, List.forall_mem_cons]
    exact ⟨⟨hfirst, hpoint, hrest⟩, isNumeric_of_mem_exponent⟩
  · simp

/-- The text of a floating-point number has the characters of numbers. -/
theorem isNumeric_of_mem_render {style : ExponentStyle} {x : Binary64} :
    ∀ c ∈ (x.render style).toList, isNumeric c = true := by
  have hbody : ∀ c ∈ (if x.mantissa = 0 then ['0', '.', '0']
      else layout style x.shortest.1 x.shortest.2), isNumeric c = true := by
    split
    · exact List.all_eq_true.1 (by decide)
    · exact isNumeric_of_mem_layout
  rw [Binary64.render, String.toList_ofList]
  dsimp only
  split
  · exact List.forall_mem_cons.2 ⟨by decide, hbody⟩
  · exact hbody

end RoutingRules.Number

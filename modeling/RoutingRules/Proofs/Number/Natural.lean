import RoutingRules.Number.Natural

/-!
# Reading decimal text back

The decimal text of a natural number is read as the number again, as long as it stays within the
bound of the reader.

Main results:

- Theorem {lit}`readAtMost_toDigits`: the reader of bounded numbers undoes decimal text.
- Theorem {lit}`readAtMost_le`: what it reads does not exceed the bound.
-/

namespace RoutingRules.Number

/-- The digit of a number below ten has the number as its value. -/
theorem digit?_digitChar {d : Nat} (h : d < 10) : digit? 10 (Nat.digitChar d) = some d := by
  have hall : ∀ d < 10, digit? 10 (Nat.digitChar d) = some d := by decide
  exact hall d h

/-- Reading one more digit appends it to the number, if the bound allows it. -/
theorem readDigits_digitChar {most acc d : Nat} (hd : d < 10) (hmost : acc * 10 + d ≤ most)
    (cs : List Char) :
    readDigits most acc (Nat.digitChar d :: cs) = readDigits most (acc * 10 + d) cs := by
  simp only [readDigits, digit?_digitChar hd]
  rw [if_neg (Nat.not_lt.2 hmost)]

/-- Reading the digits of a number off the front of a text leaves the number and the rest. -/
theorem readDigits_toDigits {most n : Nat} (h : n ≤ most) (cs : List Char) :
    readDigits most 0 (Nat.toDigits 10 n ++ cs) = readDigits most n cs := by
  induction n using Nat.strongRecOn generalizing cs with
  | ind n ih =>
    rw [Nat.toDigits_eq_if (by omega)]
    split
    next hsmall =>
      rw [List.singleton_append, readDigits_digitChar hsmall (by omega), Nat.zero_mul,
        Nat.zero_add]
    next hlarge =>
      have hlast : n / 10 * 10 + n % 10 = n := by omega
      rw [List.append_assoc, ih (n / 10) (by omega) (by omega), List.singleton_append,
        readDigits_digitChar (Nat.mod_lt n (by omega)) (by omega), hlast]

/-- Reading digits onto a number within the bound stays within it. -/
theorem readDigits_le {most acc n : Nat} {cs : List Char} (hacc : acc ≤ most)
    (h : readDigits most acc cs = .ok n) : n ≤ most := by
  induction cs generalizing acc with
  | nil =>
    obtain rfl : acc = n := Except.ok.inj h
    exact hacc
  | cons c cs ih =>
    simp only [readDigits] at h
    split at h
    next => cases h
    next d _ =>
      split at h
      next => cases h
      next hle => exact ih (Nat.le_of_not_lt hle) h

/-- A number that was read does not exceed the bound. -/
theorem readAtMost_le {most n : Nat} {cs : List Char} (h : readAtMost most cs = .ok n) :
    n ≤ most := by
  unfold readAtMost at h
  split at h
  next => cases h
  next => cases h
  next => exact readDigits_le (Nat.zero_le _) h
  next => exact readDigits_le (Nat.zero_le _) h

/-- No character outside the digits is in decimal text. -/
theorem not_mem_toDigits {c : Char} (hc : c.isDigit = false) (n : Nat) :
    c ∉ Nat.toDigits 10 n := by
  intro hmem
  have hdigit := Nat.isDigit_of_mem_toDigits (by decide) (by decide) hmem
  rw [hc] at hdigit
  cases hdigit

/-- A text without a plus sign in front is read as digits. -/
theorem readAtMost_of_head {most : Nat} {c : Char} {cs : List Char} (hc : c ≠ '+') :
    readAtMost most (c :: cs) = readDigits most 0 (c :: cs) := by
  unfold readAtMost
  split <;> simp_all

/-- The reader of bounded numbers undoes decimal text. -/
theorem readAtMost_toDigits {most n : Nat} (h : n ≤ most) :
    readAtMost most (Nat.toDigits 10 n) = .ok n := by
  obtain ⟨c, cs, hcs⟩ := List.exists_cons_of_ne_nil (Nat.toDigits_ne_nil (b := 10) (n := n))
  have hplus : c ≠ '+' := by
    rintro rfl
    exact not_mem_toDigits (by decide) n (hcs ▸ List.mem_cons_self)
  have hread := readDigits_toDigits h []
  rw [List.append_nil] at hread
  rw [hcs] at hread ⊢
  rw [readAtMost_of_head hplus, hread]
  rfl

end RoutingRules.Number

import Mathlib.Data.List.Forall2

/-!
# Computations that can fail

How a computation that succeeds was put together: each step of it succeeded, and a walk over a
list succeeded at every entry.  One that fails has the error of the step that fails first.

Main results:

- Theorem {lit}`Except.bind_eq_ok_iff`: a sequence of two steps succeeds when both do.
- Theorem {lit}`Except.mapM_eq_ok_iff`: a walk over a list succeeds with the results of its
  entries.
- Theorem {lit}`Except.mapM_eq_error_iff`: a walk over a list fails with the error of its first
  entry that fails.
- Theorem {lit}`Except.mapM_succeeds`: a walk over a list succeeds when every entry does.
-/

namespace RoutingRules

/-- An entry of a list that is related to another one has its counterpart there. -/
theorem exists_mem_of_forall₂ {α β : Type} {r : α → β → Prop} {xs : List α} {ys : List β}
    (h : List.Forall₂ r xs ys) {y : β} (hy : y ∈ ys) : ∃ x ∈ xs, r x y := by
  induction h with
  | nil => cases hy
  | cons hr _ ih =>
    rcases List.mem_cons.1 hy with rfl | hy
    · exact ⟨_, List.mem_cons_self, hr⟩
    · obtain ⟨x, hx, hxy⟩ := ih hy
      exact ⟨x, List.mem_cons_of_mem _ hx, hxy⟩

/-- Related lists are related in another way when each entry of the first one is. -/
theorem forall₂_imp_of_mem {α β : Type} {r s : α → β → Prop} {xs : List α} {ys : List β}
    (h : List.Forall₂ r xs ys) (himp : ∀ x ∈ xs, ∀ y, r x y → s x y) : List.Forall₂ s xs ys :=
  ((List.forall₂_and_left _ _).2 ⟨himp, h⟩).imp fun _ y hxy => hxy.1 y hxy.2

/-- All entries of a related list have a property when the lists are related in another way, if that
is what the property says of related entries. -/
theorem forall_mem_iff_forall₂ {α β : Type} {r s : α → β → Prop} {p : β → Prop} {xs : List α}
    {ys : List β} (h : List.Forall₂ r xs ys) (hiff : ∀ x ∈ xs, ∀ y, r x y → (p y ↔ s x y)) :
    (∀ y ∈ ys, p y) ↔ List.Forall₂ s xs ys := by
  induction h with
  | nil => simp
  | cons hxy _ ih =>
    obtain ⟨hfirst, hothers⟩ := List.forall_mem_cons.1 hiff
    rw [List.forall_mem_cons, List.forall₂_cons, hfirst _ hxy, ih hothers]

/-- Lists related by a relation that also asks for a property of the second entry are related lists
of which the second one has the property throughout. -/
theorem forall₂_and_right_iff {α β : Type} {r : α → β → Prop} {p : β → Prop} {xs : List α}
    {ys : List β} :
    List.Forall₂ (fun x y => r x y ∧ p y) xs ys ↔ List.Forall₂ r xs ys ∧ ∀ y ∈ ys, p y := by
  have hright : List.Forall₂ r xs ys →
      ((∀ y ∈ ys, p y) ↔ List.Forall₂ (fun x y => r x y ∧ p y) xs ys) := fun h =>
    forall_mem_iff_forall₂ h fun _ _ _ hxy => ⟨fun hp => ⟨hxy, hp⟩, And.right⟩
  constructor
  · intro h
    have hr := h.imp fun _ _ hxy => hxy.1
    exact ⟨hr, (hright hr).2 h⟩
  · rintro ⟨hr, hp⟩
    exact (hright hr).1 hp

/-- A list related to an appended one falls into two parts. -/
theorem exists_of_forall₂_append {α β : Type} {r : α → β → Prop} {xs xs' : List α} {ys : List β}
    (h : List.Forall₂ r (xs ++ xs') ys) :
    ∃ zs zs', ys = zs ++ zs' ∧ List.Forall₂ r xs zs ∧ List.Forall₂ r xs' zs' := by
  induction xs generalizing ys with
  | nil => exact ⟨[], ys, rfl, .nil, h⟩
  | cons x xs ih =>
    cases h with
    | cons hxy h =>
      obtain ⟨zs, zs', rfl, hzs, hzs'⟩ := ih h
      exact ⟨_ :: zs, zs', rfl, .cons hxy hzs, hzs'⟩

/-- Entries with a counterpart each have a list of counterparts. -/
theorem exists_forall₂ {α β : Type} {r : α → β → Prop} {xs : List α}
    (h : ∀ x ∈ xs, ∃ y, r x y) : ∃ ys, List.Forall₂ r xs ys := by
  induction xs with
  | nil => exact ⟨[], .nil⟩
  | cons x xs ih =>
    rcases List.forall_mem_cons.1 h with ⟨⟨y, hy⟩, hothers⟩
    rcases ih hothers with ⟨ys, hys⟩
    exact ⟨y :: ys, .cons hy hys⟩

namespace Except

variable {ε α β : Type}

/-- A sequence of two steps succeeds when both do. -/
theorem bind_eq_ok_iff {x : Except ε α} {f : α → Except ε β} {b : β} :
    (x >>= f) = .ok b ↔ ∃ a, x = .ok a ∧ f a = .ok b := by
  cases x with
  | error e => simp [bind, Except.bind]
  | ok a => simp [bind, Except.bind]

/-- A sequence of two steps fails with the error of the step that fails first. -/
theorem bind_eq_error_iff {x : Except ε α} {f : α → Except ε β} {e : ε} :
    (x >>= f) = .error e ↔ x = .error e ∨ ∃ a, x = .ok a ∧ f a = .error e := by
  cases x with
  | error e' => simp [bind, Except.bind]
  | ok a => simp [bind, Except.bind]

/-- The wording of an error does not matter for the result. -/
@[simp] theorem toOption_mapError {ε' : Type} (x : Except ε α) (wrap : ε → ε') :
    (x.mapError wrap).toOption = x.toOption := by
  cases x <;> rfl

theorem toOption_eq_some_iff {x : Except ε α} {a : α} : x.toOption = some a ↔ x = .ok a := by
  cases x <;> simp [Except.toOption]

/-- A computation that succeeds has a result with all that holds of each of its results. -/
theorem exists_of_isSome_toOption {x : Except ε α} {p : α → Prop}
    (hx : x.toOption.isSome = true) (h : ∀ a, x = .ok a → p a) : ∃ a, x = .ok a ∧ p a := by
  obtain ⟨a, ha⟩ := Option.isSome_iff_exists.1 hx
  have hx := toOption_eq_some_iff.1 ha
  exact ⟨a, hx, h a hx⟩

/-- A result that is changed afterwards was there before. -/
theorem map_eq_ok_iff {x : Except ε α} {f : α → β} {b : β} :
    x.map f = .ok b ↔ ∃ a, x = .ok a ∧ f a = b := by
  cases x with
  | error e => simp [Except.map]
  | ok a => simp [Except.map]

/-- A walk over a list succeeds with the results of its entries in order. -/
theorem mapM_eq_ok_iff {f : α → Except ε β} {entries : List α} {results : List β} :
    entries.mapM f = .ok results ↔ List.Forall₂ (fun a b => f a = .ok b) entries results := by
  induction entries generalizing results with
  | nil =>
    rw [List.mapM_nil, List.forall₂_nil_left_iff]
    exact ⟨fun h => (Except.ok.inj h).symm, fun h => congrArg Except.ok h.symm⟩
  | cons a entries ih =>
    rw [List.mapM_cons, bind_eq_ok_iff]
    constructor
    · rintro ⟨b, hb, hrest⟩
      obtain ⟨bs, hbs, hresults⟩ := bind_eq_ok_iff.1 hrest
      obtain rfl : b :: bs = results := Except.ok.inj hresults
      exact List.Forall₂.cons hb (ih.1 hbs)
    · intro h
      cases h with
      | cons hb hbs => exact ⟨_, hb, bind_eq_ok_iff.2 ⟨_, ih.2 hbs, rfl⟩⟩

/-- A walk over a list fails with the error of the first entry that fails. -/
theorem mapM_eq_error_iff {f : α → Except ε β} {entries : List α} {e : ε} :
    entries.mapM f = .error e ↔ ∃ before a after, entries = before ++ a :: after ∧
      (∀ earlier ∈ before, ∃ b, f earlier = .ok b) ∧ f a = .error e := by
  induction entries with
  | nil =>
    constructor
    · intro h
      cases h
    · rintro ⟨before, a, after, hentries, _⟩
      simp at hentries
  | cons first entries ih =>
    have hrest : ∀ b, (do let bs ← entries.mapM f; pure (b :: bs)) = .error e ↔
        entries.mapM f = .error e := by
      intro b
      rw [bind_eq_error_iff]
      exact ⟨fun h => h.resolve_right nofun, Or.inl⟩
    rw [List.mapM_cons, bind_eq_error_iff]
    simp only [hrest, ih]
    constructor
    · rintro (hfirst | ⟨b, hfirst, before, a, after, rfl, hbefore, ha⟩)
      · exact ⟨[], first, entries, rfl, nofun, hfirst⟩
      · exact ⟨first :: before, a, after, rfl, List.forall_mem_cons.2 ⟨⟨b, hfirst⟩, hbefore⟩, ha⟩
    · rintro ⟨_ | ⟨_, before⟩, a, after, hentries, hbefore, ha⟩
      · obtain ⟨rfl, rfl⟩ := List.cons.inj hentries
        exact .inl ha
      · obtain ⟨rfl, rfl⟩ := List.cons.inj hentries
        obtain ⟨⟨b, hfirst⟩, hbefore⟩ := List.forall_mem_cons.1 hbefore
        exact .inr ⟨b, hfirst, before, a, after, rfl, hbefore, ha⟩

/-- A walk over a list succeeds when every entry does. -/
theorem mapM_succeeds {f : α → Except ε β} {entries : List α}
    (h : ∀ a ∈ entries, ∃ b, f a = .ok b) : ∃ results, entries.mapM f = .ok results := by
  rcases exists_forall₂ h with ⟨results, hresults⟩
  exact ⟨results, mapM_eq_ok_iff.2 hresults⟩

end Except

end RoutingRules

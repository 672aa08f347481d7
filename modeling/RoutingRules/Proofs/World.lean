import Mathlib.Data.List.Forall2
import RoutingRules.World

/-!
# Runs that succeed and runs that fail

How a computation in a world that succeeds was put together, and where one that fails stopped.  A
run gives its result and leaves a world behind; the world a computation starts in and the computation
decide both, so two runs from one world cannot come apart.

Main results:

- Theorem {lit}`Task.yields_bind`: a sequence of two steps succeeds when both do, the second one
  in the world that the first one leaves.
- Theorem {lit}`Task.Yields.unique`: runs from one world have one result.
- Theorem {lit}`Task.forall₂_of_yields_mapM`: a walk over a list that succeeds succeeded at every
  entry, each in some world.
- Theorem {lit}`Task.exists_of_fails_mapM`: a walk over a list that fails succeeded at the entries
  before one at which it failed.
-/

namespace RoutingRules.Task

variable {ε σ α β : Type}

/-- From a world a computation succeeds with a result and leaves another world behind. -/
def Yields (task : Task ε σ α) (before : World σ) (a : α) (after : World σ) : Prop :=
  task.run.run before = (.ok a, after)

/-- From a world a computation fails and leaves another world behind. -/
def Fails (task : Task ε σ α) (before : World σ) (e : ε) (after : World σ) : Prop :=
  task.run.run before = (.error e, after)

variable {before after : World σ}

/-! ## Steps -/

theorem run_bind (task : Task ε σ α) (next : α → Task ε σ β) (w : World σ) :
    (task >>= next).run.run w =
      match task.run.run w with
      | (.ok a, between) => (next a).run.run between
      | (.error e, between) => (.error e, between) := by
  simp only [ExceptT.run_bind, StateT.run_bind]
  rcases task.run.run w with ⟨answer | answer, between⟩ <;> rfl

theorem run_mapError {ε' : Type} (wrap : ε → ε') (task : Task ε σ α) (w : World σ) :
    (mapError wrap task).run.run w = ((task.run.run w).1.mapError wrap, (task.run.run w).2) := by
  unfold mapError
  rw [ExceptT.run_mk, StateT.run]
  rcases task.run.run w with ⟨e | a, between⟩ <;> rfl

/-- Runs from one world have one result. -/
theorem Yields.unique {task : Task ε σ α} {a b : α} {other : World σ}
    (ha : task.Yields before a after) (hb : task.Yields before b other) :
    a = b ∧ after = other := by
  have hsame : (Except.ok a, after) = ((Except.ok b, other) : Except ε α × World σ) :=
    ha.symm.trans hb
  exact ⟨Except.ok.inj (congrArg Prod.fst hsame), congrArg Prod.snd hsame⟩

@[simp] theorem yields_pure {a b : α} :
    (pure a : Task ε σ α).Yields before b after ↔ a = b ∧ before = after := by
  show ((.ok a, before) : Except ε α × World σ) = (.ok b, after) ↔ _
  simp

/-- A sequence of two steps succeeds when both do, one after the other. -/
theorem yields_bind {task : Task ε σ α} {next : α → Task ε σ β} {b : β} :
    (task >>= next).Yields before b after ↔
      ∃ a between, task.Yields before a between ∧ (next a).Yields between b after := by
  unfold Yields
  rw [run_bind]
  rcases task.run.run before with ⟨answer | answer, between⟩
  · constructor
    · nofun
    · rintro ⟨a, w, hfirst, _⟩
      cases hfirst
  · constructor
    · exact fun h => ⟨answer, between, rfl, h⟩
    · rintro ⟨a, w, hfirst, h⟩
      cases hfirst
      exact h

/-- A step that only computes succeeds when the computation does. -/
@[simp] theorem yields_lift {result : Except ε α} {a : α} :
    (liftM result : Task ε σ α).Yields before a after ↔ result = .ok a ∧ before = after := by
  show ((result, before) : Except ε α × World σ) = (.ok a, after) ↔ _
  simp

@[simp] theorem not_yields_throw {e : ε} {a : α} :
    ¬(throw e : Task ε σ α).Yields before a after := by
  show ¬((.error e, before) : Except ε α × World σ) = (.ok a, after)
  simp

/-- A step that only fetches succeeds when its requests do. -/
theorem yields_fetching {run : FileTree → Fetching σ α} {a : α} :
    (fetching run).Yields before a after ↔
      ∃ remote, (run before.files).run.run before.remote = (.ok a, remote) ∧
        { before with remote } = after := by
  show ((((run before.files).run.run before.remote).1,
    { before with remote := ((run before.files).run.run before.remote).2 }) :
      Except RuleError α × World σ) = (.ok a, after) ↔ _
  rcases (run before.files).run.run before.remote with ⟨answer, remote⟩
  constructor
  · intro h
    cases h
    exact ⟨remote, rfl, rfl⟩
  · rintro ⟨other, hanswer, rfl⟩
    cases hanswer
    rfl

/-- The form of errors does not matter for success. -/
@[simp] theorem yields_mapError {ε' : Type} {wrap : ε → ε'} {task : Task ε σ α} {a : α} :
    (mapError wrap task).Yields before a after ↔ task.Yields before a after := by
  unfold Yields
  rw [run_mapError]
  rcases task.run.run before with ⟨answer | answer, between⟩
  · exact ⟨nofun, nofun⟩
  · constructor <;> intro h <;> cases h <;> rfl

/-! ## Failures -/

@[simp] theorem not_fails_pure {a : α} {e : ε} :
    ¬(pure a : Task ε σ α).Fails before e after := by
  show ¬((.ok a, before) : Except ε α × World σ) = (.error e, after)
  simp

/-- A sequence of two steps fails when the first one does, or when it succeeds and the second one
fails. -/
theorem fails_bind {task : Task ε σ α} {next : α → Task ε σ β} {e : ε} :
    (task >>= next).Fails before e after ↔
      task.Fails before e after ∨
        ∃ a between, task.Yields before a between ∧ (next a).Fails between e after := by
  unfold Fails Yields
  rw [run_bind]
  rcases task.run.run before with ⟨answer | answer, between⟩
  · constructor
    · intro h
      cases h
      exact .inl rfl
    · rintro (h | ⟨a, w, hfirst, _⟩)
      · cases h
        rfl
      · cases hfirst
  · refine ⟨fun h => .inr ⟨answer, between, rfl, h⟩, ?_⟩
    rintro (hfirst | ⟨a, w, hfirst, h⟩)
    · cases hfirst
    · cases hfirst
      exact h

/-- A step that only computes fails when the computation does. -/
@[simp] theorem fails_lift {result : Except ε α} {e : ε} :
    (liftM result : Task ε σ α).Fails before e after ↔ result = .error e ∧ before = after := by
  show ((result, before) : Except ε α × World σ) = (.error e, after) ↔ _
  simp

@[simp] theorem fails_throw {e e' : ε} :
    (throw e : Task ε σ α).Fails before e' after ↔ e = e' ∧ before = after := by
  show ((.error e, before) : Except ε α × World σ) = (.error e', after) ↔ _
  simp

/-- A computation whose errors get another form fails when it does. -/
theorem fails_mapError {ε' : Type} {wrap : ε → ε'} {task : Task ε σ α} {e : ε'} :
    (mapError wrap task).Fails before e after ↔
      ∃ cause, task.Fails before cause after ∧ wrap cause = e := by
  unfold Fails
  rw [run_mapError]
  rcases task.run.run before with ⟨answer | answer, between⟩
  · constructor
    · intro h
      cases h
      exact ⟨answer, rfl, rfl⟩
    · rintro ⟨cause, hcause, rfl⟩
      cases hcause
      rfl
  · constructor
    · nofun
    · rintro ⟨cause, hcause, _⟩
      cases hcause

/-! ## Runs that are carried out -/

/-- Whether a computation succeeds in a world with a result that passes a check. -/
def succeedsWith (task : Task ε σ α) (before : World σ) (check : α → Bool) : Bool :=
  match task.run.run before with
  | (.ok a, _) => check a
  | (.error _, _) => false

theorem exists_of_succeedsWith {task : Task ε σ α} {check : α → Bool}
    (h : task.succeedsWith before check = true) :
    ∃ a after, task.Yields before a after ∧ check a = true := by
  unfold succeedsWith at h
  split at h
  next a after hrun => exact ⟨a, after, hrun, h⟩
  next => cases h

/-- Whether a computation succeeds in a world, and its result and what it leaves behind pass a check. -/
def yieldsWith (task : Task ε σ α) (before : World σ) (check : α → World σ → Bool) : Bool :=
  match task.run.run before with
  | (.ok a, after) => check a after
  | (.error _, _) => false

theorem exists_of_yieldsWith {task : Task ε σ α} {check : α → World σ → Bool}
    (h : task.yieldsWith before check = true) :
    ∃ a after, task.Yields before a after ∧ check a after = true := by
  unfold yieldsWith at h
  split at h
  next a after hrun => exact ⟨a, after, hrun, h⟩
  next => cases h

/-- Whether a computation fails in a world, and its error and what it leaves behind pass a check. -/
def failsWith (task : Task ε σ α) (before : World σ) (check : ε → World σ → Bool) : Bool :=
  match task.run.run before with
  | (.ok _, _) => false
  | (.error e, after) => check e after

theorem exists_of_failsWith {task : Task ε σ α} {check : ε → World σ → Bool}
    (h : task.failsWith before check = true) :
    ∃ e after, task.Fails before e after ∧ check e after = true := by
  unfold failsWith at h
  split at h
  next => cases h
  next e after hrun => exact ⟨e, after, hrun, h⟩

/-! ## Walks -/

/-- A walk over a list that succeeds succeeded at every entry, each in some world. -/
theorem forall₂_of_yields_mapM {f : α → Task ε σ β} {entries : List α} {results : List β}
    (h : (entries.mapM f).Yields before results after) :
    List.Forall₂ (fun a b => ∃ w w', (f a).Yields w b w') entries results := by
  induction entries generalizing before after results with
  | nil =>
    rw [List.mapM_nil, yields_pure] at h
    rw [← h.1]
    exact List.Forall₂.nil
  | cons a entries ih =>
    simp only [List.mapM_cons, yields_bind, yields_pure] at h
    obtain ⟨b, w, hb, bs, w', hbs, rfl, _⟩ := h
    exact List.Forall₂.cons ⟨_, _, hb⟩ (ih hbs)

/-- A walk over a list that fails succeeded at the entries before one at which it failed. -/
theorem exists_of_fails_mapM {f : α → Task ε σ β} {entries : List α} {e : ε}
    (h : (entries.mapM f).Fails before e after) :
    ∃ front a rest results between, entries = front ++ a :: rest ∧
      (front.mapM f).Yields before results between ∧ (f a).Fails between e after := by
  induction entries generalizing before with
  | nil =>
    rw [List.mapM_nil] at h
    exact absurd h not_fails_pure
  | cons a entries ih =>
    rw [List.mapM_cons, fails_bind] at h
    rcases h with h | ⟨b, between, hb, h⟩
    · refine ⟨[], a, entries, [], before, rfl, ?_, h⟩
      rw [List.mapM_nil]
      exact yields_pure.2 ⟨rfl, rfl⟩
    · rw [fails_bind] at h
      rcases h with h | ⟨bs, _, _, h⟩
      · obtain ⟨front, a', rest, results, w, rfl, hfront, hfails⟩ := ih h
        refine ⟨a :: front, a', rest, b :: results, w, rfl, ?_, hfails⟩
        rw [List.mapM_cons]
        simp only [yields_bind, yields_pure]
        exact ⟨b, between, hb, results, w, hfront, rfl, rfl⟩
      · exact absurd h not_fails_pure

end RoutingRules.Task

import Mathlib.Data.List.Forall2

/-!
# Computations that may fail

What the success of a computation in `Except` says about its steps. A list is treated item by item
with `List.mapM`, which succeeds exactly when each item does (`mapM_eq_ok_iff`), and otherwise fails
with the error of the first item that fails (`mapM_eq_error_iff`).
-/

namespace ImportSweep

variable {ε α β : Type}

theorem pure_eq_ok_iff {a b : α} : (pure a : Except ε α) = .ok b ↔ a = b :=
  ⟨Except.ok.inj, congrArg Except.ok⟩

/-- A result is what is left when errors are forgotten. In this form it can be decided. -/
theorem toOption_eq_some_iff {x : Except ε α} {a : α} : x.toOption = some a ↔ x = .ok a := by
  cases x with
  | error e => simp [Except.toOption]
  | ok b => simp [Except.toOption]

/-- Two steps succeed exactly when the first does and the second does on its result. -/
theorem bind_eq_ok_iff {x : Except ε α} {f : α → Except ε β} {b : β} :
    (x >>= f) = .ok b ↔ ∃ a, x = .ok a ∧ f a = .ok b := by
  cases x with
  | error e => simp [bind, Except.bind]
  | ok a => simp [bind, Except.bind]

/-- The same for a first step that is only a check. -/
theorem bind_unit_eq_ok_iff {x : Except ε Unit} {f : Unit → Except ε β} {b : β} :
    (x >>= f) = .ok b ↔ x = .ok () ∧ f () = .ok b := by
  cases x with
  | error e => simp [bind, Except.bind]
  | ok a => simp [bind, Except.bind]

/-- A result is mapped when there is one. -/
theorem map_eq_ok_iff {x : Except ε α} {f : α → β} {b : β} :
    f <$> x = .ok b ↔ ∃ a, x = .ok a ∧ f a = b := by
  cases x with
  | error e => simp [Functor.map, Except.map]
  | ok a => simp [Functor.map, Except.map]

/-- Two steps fail when the first does, or when the second does on its result. -/
theorem bind_eq_error_iff {x : Except ε α} {f : α → Except ε β} {e : ε} :
    (x >>= f) = .error e ↔ x = .error e ∨ ∃ a, x = .ok a ∧ f a = .error e := by
  cases x with
  | error e' => simp [bind, Except.bind]
  | ok a => simp [bind, Except.bind]

/-- A last step that cannot fail adds no error. -/
theorem bind_pure_eq_error_iff {x : Except ε α} {f : α → β} {e : ε} :
    (x >>= fun a => pure (f a)) = .error e ↔ x = .error e := by
  cases x with
  | error e' => simp [bind, Except.bind]
  | ok a => simp [bind, Except.bind, pure, Except.pure]

/-- There is an error when there is no result. -/
theorem exists_eq_error_iff {x : Except ε α} : (∃ e, x = .error e) ↔ ¬ ∃ a, x = .ok a := by
  cases x with
  | error e => simp
  | ok a => simp

/-- Another error does not make a result. -/
theorem mapError_eq_ok_iff {ε' : Type} {x : Except ε α} {f : ε → ε'} {a : α} :
    x.mapError f = .ok a ↔ x = .ok a := by
  cases x with
  | error e => simp [Except.mapError]
  | ok b => simp [Except.mapError]

/-- To change a result twice is one change. -/
theorem map_map {γ : Type} (x : Except ε α) (f : α → β) (g : β → γ) :
    (x.map f).map g = x.map fun a => g (f a) := by
  cases x with
  | error e => rfl
  | ok a => rfl

/-- Whether there is a result with some property. -/
instance decidableExistsOk {p : α → Prop} [DecidablePred p] :
    (x : Except ε α) → Decidable (∃ a, x = .ok a ∧ p a)
  | .error _ => isFalse fun ⟨_, h, _⟩ => nomatch h
  | .ok a => decidable_of_iff (p a) ⟨fun h => ⟨a, rfl, h⟩, fun ⟨_, h, hp⟩ => Except.ok.inj h ▸ hp⟩

/-- Errors forgotten, the results for a list are the results for its items. -/
theorem toOption_mapM {f : α → Except ε β} {items : List α} :
    (items.mapM f).toOption = (items.map fun a => (f a).toOption).mapM id := by
  induction items with
  | nil => rfl
  | cons a items ih =>
    simp only [List.mapM_cons, List.map_cons, ← ih]
    cases f a <;> cases items.mapM f <;> rfl

/-- The same, with the errors forgotten at each item. -/
theorem mapM_toOption {f : α → Except ε β} {items : List α} :
    (items.mapM fun a => (f a).toOption) = (items.mapM f).toOption := by
  rw [toOption_mapM]
  induction items with
  | nil => rfl
  | cons a items ih => rw [List.mapM_cons, ih, List.map_cons, List.mapM_cons]; rfl

/-- A list is treated with success exactly when each of its items is. -/
theorem mapM_eq_ok_iff {f : α → Except ε β} {items : List α} {results : List β} :
    items.mapM f = .ok results ↔ List.Forall₂ (fun a b => f a = .ok b) items results := by
  induction items generalizing results with
  | nil =>
    rw [List.mapM_nil, List.forall₂_nil_left_iff, pure_eq_ok_iff, eq_comm]
  | cons a items ih =>
    rw [List.mapM_cons, List.forall₂_cons_left_iff, bind_eq_ok_iff]
    constructor
    · -- The first item, the others, and then the two results together.
      rintro ⟨b, hb, h⟩
      obtain ⟨bs, hbs, h⟩ := bind_eq_ok_iff.1 h
      exact ⟨b, bs, hb, ih.1 hbs, (pure_eq_ok_iff.1 h).symm⟩
    · rintro ⟨b, bs, hb, hbs, rfl⟩
      exact ⟨b, hb, bind_eq_ok_iff.2 ⟨bs, ih.2 hbs, rfl⟩⟩

/-- A list is treated with success when what comes before an item, the item and what comes after it
are. -/
theorem mapM_append_cons_eq_ok_iff {f : α → Except ε β} {before after : List α} {a : α}
    {results : List β} :
    (before ++ a :: after).mapM f = .ok results ↔
      ∃ bs b cs, before.mapM f = .ok bs ∧ f a = .ok b ∧ after.mapM f = .ok cs ∧
        results = bs ++ b :: cs := by
  simp only [List.mapM_append, List.mapM_cons, bind_eq_ok_iff, pure_eq_ok_iff]
  constructor
  · rintro ⟨bs, hbs, _, ⟨b, hb, cs, hcs, rfl⟩, rfl⟩
    exact ⟨bs, b, cs, hbs, hb, hcs, rfl⟩
  · rintro ⟨bs, b, cs, hbs, hb, hcs, rfl⟩
    exact ⟨bs, hbs, _, ⟨b, hb, cs, hcs, rfl⟩, rfl⟩

/-- Some list of results exists exactly when there is a result for each item. -/
theorem exists_mapM_eq_ok_iff {f : α → Except ε β} {items : List α} :
    (∃ results, items.mapM f = .ok results) ↔ ∀ a ∈ items, ∃ b, f a = .ok b := by
  simp only [mapM_eq_ok_iff]
  induction items with
  | nil => simp
  | cons a items ih =>
    simp only [List.forall₂_cons_left_iff, List.forall_mem_cons, ← ih]
    constructor
    · rintro ⟨_, b, bs, hb, hbs, -⟩
      exact ⟨⟨b, hb⟩, bs, hbs⟩
    · rintro ⟨⟨b, hb⟩, bs, hbs⟩
      exact ⟨b :: bs, b, bs, hb, hbs, rfl⟩

/-- When the result for each item is known, the list of results is. -/
theorem mapM_eq_ok_map {f : α → Except ε β} {g : α → β} {items : List α}
    (h : ∀ a ∈ items, f a = .ok (g a)) : items.mapM f = .ok (items.map g) := by
  rw [mapM_eq_ok_iff, List.forall₂_map_right_iff]
  exact List.forall₂_same.2 h

/-- The results are what the items give. -/
theorem mem_of_mapM_eq_ok {f : α → Except ε β} {items : List α} {results : List β}
    (h : items.mapM f = .ok results) {b : β} : b ∈ results ↔ ∃ a ∈ items, f a = .ok b := by
  have hall := mapM_eq_ok_iff.1 h
  clear h
  induction hall with
  | nil => simp
  | @cons a first items results hfirst _ ih =>
    rw [List.mem_cons, List.exists_mem_cons_iff, hfirst, Except.ok.injEq]
    simp [ih, eq_comm]

/-- Where each item gives a list, the joined lists hold what the items give. -/
theorem mem_flatten_of_mapM_eq_ok {f : α → Except ε (List β)} {items : List α}
    {results : List (List β)} (h : items.mapM f = .ok results) {b : β} :
    b ∈ results.flatten ↔ ∃ a ∈ items, ∃ bs, f a = .ok bs ∧ b ∈ bs := by
  rw [List.mem_flatten]
  constructor
  · rintro ⟨bs, hbs, hb⟩
    obtain ⟨a, ha, hfa⟩ := (mem_of_mapM_eq_ok h).1 hbs
    exact ⟨a, ha, bs, hfa, hb⟩
  · rintro ⟨a, ha, bs, hfa, hb⟩
    exact ⟨bs, (mem_of_mapM_eq_ok h).2 ⟨a, ha, hfa⟩, hb⟩

/-! ## The first failure -/

/-- One item of the list fails with this error, and none before it fails. -/
def FirstFailure (fails : α → ε → Prop) (items : List α) (e : ε) : Prop :=
  ∃ before a after, items = before ++ a :: after ∧ (∀ b ∈ before, ∀ e', ¬ fails b e') ∧ fails a e

variable {fails : α → ε → Prop} {items : List α} {e : ε}

theorem not_firstFailure_nil : ¬ FirstFailure fails [] e := by
  rintro ⟨before, a, after, h, -⟩
  exact List.append_ne_nil_of_right_ne_nil before (List.cons_ne_nil a after) h.symm

/-- The first item fails, or it does not and the others do. -/
theorem firstFailure_cons_iff {a : α} :
    FirstFailure fails (a :: items) e ↔
      fails a e ∨ (∀ e', ¬ fails a e') ∧ FirstFailure fails items e := by
  constructor
  · rintro ⟨before, b, after, hsplit, hbefore, hb⟩
    cases before with
    | nil =>
      cases hsplit
      exact .inl hb
    | cons first before =>
      cases hsplit
      obtain ⟨hfirst, hbefore⟩ := List.forall_mem_cons.1 hbefore
      exact .inr ⟨hfirst, before, b, after, rfl, hbefore, hb⟩
  · rintro (ha | ⟨ha, before, b, after, rfl, hbefore, hb⟩)
    · exact ⟨[], a, items, rfl, by simp, ha⟩
    · exact ⟨a :: before, b, after, rfl, List.forall_mem_cons.2 ⟨ha, hbefore⟩, hb⟩

/-- There is a first failure as soon as some item fails. -/
theorem exists_firstFailure_iff :
    (∃ e, FirstFailure fails items e) ↔ ∃ a ∈ items, ∃ e, fails a e := by
  induction items with
  | nil => simp [not_firstFailure_nil]
  | cons a items ih =>
    simp only [firstFailure_cons_iff, exists_or, exists_and_left, ih, List.mem_cons,
      or_and_right, exists_eq_left]
    -- If the first item does not fail, then the others decide.
    by_cases ha : ∃ e, fails a e
    · simp [ha]
    · simp [not_exists.1 ha]

/-- If all failures are the same, then that is the first one. -/
theorem firstFailure_of_forall_eq {a : α} (hmem : a ∈ items) (ha : fails a e)
    (hsame : ∀ b ∈ items, ∀ e', fails b e' → e' = e) : FirstFailure fails items e := by
  obtain ⟨e', before, b, after, hitems, hbefore, hb⟩ := exists_firstFailure_iff.2 ⟨a, hmem, e, ha⟩
  have hmem : b ∈ items := by
    rw [hitems]
    exact List.mem_append_cons_self
  rw [← hsame b hmem e' hb]
  exact ⟨before, b, after, hitems, hbefore, hb⟩

/-- Where only some items count, the first failure is that of the first item that counts and fails. -/
theorem firstFailure_filterMap_iff {pick : β → Option α} {all : List β} :
    FirstFailure fails (all.filterMap pick) e ↔
      FirstFailure (fun b e => ∃ a, pick b = some a ∧ fails a e) all e := by
  induction all with
  | nil => exact iff_of_false not_firstFailure_nil not_firstFailure_nil
  | cons b all ih =>
    rw [firstFailure_cons_iff, ← ih]
    cases hpick : pick b with
    | none => simp [hpick]
    | some a => simp [hpick, firstFailure_cons_iff]

/-- A list is treated without success when an item fails, and the error is that of the first one. -/
theorem mapM_eq_error_iff {f : α → Except ε β} (hfails : ∀ a e, f a = .error e ↔ fails a e) :
    items.mapM f = .error e ↔ FirstFailure fails items e := by
  induction items with
  | nil => exact iff_of_false (by simp [pure, Except.pure]) not_firstFailure_nil
  | cons a items ih =>
    have hok : (∀ e', ¬ fails a e') ↔ ∃ result, f a = .ok result := by
      simp only [← hfails, ← not_exists, exists_eq_error_iff, not_not]
    rw [List.mapM_cons, bind_eq_error_iff, firstFailure_cons_iff, hfails, hok, ← ih]
    simp only [bind_pure_eq_error_iff, exists_and_right]

end ImportSweep

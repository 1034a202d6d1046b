import Mathlib.Data.List.Forall2

/-!
# Outcomes of several computations

Generation is a chain of computations that may fail, and many of its links go
through a list and do the same for each element. This module says what such a
link comes to, for success and for failure: it succeeds when it does so for
every element, and it fails as it does for the first element that fails.

Two chains that run in step are compared by `Outcome.Related`: they fail
together and in the same way, or their results are in some relation.
-/

namespace SharpSource

namespace Outcome

variable {ε α β : Type}

/-! ### Two computations -/

theorem ok_bind (a : α) (f : α → Except ε β) : (Except.ok a >>= f) = f a := rfl

theorem bind_eq_ok_iff {x : Except ε α} {f : α → Except ε β} {b : β} :
    (x >>= f) = .ok b ↔ ∃ a, x = .ok a ∧ f a = .ok b := by
  cases x with
  | error e =>
    constructor
    · rintro ⟨⟩
    · rintro ⟨a, ⟨⟩, -⟩
  | ok a =>
    constructor
    · intro h
      exact ⟨a, rfl, h⟩
    · rintro ⟨a', ⟨⟩, h⟩
      exact h

theorem bind_eq_error_iff {x : Except ε α} {f : α → Except ε β} {e : ε} :
    (x >>= f) = .error e ↔ x = .error e ∨ ∃ a, x = .ok a ∧ f a = .error e := by
  cases x with
  | error e' =>
    constructor
    · rintro ⟨⟩
      exact Or.inl rfl
    · rintro (⟨⟨⟩⟩ | ⟨a, ⟨⟩, -⟩)
      rfl
  | ok a =>
    constructor
    · intro h
      exact Or.inr ⟨a, rfl, h⟩
    · rintro (h | ⟨a', ⟨⟩, h⟩)
      · cases h
      · exact h

theorem map_eq_ok_iff {x : Except ε α} {f : α → β} {b : β} :
    x.map f = .ok b ↔ ∃ a, x = .ok a ∧ f a = b := by
  cases x with
  | error e => simp [Except.map]
  | ok a => simp [Except.map]

theorem map_eq_error_iff {x : Except ε α} {f : α → β} {e : ε} :
    x.map f = .error e ↔ x = .error e := by
  cases x with
  | error e => simp [Except.map]
  | ok a => simp [Except.map]

/-- Changing a failure does not change a success. -/
theorem mapError_eq_ok_iff {ε' : Type} {f : ε → ε'} {x : Except ε α} {a : α} :
    x.mapError f = .ok a ↔ x = .ok a := by
  cases x with
  | error e => simp [Except.mapError]
  | ok a => simp [Except.mapError]

/-! ### A computation for each element -/

variable {f : α → Except ε β}

/-- **Success for a list** is success for each element. -/
theorem mapM_eq_ok_iff {xs : List α} {ys : List β} :
    xs.mapM f = .ok ys ↔ List.Forall₂ (fun x y => f x = .ok y) xs ys := by
  induction xs generalizing ys with
  | nil =>
    rw [List.mapM_nil, List.forall₂_nil_left_iff]
    constructor
    · rintro ⟨⟩
      rfl
    · rintro rfl
      rfl
  | cons x xs ih =>
    rw [List.mapM_cons, bind_eq_ok_iff]
    constructor
    · rintro ⟨y, hy, h⟩
      obtain ⟨zs, hzs, ⟨⟩⟩ := bind_eq_ok_iff.mp h
      exact List.Forall₂.cons hy (ih.mp hzs)
    · rintro (- | ⟨hy, hys⟩)
      exact ⟨_, hy, bind_eq_ok_iff.mpr ⟨_, ih.mpr hys, rfl⟩⟩

theorem mapM_ok_of_forall {xs : List α} (h : ∀ x ∈ xs, ∃ y, f x = .ok y) :
    ∃ ys, xs.mapM f = .ok ys := by
  induction xs with
  | nil => exact ⟨[], rfl⟩
  | cons x xs ih =>
    obtain ⟨y, hy⟩ := h x (List.mem_cons_self ..)
    obtain ⟨ys, hys⟩ := ih fun z hz => h z (List.mem_cons_of_mem x hz)
    exact ⟨y :: ys, mapM_eq_ok_iff.mpr (List.Forall₂.cons hy (mapM_eq_ok_iff.mp hys))⟩

/-- Computations that agree up to a change of their results do so for a list. -/
theorem mapM_congr_map {f' : α → Except ε β} {change : β → β} {xs : List α}
    (h : ∀ x ∈ xs, f' x = (f x).map change) : xs.mapM f' = (xs.mapM f).map (List.map change) := by
  induction xs with
  | nil => rfl
  | cons x xs ih =>
    rw [List.forall_mem_cons] at h
    rw [List.mapM_cons, List.mapM_cons, h.1, ih h.2]
    cases f x with
    | error e => rfl
    | ok y =>
      cases xs.mapM f with
      | error e => rfl
      | ok ys => rfl

/-- Lists whose elements agree one by one have the same outcome. -/
theorem mapM_eq_of_forall₂ {xs ys : List α} (h : List.Forall₂ (fun x y => f x = f y) xs ys) :
    xs.mapM f = ys.mapM f := by
  induction h with
  | nil => rfl
  | cons hxy _ ih => rw [List.mapM_cons, List.mapM_cons, hxy, ih]

/-- Every result is that of some element. -/
theorem exists_of_mem_results {xs : List α} {ys : List β} (h : xs.mapM f = .ok ys) {y : β}
    (hy : y ∈ ys) : ∃ x ∈ xs, f x = .ok y := by
  rw [mapM_eq_ok_iff] at h
  induction h with
  | nil => cases hy
  | @cons x z xs ys hz _ ih =>
    rcases List.mem_cons.mp hy with rfl | hy
    · exact ⟨x, List.mem_cons_self .., hz⟩
    · obtain ⟨x', hx', hfx'⟩ := ih hy
      exact ⟨x', List.mem_cons_of_mem x hx', hfx'⟩

/-- Every element has a result among those of the list. -/
theorem ok_of_mem_of_mapM {xs : List α} {ys : List β} (h : xs.mapM f = .ok ys) {x : α}
    (hx : x ∈ xs) : ∃ y, f x = .ok y ∧ y ∈ ys := by
  rw [mapM_eq_ok_iff] at h
  induction h with
  | nil => cases hx
  | @cons z y xs ys hz _ ih =>
    rcases List.mem_cons.mp hx with rfl | hx
    · exact ⟨y, hz, List.mem_cons_self ..⟩
    · obtain ⟨y', hy', hmem⟩ := ih hx
      exact ⟨y', hy', List.mem_cons_of_mem y hmem⟩

/-- **Failure for a list** is that of the first element that fails. -/
theorem exists_of_mapM_eq_error {xs : List α} {e : ε} (h : xs.mapM f = .error e) :
    ∃ before x behind, xs = before ++ x :: behind ∧ (∀ b ∈ before, ∃ y, f b = .ok y) ∧
      f x = .error e := by
  induction xs with
  | nil => cases h
  | cons x xs ih =>
    rw [List.mapM_cons, bind_eq_error_iff] at h
    rcases h with hx | ⟨y, hy, h⟩
    · exact ⟨[], x, xs, rfl, by simp, hx⟩
    · rcases bind_eq_error_iff.mp h with hxs | ⟨ys, -, ⟨⟩⟩
      obtain ⟨before, z, behind, rfl, hbefore, hz⟩ := ih hxs
      exact ⟨x :: before, z, behind, rfl, List.forall_mem_cons.mpr ⟨⟨y, hy⟩, hbefore⟩, hz⟩

/-- The first element that fails decides, whatever stands behind it. -/
theorem mapM_eq_error_of_first {before behind : List α} {x : α} {e : ε}
    (hbefore : ∀ b ∈ before, ∃ y, f b = .ok y) (hx : f x = .error e) :
    (before ++ x :: behind).mapM f = .error e := by
  obtain ⟨ys, hys⟩ := mapM_ok_of_forall hbefore
  rw [List.mapM_append, hys, ok_bind, List.mapM_cons, hx]
  rfl

/-- Taking up results one after the other is taking up all of them in the end:
the results are there for all elements, or for none. -/
theorem foldlM_eq_map_mapM {γ : Type} (f : α → Except ε β) (take : γ → β → γ) (c : γ)
    (xs : List α) :
    xs.foldlM (fun c x => do
      let y ← f x
      return take c y) c = (xs.mapM f).map (List.foldl take c) := by
  induction xs generalizing c with
  | nil => rfl
  | cons x xs ih =>
    rw [List.foldlM_cons, List.mapM_cons]
    cases f x with
    | error e => rfl
    | ok y =>
      change xs.foldlM _ (take c y) = _
      rw [ih, ok_bind]
      cases xs.mapM f with
      | error e => rfl
      | ok ys => rfl

/-- A check and another one behind it succeed when both do. -/
theorem check_bind_ok_iff {check : Except ε Unit} {next : Unit → Except ε Unit} :
    (check >>= next) = .ok () ↔ check = .ok () ∧ next () = .ok () := by
  rw [bind_eq_ok_iff]
  exact ⟨fun ⟨⟨⟩, h, hnext⟩ => ⟨h, hnext⟩, fun ⟨h, hnext⟩ => ⟨⟨⟩, h, hnext⟩⟩

/-- A check of a list succeeds when it does so for each element. -/
theorem forM_eq_ok_iff {check : α → Except ε Unit} {xs : List α} :
    xs.forM check = .ok () ↔ ∀ x ∈ xs, check x = .ok () := by
  induction xs with
  | nil => exact ⟨fun _ x hx => absurd hx List.not_mem_nil, fun _ => rfl⟩
  | cons x xs ih =>
    change (check x >>= fun _ => xs.forM check) = .ok () ↔ _
    rw [check_bind_ok_iff, List.forall_mem_cons, ih]

/-! ### The failure of a computation -/

/-- **A computation fails with** what an option holds: with that failure when
there is one, and not at all when there is none. -/
def FailsWith (x : Except ε α) (failure : Option ε) : Prop :=
  ∀ e, x = .error e ↔ failure = some e

namespace FailsWith

variable {x : Except ε α} {failure failure' : Option ε}

theorem of_ok (a : α) : FailsWith (.ok a : Except ε α) none := by
  simp [FailsWith]

theorem of_error (e : ε) : FailsWith (.error e : Except ε α) (some e) := by
  simp [FailsWith]

/-- There is a result exactly when there is no failure. -/
theorem ok_iff (h : FailsWith x failure) : (∃ a, x = .ok a) ↔ failure = none := by
  cases x with
  | error e => simp [(h e).mp rfl]
  | ok a => simpa using Option.eq_none_iff_forall_ne_some.mpr fun e he => nomatch (h e).mpr he

/-- A computation with one possible failure. -/
theorem of_iff {P : Prop} [Decidable P] {e : ε} (herror : ∀ e', x = .error e' → e' = e)
    (hok : (∃ a, x = .ok a) ↔ ¬P) : FailsWith x (if P then some e else none) := by
  cases x with
  | error e' =>
    obtain rfl := herror e' rfl
    rw [if_pos (not_not.mp (mt hok.mpr (by simp)))]
    exact of_error _
  | ok a =>
    rw [if_neg (hok.mp ⟨a, rfl⟩)]
    exact of_ok a

/-- **One computation after the other** fails with the first failure of the
two. -/
theorem bind {f : α → Except ε β} (h : FailsWith x failure)
    (hf : ∀ a, x = .ok a → FailsWith (f a) failure') :
    FailsWith (x >>= f) (failure.or failure') := by
  cases x with
  | error e =>
    rw [(h e).mp rfl]
    exact of_error e
  | ok a =>
    rw [h.ok_iff.mp ⟨a, rfl⟩]
    exact hf a rfl

theorem map (h : FailsWith x failure) (f : α → β) : FailsWith (x.map f) failure :=
  fun e => map_eq_error_iff.trans (h e)

theorem findSome?_cons_eq_or (fault : α → Option ε) (x : α) (xs : List α) :
    (x :: xs).findSome? fault = (fault x).or (xs.findSome? fault) := by
  rw [List.findSome?_cons]
  cases fault x <;> rfl

/-- **A computation for each element** fails with the first failure in the
list. -/
theorem mapM {f : α → Except ε β} {fault : α → Option ε} {xs : List α}
    (h : ∀ x ∈ xs, FailsWith (f x) (fault x)) : FailsWith (xs.mapM f) (xs.findSome? fault) := by
  induction xs with
  | nil => exact of_ok []
  | cons x xs ih =>
    rw [List.forall_mem_cons] at h
    rw [List.mapM_cons, findSome?_cons_eq_or, ← (xs.findSome? fault).or_none]
    exact h.1.bind fun y _ => (ih h.2).bind fun ys _ => of_ok (y :: ys)

end FailsWith

/-! ### Two computations in step -/

/-- **Outcomes are related** when both are the same failure, or both are
successes with related results. -/
inductive Related (R : α → β → Prop) : Except ε α → Except ε β → Prop
  | error (e : ε) : Related R (.error e) (.error e)
  | ok {a : α} {b : β} (h : R a b) : Related R (.ok a) (.ok b)

namespace Related

variable {R : α → β → Prop} {x : Except ε α} {y : Except ε β}

theorem of_eq {x y : Except ε α} (h : x = y) : Related (· = ·) x y := by
  subst h
  cases x with
  | error e => exact .error e
  | ok a => exact .ok rfl

/-- Related results are those of the computations. -/
theorem left (h : Related R x y) : Related (fun a b => R a b ∧ x = .ok a) x y := by
  cases h with
  | error e => exact .error e
  | ok h => exact .ok ⟨h, rfl⟩

theorem cases_eq (h : Related R x y) :
    (∃ e, x = .error e ∧ y = .error e) ∨ ∃ a b, x = .ok a ∧ y = .ok b ∧ R a b := by
  cases h with
  | error e => exact Or.inl ⟨e, rfl, rfl⟩
  | ok h => exact Or.inr ⟨_, _, rfl, rfl, h⟩

theorem imp {S : α → β → Prop} (h : Related R x y) (hRS : ∀ a b, R a b → S a b) :
    Related S x y := by
  cases h with
  | error e => exact .error e
  | ok h => exact .ok (hRS _ _ h)

/-- Computations that take related results to related outcomes. -/
theorem bind {γ δ : Type} {S : γ → δ → Prop} {f : α → Except ε γ} {g : β → Except ε δ}
    (h : Related R x y) (hfg : ∀ a b, R a b → Related S (f a) (g b)) :
    Related S (x >>= f) (y >>= g) := by
  cases h with
  | error e => exact .error e
  | ok h => exact hfg _ _ h

theorem map {γ δ : Type} {S : γ → δ → Prop} {f : α → γ} {g : β → δ} (h : Related R x y)
    (hfg : ∀ a b, R a b → S (f a) (g b)) : Related S (x.map f) (y.map g) := by
  cases h with
  | error e => exact .error e
  | ok h => exact .ok (hfg _ _ h)

theorem mapError {ε' : Type} (h : Related R x y) (f : ε → ε') :
    Related R (x.mapError f) (y.mapError f) := by
  cases h with
  | error e => exact .error (f e)
  | ok h => exact .ok h

/-- Lists that are gone through in step: they end with the first pair of
failures, or with results that are related one by one. -/
theorem mapM {γ δ : Type} {S : γ → δ → Prop} {f : α → Except ε γ} {g : β → Except ε δ}
    {xs : List α} {ys : List β} (h : List.Forall₂ R xs ys)
    (hfg : ∀ a b, R a b → Related S (f a) (g b)) :
    Related (List.Forall₂ S) (xs.mapM f) (ys.mapM g) := by
  induction h with
  | nil => exact .ok .nil
  | cons hxy _ ih =>
    rw [List.mapM_cons, List.mapM_cons]
    exact (hfg _ _ hxy).bind fun c d hcd => ih.bind fun cs ds hcds => .ok (.cons hcd hcds)

end Related

end Outcome

end SharpSource

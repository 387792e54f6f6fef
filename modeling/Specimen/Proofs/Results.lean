import Mathlib.Data.List.Forall2

/-!
# Results and errors

What comes of steps that may fail: one step after another, a result or an error changed by a
function, a result under a condition, and one result for each item of a list.
-/

namespace Specimen

universe u v w

section Steps

variable {ε : Type u} {ε' : Type w} {α β : Type v}

@[simp]
theorem ok_bind (a : α) (f : α → Except ε β) : Except.ok a >>= f = f a := rfl

@[simp]
theorem error_bind (e : ε) (f : α → Except ε β) : Except.error e >>= f = .error e := rfl

@[simp]
theorem pure_eq_ok (a : α) : (pure a : Except ε α) = .ok a := rfl

/-- What a sequence of steps gives is what its second step makes of the result of the first. -/
theorem bind_eq_ok_iff {x : Except ε α} {f : α → Except ε β} {b : β} :
    x >>= f = .ok b ↔ ∃ a, x = .ok a ∧ f a = .ok b := by
  cases x <;> simp

/-- A sequence of steps fails where its first step fails or where the second does after it. -/
theorem bind_eq_error_iff {x : Except ε α} {f : α → Except ε β} {e : ε} :
    x >>= f = .error e ↔ x = .error e ∨ ∃ a, x = .ok a ∧ f a = .error e := by
  cases x <;> simp

/-- What is built under a condition is built exactly if the condition holds. -/
theorem dite_eq_ok_iff {p : Prop} [Decidable p] {f : p → α} {e : ε} {y : α} :
    (if h : p then (.ok (f h) : Except ε α) else .error e) = .ok y ↔ ∃ h, f h = y := by
  by_cases h : p <;> simp [h]

/-- What is built under a condition is refused exactly if the condition fails. -/
theorem dite_eq_error_iff {p : Prop} [Decidable p] {f : p → α} {e cause : ε} :
    (if h : p then (.ok (f h) : Except ε α) else .error e) = .error cause ↔ ¬ p ∧ e = cause := by
  by_cases h : p <;> simp [h]

@[simp]
theorem mapError_ok (f : ε → ε') (a : α) : (Except.ok a : Except ε α).mapError f = .ok a := rfl

@[simp]
theorem mapError_error (f : ε → ε') (e : ε) :
    (Except.error e : Except ε α).mapError f = .error (f e) := rfl

@[simp]
theorem mapError_eq_ok_iff {f : ε → ε'} {x : Except ε α} {a : α} :
    x.mapError f = .ok a ↔ x = .ok a := by
  cases x <;> simp

theorem mapError_eq_error_iff {f : ε → ε'} {x : Except ε α} {e : ε'} :
    x.mapError f = .error e ↔ ∃ cause, x = .error cause ∧ f cause = e := by
  cases x <;> simp

end Steps

section Maps

variable {ε : Type u} {α : Type v} {β : Type w}

@[simp]
theorem map_ok (f : α → β) (a : α) : (Except.ok a : Except ε α).map f = .ok (f a) := rfl

@[simp]
theorem map_error (f : α → β) (e : ε) : (Except.error e : Except ε α).map f = .error e := rfl

theorem map_eq_ok_iff {f : α → β} {x : Except ε α} {y : β} :
    x.map f = .ok y ↔ ∃ a, x = .ok a ∧ f a = y := by
  cases x <;> simp

@[simp]
theorem map_eq_error_iff {f : α → β} {x : Except ε α} {cause : ε} :
    x.map f = .error cause ↔ x = .error cause := by
  cases x <;> simp

end Maps

/-! ## One result for each item -/

section Items

variable {ε α β : Type} {f : α → Except ε β} {xs : List α}

theorem mapM_eq_ok_iff {ys : List β} :
    xs.mapM f = .ok ys ↔ List.Forall₂ (fun x y => f x = .ok y) xs ys := by
  induction xs generalizing ys with
  | nil =>
    rw [List.mapM_nil, List.forall₂_nil_left_iff]
    exact ⟨fun h => (Except.ok.inj h).symm, fun h => congrArg Except.ok h.symm⟩
  | cons x xs ih =>
    rw [List.mapM_cons, bind_eq_ok_iff, List.forall₂_cons_left_iff]
    constructor
    · rintro ⟨y, hy, hrest⟩
      obtain ⟨rest, hxs, hys⟩ := bind_eq_ok_iff.mp hrest
      exact ⟨y, rest, hy, ih.mp hxs, (Except.ok.inj hys).symm⟩
    · rintro ⟨y, rest, hy, hxs, rfl⟩
      exact ⟨y, hy, bind_eq_ok_iff.mpr ⟨rest, ih.mpr hxs, rfl⟩⟩

/-- The first item without a result is the one whose error is returned. -/
theorem mapM_eq_error_iff {e : ε} :
    xs.mapM f = .error e ↔
      ∃ before x after, xs = before ++ x :: after ∧ (∀ y ∈ before, ∃ b, f y = .ok b) ∧
        f x = .error e := by
  induction xs with
  | nil => simp
  | cons x xs ih =>
    rw [List.mapM_cons, bind_eq_error_iff]
    constructor
    · rintro (hx | ⟨y, hy, hrest⟩)
      · exact ⟨[], x, xs, rfl, by simp, hx⟩
      · rcases bind_eq_error_iff.mp hrest with hxs | ⟨ys, -, hys⟩
        · obtain ⟨before, z, after, rfl, hbefore, hz⟩ := ih.mp hxs
          exact ⟨x :: before, z, after, rfl, List.forall_mem_cons.mpr ⟨⟨y, hy⟩, hbefore⟩, hz⟩
        · contradiction
    · rintro ⟨before, z, after, heq, hbefore, hz⟩
      rcases List.cons_eq_append_iff.mp heq with ⟨rfl, hzs⟩ | ⟨before', rfl, hxs⟩
      · rw [List.cons.injEq] at hzs
        exact Or.inl (hzs.1 ▸ hz)
      · obtain ⟨⟨y, hy⟩, hbefore'⟩ := List.forall_mem_cons.mp hbefore
        refine Or.inr ⟨y, hy, bind_eq_error_iff.mpr (Or.inl ?_)⟩
        exact ih.mpr ⟨before', z, after, hxs, hbefore', hz⟩

theorem mapM_congr {g : α → Except ε β} (h : ∀ x ∈ xs, f x = g x) : xs.mapM f = xs.mapM g := by
  induction xs with
  | nil => rfl
  | cons x xs ih =>
    obtain ⟨hx, hxs⟩ := List.forall_mem_cons.mp h
    rw [List.mapM_cons, List.mapM_cons, hx, ih hxs]

end Items

end Specimen

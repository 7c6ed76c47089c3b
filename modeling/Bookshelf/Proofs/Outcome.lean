namespace Bookshelf

/-!
# Computations that may fail

A chain of two computations succeeds with what the second one gives, and it
fails with the error of the first one that fails. Two computations are the same
up to a function of errors if they have the same results, and errors with the
same image.
-/

section

variable {ε ε' α β : Type}

theorem bind_congr_of_ok {x : Except ε α} {f g : α → Except ε β}
    (h : ∀ a, x = .ok a → f a = g a) : x >>= f = x >>= g := by
  cases x with
  | error e => rfl
  | ok a => exact h a rfl

theorem bind_eq_ok_iff {x : Except ε α} {f : α → Except ε β} {b : β} :
    x >>= f = .ok b ↔ ∃ a, x = .ok a ∧ f a = .ok b := by
  cases x <;> simp [bind, Except.bind]

theorem bind_eq_error_iff {x : Except ε α} {f : α → Except ε β} {e : ε} :
    x >>= f = .error e ↔ x = .error e ∨ ∃ a, x = .ok a ∧ f a = .error e := by
  cases x <;> simp [bind, Except.bind]

theorem map_eq_ok_iff {x : Except ε α} {f : α → β} {b : β} :
    x.map f = .ok b ↔ ∃ a, x = .ok a ∧ f a = b := by
  cases x <;> simp [Except.map]

theorem map_eq_error_iff {x : Except ε α} {f : α → β} {e : ε} :
    x.map f = .error e ↔ x = .error e := by
  cases x <;> simp [Except.map]

@[simp] theorem mapError_ok {h : ε → ε'} {a : α} : (Except.ok a).mapError h = .ok a :=
  rfl

@[simp] theorem mapError_error {h : ε → ε'} {e : ε} :
    (Except.error e : Except ε α).mapError h = .error (h e) :=
  rfl

theorem mapError_eq_iff {h : ε → ε'} {x y : Except ε α} :
    x.mapError h = y.mapError h ↔
      (∃ a, x = .ok a ∧ y = .ok a) ∨ ∃ e e', x = .error e ∧ y = .error e' ∧ h e = h e' := by
  cases x <;> cases y <;> simp [eq_comm]

theorem mapError_bind_congr {h : ε → ε'} {x y : Except ε α} {f g : α → Except ε β}
    (hxy : x.mapError h = y.mapError h) (hfg : ∀ a, (f a).mapError h = (g a).mapError h) :
    (x >>= f).mapError h = (y >>= g).mapError h := by
  rcases mapError_eq_iff.mp hxy with ⟨a, rfl, rfl⟩ | ⟨e, e', rfl, rfl, he⟩
  · exact hfg a
  · exact congrArg Except.error he

end

end Bookshelf

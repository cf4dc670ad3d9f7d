import Mathlib.Logic.Basic

/-! What a computation over `Except` can throw. A property of its errors is carried from
the parts to the whole, and back. -/
namespace Line2.Library.Exceptions
variable {ε α β : Type} {P : ε → Prop}

/-- Every error the computation ends with has the property. -/
def OnlyThrows (P : ε → Prop) (x : Except ε α) : Prop := ∀ e, x = .error e → P e

/-- The value, or an error where there is none. -/
def orThrow (e : ε) : Option α → Except ε α
  | none => .error e
  | some a => .ok a

@[simp] theorem onlyThrows_ok (a : α) : OnlyThrows P (.ok a) := by
  intro e he
  cases he

@[simp] theorem onlyThrows_error (e : ε) : OnlyThrows P (.error e : Except ε α) ↔ P e :=
  ⟨fun h => h e rfl,fun h _ he => Except.error.inj he ▸ h⟩

@[simp] theorem orThrow_eq_ok {e : ε} {o : Option α} {a : α} :
    orThrow e o = .ok a ↔ o = some a := by
  cases o <;> simp [orThrow]

theorem onlyThrows_orThrow {e : ε} (h : P e) (o : Option α) : OnlyThrows P (orThrow e o) := by
  cases o with
  | none => exact (onlyThrows_error e).mpr h
  | some a => exact onlyThrows_ok a

theorem bind_eq_ok {x : Except ε α} {f : α → Except ε β} {b : β} :
    (x >>= f) = .ok b ↔ ∃ a, x = .ok a ∧ f a = .ok b := by
  cases x with
  | error e =>
    have hbind : (Except.error e >>= f) = .error e := rfl
    simp [hbind]
  | ok a =>
    have hbind : (Except.ok a >>= f) = f a := rfl
    simp [hbind]

/-- One computation after another: the property is asked of the first, and of the second
where the first gives it something to go on with. -/
theorem onlyThrows_bind {x : Except ε α} {f : α → Except ε β} :
    OnlyThrows P (x >>= f) ↔ OnlyThrows P x ∧ ∀ a, x = .ok a → OnlyThrows P (f a) := by
  cases x with
  | error e =>
    have hbind : (Except.error e >>= f) = .error e := rfl
    simp [hbind]
  | ok a =>
    have hbind : (Except.ok a >>= f) = f a := rfl
    simp [hbind]

end Line2.Library.Exceptions

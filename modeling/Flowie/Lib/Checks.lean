/-!
# Sequences of checks

A computation that can fail, as a sequence of checks and values. A sequence succeeds exactly when each of its
parts does, so what a success says is read off part by part.
-/

namespace Checks

variable {ε α β : Type}

/-- A check that fails with `e`. -/
def require (condition : Bool) (e : ε) : Except ε Unit := if condition then .ok () else .error e

variable {condition : Bool} {e : ε}

theorem require_eq_ok : require condition e = .ok () ↔ condition = true := by
  cases condition <;> simp [require]

variable {f : Unit → Except ε β}

theorem require_bind (h : condition = true) : (require condition e >>= f) = f () := by
  rw [require_eq_ok.2 h]
  rfl

variable {x : Except ε α} {b : β}

theorem bind_eq_ok {f : α → Except ε β} : (x >>= f) = .ok b ↔ ∃ a, x = .ok a ∧ f a = .ok b := by
  cases x with
  | error e => exact ⟨fun h => (nomatch h), fun ⟨_, h, _⟩ => (nomatch h)⟩
  | ok a => exact ⟨fun h => ⟨a, rfl, h⟩, fun ⟨_, h, hf⟩ => by cases h; exact hf⟩

theorem exists_unit {p : Unit → Prop} : (∃ u, p u) ↔ p () :=
  ⟨fun ⟨(), h⟩ => h, fun h => ⟨(), h⟩⟩

theorem bind_unit_eq_ok {x : Except ε Unit} : (x >>= f) = .ok b ↔ x = .ok () ∧ f () = .ok b := by
  rw [bind_eq_ok, exists_unit]

variable {a : α}

theorem pure_eq_ok {b : α} : (pure a : Except ε α) = .ok b ↔ a = b :=
  ⟨fun h => Except.ok.inj h, fun h => congrArg Except.ok h⟩

theorem ite_error_eq_ok {c : Prop} [Decidable c] : (if c then .error e else x) = .ok a ↔ ¬c ∧ x = .ok a := by
  split
  · exact ⟨fun h => (nomatch h), fun h => absurd ‹c› h.1⟩
  · exact ⟨fun h => ⟨‹¬c›, h⟩, fun h => h.2⟩

end Checks

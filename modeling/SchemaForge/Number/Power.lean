/-!
# `SchemaForge.Number.Power` — powers of two and of ten

Doubles count in powers of two and decimals in powers of ten.

## Contents
- **Powers.** `twoPow`, which is positive, and `tenPow`.
-/

namespace SchemaForge

/-- A power of two. -/
def twoPow (n : Nat) : Nat := Nat.pow 2 n

/-- A power of ten. -/
def tenPow (n : Nat) : Nat := Nat.pow 10 n

theorem twoPow_pos (n : Nat) : 0 < twoPow n := Nat.two_pow_pos n

end SchemaForge

import Mathlib.Data.Nat.ModEq

/-!
# Numbers on a cycle

Numbers that are known modulo a cycle length only. The distance from a start is
the offset of the first number at or after the start that has the given residue.
A number known to lie less than one cycle ahead of the start is recovered from
its residue; one known to lie a bounded way behind it appears far ahead.
-/

namespace CyclicNumbers

/-- Steps forward from `start` to the next number with residue `residue`. -/
def distance (cycle start residue : Nat) : Nat := (residue + (cycle - start % cycle)) % cycle

variable {cycle : Nat}

/-- The start, too, matters modulo the cycle only. -/
theorem distance_congr {start other : Nat} (same : start % cycle = other % cycle) (residue : Nat) :
    distance cycle start residue = distance cycle other residue := by
  rw [distance, distance, same]

/-- The offset from `start` is recovered from the residue, modulo the cycle. -/
theorem distance_offset (positive : 0 < cycle) (start offset : Nat) :
    distance cycle start ((start + offset) % cycle) = offset % cycle := by
  have below : start % cycle < cycle := Nat.mod_lt _ positive
  have split : start = cycle * (start / cycle) + start % cycle := (Nat.div_add_mod _ _).symm
  have whole : start + offset + (cycle - start % cycle) =
      offset + cycle * (start / cycle + 1) := by
    rw [Nat.mul_add, Nat.mul_one]
    omega
  rw [distance, Nat.mod_add_mod, whole, Nat.add_mul_mod_self_left]

/-- A number less than one cycle ahead is recovered exactly. -/
theorem distance_ahead (positive : 0 < cycle) {start number : Nat} (ahead : start ≤ number)
    (near : number < start + cycle) : distance cycle start (number % cycle) = number - start := by
  have offset := distance_offset positive start (number - start)
  rwa [Nat.add_sub_cancel' ahead, Nat.mod_eq_of_lt (show number - start < cycle by omega)]
    at offset

/-- A number at most `reach` behind the start looks at least `cycle - reach` ahead. -/
theorem distance_behind (positive : 0 < cycle) {start number reach : Nat} (behind : number < start)
    (near : start ≤ number + reach) (short : reach < cycle) :
    cycle - reach ≤ distance cycle start (number % cycle) := by
  have offset := distance_offset positive start (cycle - (start - number))
  have around : start + (cycle - (start - number)) = number + cycle := by omega
  have small : cycle - (start - number) < cycle := by omega
  rw [around, Nat.add_mod_right, Nat.mod_eq_of_lt small] at offset
  omega

/-- Going the distance from the start arrives at the residue. -/
theorem start_add_distance (positive : 0 < cycle) (start residue : Nat) :
    (start + distance cycle start residue) % cycle = residue % cycle := by
  have below : start % cycle < cycle := Nat.mod_lt _ positive
  have split : start = cycle * (start / cycle) + start % cycle := (Nat.div_add_mod _ _).symm
  have whole : start + (residue + (cycle - start % cycle)) =
      residue + cycle * (start / cycle + 1) := by
    rw [Nat.mul_add, Nat.mul_one]
    omega
  rw [distance, Nat.add_mod_mod, whole, Nat.add_mul_mod_self_left]

end CyclicNumbers

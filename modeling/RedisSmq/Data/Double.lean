import Mathlib.Data.Nat.Log
import Mathlib.Tactic.NormNum

/-!
# Integers as floating-point numbers

Programs that have only binary64 numbers keep 53 bits of an integer. `round` is the number
that they hold for an integer, and `reread` the integer that another program gets when such
a number is printed with as few decimal digits as identify it and is read as a 64-bit
integer. Both are the identity below `2 ^ 53`.
-/

namespace Double

/-- The number of low bits that do not fit. -/
def excess (n : Nat) : Nat := n.log2 + 1 - 53

/-- The nearest number with 53 significant bits, the even one if two are equally near. -/
def roundNat (n : Nat) : Nat :=
  let unit := 2 ^ excess n
  let low := n / unit
  let rest := 2 * (n % unit)
  if rest < unit ∨ (rest = unit ∧ low % 2 = 0) then low * unit else (low + 1) * unit

def round (n : Int) : Int := n.sign * roundNat n.natAbs

/-- The numeral with `k` zeros at its end that stands for `d`, if there is one. Of two, the
nearer one is taken. -/
def numeral (d k : Nat) : Option Nat :=
  let unit := 10 ^ k
  let low := d / unit
  let rest := 2 * (d % unit)
  let near := if rest < unit ∨ (rest = unit ∧ low % 2 = 0) then low else low + 1
  let far := if near = low then low + 1 else low
  [near * unit, far * unit].find? (roundNat · = d)

/-- The shortest numeral of a number below `10 ^ 20`. -/
def shortest (d : Nat) : Nat := ((List.range 20).reverse.findSome? (numeral d)).getD d

/-- An integer that went through a floating-point number and was read again. -/
def reread (n : Int) : Option Int :=
  let m : Int := n.sign * shortest (roundNat n.natAbs)
  if -2 ^ 63 ≤ m ∧ m < 2 ^ 63 then some m else none

theorem roundNat_of_lt {n : Nat} (h : n < 2 ^ 53) : roundNat n = n := by
  have hlog : n.log2 < 53 := by
    rcases Nat.eq_zero_or_pos n with rfl | hpos
    · decide
    · exact (Nat.log2_lt hpos.ne').2 h
  have hexcess : excess n = 0 := by
    unfold excess
    omega
  simp [roundNat, hexcess, Nat.mod_one]

/-- Larger integers stay larger. -/
theorem le_roundNat {n : Nat} (h : 2 ^ 53 ≤ n) : 2 ^ 53 ≤ roundNat n := by
  have hpos : n ≠ 0 := by omega
  have hlog : 53 ≤ n.log2 := (Nat.le_log2 hpos).2 h
  obtain ⟨e, he⟩ : ∃ e, excess n = e + 1 := ⟨n.log2 - 53, by unfold excess; omega⟩
  have hlow : 2 ^ 52 ≤ n / 2 ^ excess n := by
    rw [Nat.le_div_iff_mul_le (Nat.two_pow_pos _), ← Nat.pow_add]
    have hself : 2 ^ n.log2 ≤ n := Nat.log2_self_le hpos
    have hexp : 52 + excess n = n.log2 := by
      unfold excess
      omega
    rwa [hexp]
  have hunit : 2 ≤ 2 ^ excess n := by
    rw [he, Nat.pow_succ]
    have hone : 1 ≤ 2 ^ e := Nat.one_le_two_pow
    omega
  have hmul : 2 ^ 52 * 2 ≤ n / 2 ^ excess n * 2 ^ excess n := Nat.mul_le_mul hlow hunit
  simp only [roundNat]
  split
  · exact le_trans (by norm_num) hmul
  · refine le_trans (by norm_num) (hmul.trans ?_)
    exact Nat.mul_le_mul_right _ (Nat.le_succ _)

theorem eq_of_roundNat_eq {m n : Nat} (h : roundNat m = n) (hn : n < 2 ^ 53) : m = n := by
  rcases Nat.lt_or_ge m (2 ^ 53) with hm | hm
  · rwa [roundNat_of_lt hm] at h
  · exact absurd (le_roundNat hm) (by omega)

theorem numeral_eq {d k m : Nat} (hd : d < 2 ^ 53) (h : numeral d k = some m) : m = d := by
  have hm : roundNat m = d := by
    simpa using List.find?_some h
  exact eq_of_roundNat_eq hm hd

theorem shortest_of_lt {d : Nat} (hd : d < 2 ^ 53) : shortest d = d := by
  unfold shortest
  cases h : (List.range 20).reverse.findSome? (numeral d) with
  | none => rfl
  | some m =>
    obtain ⟨k, -, hk⟩ := List.exists_of_findSome?_eq_some h
    exact numeral_eq hd hk

theorem round_of_lt {n : Int} (h : n.natAbs < 2 ^ 53) : round n = n := by
  rw [round, roundNat_of_lt h]
  exact Int.sign_mul_natAbs n

/-- A small integer is the only one that has its number. -/
theorem round_eq_round_iff {m n : Int} (hn : n.natAbs < 2 ^ 53) : round m = round n ↔ m = n := by
  refine ⟨fun h => ?_, fun h => h ▸ rfl⟩
  rw [round_of_lt hn, round] at h
  rcases eq_or_ne m 0 with rfl | hm
  · simpa using h
  have habs : roundNat m.natAbs = n.natAbs := by
    simpa [Int.natAbs_mul, Int.natAbs_sign_of_ne_zero hm] using congrArg Int.natAbs h
  have hself : m.sign * (m.natAbs : Int) = m := Int.sign_mul_natAbs m
  rwa [habs, ← eq_of_roundNat_eq habs hn, hself] at h

theorem reread_of_lt {n : Int} (h : n.natAbs < 2 ^ 53) : reread n = some n := by
  have hself : n.sign * (n.natAbs : Int) = n := Int.sign_mul_natAbs n
  simp only [reread, roundNat_of_lt h, shortest_of_lt h, hself]
  rw [if_pos (by omega)]

/-- The first integer that a floating-point number cannot hold. -/
example : reread (2 ^ 53 + 1) = some (2 ^ 53) := by decide +kernel

/-- Of a larger power of two only the digits that identify it are printed. -/
example : reread (2 ^ 60) = some 1152921504606847000 := by decide +kernel

/-- The largest 64-bit integer becomes a numeral that is out of range. -/
example : reread (2 ^ 63 - 1) = none := by decide +kernel

end Double

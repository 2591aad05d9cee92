import Mathlib.Data.Nat.Digits.Defs

/-!
# Decimal texts of 64-bit integers

A number is written as an optional minus sign and its digits. The reader takes a sign and
digits and nothing else. It stops with an error at the first character that is no digit, or
as soon as the digits are too large; a caller that does not look at the error goes on with
the value that comes with it.
-/

namespace Decimal

/-- Why a text was not read. A number that is too large comes with the nearest number. -/
inductive ParseError where
  | malformed
  | outOfRange (nearest : Int64)
  deriving DecidableEq, Repr

/-- The number that a caller gets who does not look at the error. -/
def valueOf : Except ParseError Int64 → Int64
  | .ok n => n
  | .error .malformed => 0
  | .error (.outOfRange nearest) => nearest

@[simp] theorem valueOf_ok (n : Int64) : valueOf (.ok n) = n := rfl

/-- The decimal text of a number. -/
def render (n : Int64) : String :=
  if n.toInt < 0 then "-" ++ n.toInt.natAbs.repr else n.toInt.natAbs.repr

/-- One more digit of an unsigned number. `none` stands for a number that is too large. -/
def pushDigit (n : Nat) (c : Char) : Except ParseError (Option Nat) :=
  if c.isDigit then
    let n := n * 10 + (c.toNat - '0'.toNat)
    .ok (if n < 2 ^ 64 then some n else none)
  else .error .malformed

/-- The digits of an unsigned number, read from the left. -/
def parseDigits (n : Nat) : List Char → Except ParseError (Option Nat)
  | [] => .ok (some n)
  | c :: cs =>
      match pushDigit n c with
      | .error e => .error e
      | .ok none => .ok none
      | .ok (some n) => parseDigits n cs

/-- An unsigned number. -/
def parseUint : List Char → Except ParseError (Option Nat)
  | [] => .error .malformed
  | c :: cs => parseDigits 0 (c :: cs)

/-- The number with this sign and this absolute value. -/
def signed (negative : Bool) (n : Option Nat) : Except ParseError Int64 :=
  match negative, n with
  | false, some n => if n < 2 ^ 63 then .ok (Int64.ofInt n) else .error (.outOfRange Int64.maxValue)
  | true, some n =>
      if n ≤ 2 ^ 63 then .ok (Int64.ofInt (-n)) else .error (.outOfRange Int64.minValue)
  | false, none => .error (.outOfRange Int64.maxValue)
  | true, none => .error (.outOfRange Int64.minValue)

/-- The number that a text stands for. -/
def parse (s : String) : Except ParseError Int64 :=
  match s.toList with
  | '+' :: cs => (parseUint cs).bind (signed false)
  | '-' :: cs => (parseUint cs).bind (signed true)
  | cs => (parseUint cs).bind (signed false)

theorem le_ofDigitChars (n : Nat) (cs : List Char) : n ≤ Nat.ofDigitChars 10 cs n := by
  induction cs generalizing n with
  | nil => exact Nat.le_refl n
  | cons c cs ih =>
    rw [Nat.ofDigitChars_cons]
    have := ih (10 * n + (c.toNat - '0'.toNat))
    omega

/-- Digits that stay below the limit are read as the number they stand for. -/
theorem parseDigits_eq (n : Nat) {cs : List Char} (hdigits : ∀ c ∈ cs, c.isDigit = true)
    (hlt : Nat.ofDigitChars 10 cs n < 2 ^ 64) :
    parseDigits n cs = .ok (some (Nat.ofDigitChars 10 cs n)) := by
  induction cs generalizing n with
  | nil => rfl
  | cons c cs ih =>
    have hc : c.isDigit = true := hdigits c List.mem_cons_self
    have hcs : ∀ c ∈ cs, c.isDigit = true := fun d hd => hdigits d (List.mem_cons_of_mem c hd)
    rw [Nat.ofDigitChars_cons, Nat.mul_comm 10 n] at hlt ⊢
    have hpush := le_ofDigitChars (n * 10 + (c.toNat - '0'.toNat)) cs
    have hsmall : n * 10 + (c.toNat - '0'.toNat) < 2 ^ 64 := Nat.lt_of_le_of_lt hpush hlt
    rw [← ih _ hcs hlt]
    simp only [parseDigits, pushDigit, hc, if_true, if_pos hsmall]

theorem toList_repr (n : Nat) : n.repr.toList = Nat.toDigits 10 n := by
  rw [Nat.repr_eq_ofList_toDigits, String.toList_ofList]

/-- A number has a first digit, and all its characters are digits. -/
theorem exists_toList_repr (n : Nat) :
    ∃ c cs, n.repr.toList = c :: cs ∧ ∀ d ∈ c :: cs, d.isDigit = true := by
  have hdigits : ∀ d ∈ Nat.toDigits 10 n, d.isDigit = true := by
    intro d hd
    exact Nat.isDigit_of_mem_toDigits (by decide) (by decide) hd
  rw [toList_repr]
  cases hcs : Nat.toDigits 10 n with
  | nil => exact absurd hcs Nat.toDigits_ne_nil
  | cons c cs =>
    rw [hcs] at hdigits
    exact ⟨c, cs, rfl, hdigits⟩

/-- The digits of a number are read as this number. -/
theorem parseUint_repr {n : Nat} (hlt : n < 2 ^ 64) : parseUint n.repr.toList = .ok (some n) := by
  obtain ⟨c, cs, htext, hdigits⟩ := exists_toList_repr n
  have hvalue : Nat.ofDigitChars 10 (c :: cs) 0 = n := by
    rw [← htext, toList_repr, Nat.ofDigitChars_ten_toDigits]
  rw [htext, parseUint, parseDigits_eq 0 hdigits (by rw [hvalue]; exact hlt), hvalue]

/-- A text that does not start with a sign is read as its digits. -/
theorem parse_eq_of_isDigit {s : String} {c : Char} {cs : List Char} (hs : s.toList = c :: cs)
    (hc : c.isDigit = true) : parse s = (parseUint (c :: cs)).bind (signed false) := by
  have hplus : c ≠ '+' := by rintro rfl; exact absurd hc (by decide)
  have hminus : c ≠ '-' := by rintro rfl; exact absurd hc (by decide)
  unfold parse
  rw [hs]
  split
  · next h => exact absurd (List.cons.inj h).1 hplus
  · next h => exact absurd (List.cons.inj h).1 hminus
  · rfl

/-- The digits of a number without a sign. -/
theorem parse_repr {n : Nat} (hlt : n < 2 ^ 63) : parse n.repr = .ok (Int64.ofInt n) := by
  obtain ⟨c, cs, htext, hdigits⟩ := exists_toList_repr n
  rw [parse_eq_of_isDigit htext (hdigits c List.mem_cons_self), ← htext,
    parseUint_repr (by omega)]
  exact if_pos hlt

/-- The digits of a number behind a minus sign. -/
theorem parse_minus_repr {n : Nat} (hle : n ≤ 2 ^ 63) :
    parse ("-" ++ n.repr) = .ok (Int64.ofInt (-n)) := by
  have htext : ("-" ++ n.repr).toList = '-' :: n.repr.toList := by rw [String.toList_append]; rfl
  unfold parse
  rw [htext]
  change (parseUint n.repr.toList).bind (signed true) = _
  rw [parseUint_repr (by omega)]
  exact if_pos hle

/-- Every number is read back from its text. -/
theorem parse_render (n : Int64) : parse (render n) = .ok n := by
  have hlt := n.toInt_lt
  have hle := n.le_toInt
  unfold render
  split
  · next hneg =>
      have habs : -(n.toInt.natAbs : Int) = n.toInt := by omega
      rw [parse_minus_repr (by omega), habs, Int64.ofInt_toInt]
  · next hneg =>
      have habs : (n.toInt.natAbs : Int) = n.toInt := by omega
      rw [parse_repr (by omega), habs, Int64.ofInt_toInt]

end Decimal

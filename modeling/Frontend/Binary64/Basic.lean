namespace Frontend

/-- A double-precision number, by its bits. -/
structure Binary64 where
  bits : UInt64
  deriving Repr

namespace Binary64

/-- The bits below the sign, read as a number. They order the magnitudes, and the pattern after
the largest finite one is `infinity`. -/
def pattern (x : Binary64) : Nat := x.bits.toNat % Nat.pow 2 63

def isNegative (x : Binary64) : Bool := Nat.pow 2 63 ≤ x.bits.toNat

def infinity : Nat := 2047 * Nat.pow 2 52

def isNaN (x : Binary64) : Bool := infinity < x.pattern

def isFinite (x : Binary64) : Bool := x.pattern < infinity

def ofPattern (negative : Bool) (p : Nat) : Binary64 :=
  ⟨UInt64.ofNat (if negative then Nat.pow 2 63 + p else p)⟩

def nan : Binary64 := ofPattern false (infinity + Nat.pow 2 51)

/-- Every finite number is a whole multiple of the smallest one, `2 ^ -1074`: the magnitude of a
pattern in that unit. -/
def units (p : Nat) : Nat :=
  if p < Nat.pow 2 52 then p
  else (Nat.pow 2 52 + p % Nat.pow 2 52) * Nat.pow 2 (p / Nat.pow 2 52 - 1)

/-- The quotient rounded to the nearest number, a half going to the even one. -/
def roundDiv (num den : Nat) : Nat :=
  let q := num / den
  let r := num % den
  if 2 * r < den then q
  else if den < 2 * r then q + 1
  else q + q % 2

/-- The pattern nearest to `num / den` units. The quotient is rounded to 53 significant bits; the
carry of the rounding moves on to the next exponent by itself. -/
def nearest (num den : Nat) : Nat :=
  let shift := (num / den).log2 - 52
  min (shift * Nat.pow 2 52 + roundDiv num (den * Nat.pow 2 shift)) infinity

def unitsPerOne : Nat := Nat.pow 2 1074

def ofInt (n : Int) : Binary64 := ofPattern (n < 0) (nearest (n.natAbs * unitsPerOne) 1)

def ofDecimal (n places : Nat) : Binary64 :=
  ofPattern false (nearest (n * unitsPerOne) (Nat.pow 10 places))

def toFloat (x : Binary64) : Float := Float.ofBits x.bits

def ofFloat (x : Float) : Binary64 := ⟨x.toBits⟩

instance : Add Binary64 := ⟨fun x y => ofFloat (x.toFloat + y.toFloat)⟩

instance : Sub Binary64 := ⟨fun x y => ofFloat (x.toFloat - y.toFloat)⟩

instance : Mul Binary64 := ⟨fun x y => ofFloat (x.toFloat * y.toFloat)⟩

instance : Div Binary64 := ⟨fun x y => ofFloat (x.toFloat / y.toFloat)⟩

def rem (x y : Binary64) : Binary64 :=
  if x.isNaN || y.isNaN || !x.isFinite || y.pattern = 0 then nan
  else if !y.isFinite then x
  else ofPattern x.isNegative (nearest (units x.pattern % units y.pattern) 1)

instance : Mod Binary64 := ⟨rem⟩

def rank (x : Binary64) : Int := if x.isNegative then -(x.pattern : Int) else x.pattern

def order? (x y : Binary64) : Option Ordering :=
  if x.isNaN || y.isNaN then none else some (compare x.rank y.rank)

/-- Equality as numbers: the zeros are equal, NaN is not equal to itself. -/
instance : BEq Binary64 := ⟨fun x y => order? x y == some .eq⟩

theorem pattern_ofPattern (negative : Bool) {p : Nat} (h : p < Nat.pow 2 63) :
    (ofPattern negative p).pattern = p := by
  rw [Nat.pow_eq] at h
  cases negative <;> simp [ofPattern, pattern, UInt64.toNat_ofNat'] <;> omega

end Binary64

end Frontend

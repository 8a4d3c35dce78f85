/-!
Binary floating-point numbers of 64 bits, as far as lengths of time and counts need them: the
numbers are not negative, and a number is a mantissa below `2 ^ 53` times a power of two.

`Binary64.ofRatio` rounds a quotient to the nearest such number, a half to the even mantissa.
`Binary64.wholeText` writes a whole number with the fewest digits that still read back as it, zeros
filling the rest.
-/

namespace Multicast

/-- The number `mantissa * 2 ^ exponent`. -/
structure Binary64 where
  mantissa : Nat
  exponent : Int
  deriving DecidableEq, Repr, Inhabited

namespace Binary64

def precision : Nat := 53

def minExponent : Int := -1074

/-- The quotient rounded to the nearest whole number, a half to the even one. -/
def roundHalfEven (num den : Nat) : Nat :=
  let q := num / den
  let twice := 2 * (num % den)
  if twice < den then q else if den < twice then q + 1 else q + q % 2

/-- The mantissa that `num / den` has at an exponent, rounded. -/
def mantissaAt (num den : Nat) (e : Int) : Nat :=
  if 0 ≤ e then roundHalfEven num (den * Nat.pow 2 e.toNat)
  else roundHalfEven (num * Nat.pow 2 (-e).toNat) den

/-- The number nearest to `num / den`. The exponent is chosen so that the mantissa fills its bits;
the estimate from the lengths of the two numbers is off by one at most. -/
def ofRatio (num den : Nat) : Binary64 :=
  if num = 0 then ⟨0, minExponent⟩
  else
    let estimate : Int := (num.log2 : Int) - (den.log2 : Int) - precision
    let low := max estimate minExponent
    if mantissaAt num den low < Nat.pow 2 precision then ⟨mantissaAt num den low, low⟩
    else if mantissaAt num den (low + 1) < Nat.pow 2 precision then
      ⟨mantissaAt num den (low + 1), low + 1⟩
    else ⟨mantissaAt num den (low + 2), low + 2⟩

def ofNat (n : Nat) : Binary64 := ofRatio n 1

/-- The number as a quotient of whole numbers. -/
def ratio (x : Binary64) : Nat × Nat :=
  if 0 ≤ x.exponent then (x.mantissa * Nat.pow 2 x.exponent.toNat, 1)
  else (x.mantissa, Nat.pow 2 (-x.exponent).toNat)

def add (x y : Binary64) : Binary64 :=
  let (a, b) := x.ratio
  let (c, d) := y.ratio
  ofRatio (a * d + c * b) (b * d)

def div (x y : Binary64) : Binary64 :=
  let (a, b) := x.ratio
  let (c, d) := y.ratio
  ofRatio (a * d) (b * c)

/-- The same number with a mantissa that fills its bits, unless the exponent is the smallest. -/
def normal (x : Binary64) : Binary64 :=
  let shift := min (52 - x.mantissa.log2) (x.exponent - minExponent).toNat
  ⟨x.mantissa * Nat.pow 2 shift, x.exponent - shift⟩

/-- The 64 bits of the number: no sign, eleven bits of exponent, 52 bits of mantissa. -/
def bits (x : Binary64) : Nat :=
  let y := x.normal
  if y.mantissa < Nat.pow 2 52 then y.mantissa
  else (y.exponent + 1075).toNat * Nat.pow 2 52 + (y.mantissa - Nat.pow 2 52)

/-- The bits as sixteen digits in base sixteen. -/
def bitsText (x : Binary64) : String :=
  let ds := Nat.toDigits 16 x.bits
  String.ofList (List.replicate (16 - ds.length) '0' ++ ds)

/-- Whether a whole number reads back as `x`. -/
def readsBack (x : Binary64) (n : Nat) : Bool := ofNat n == x

/-- A whole number near `n` that ends in `zeros` zeros and reads back as `x`, the nearer of the two
candidates if both do. -/
def shorter? (x : Binary64) (n zeros : Nat) : Option Nat :=
  let unit := Nat.pow 10 zeros
  let low := n / unit * unit
  let high := low + unit
  match readsBack x low, readsBack x high with
  | true, true => if n - low ≤ high - n then some low else some high
  | true, false => some low
  | false, true => some high
  | false, false => none

/-- The text of the whole number nearest to `n`, with as many zeros at its end as possible. -/
def wholeText (n : Nat) : String :=
  let x := ofNat n
  let value := x.ratio.1 / x.ratio.2
  let zeros := (List.range (Nat.toDigits 10 value).length).reverse
  match zeros.findSome? (shorter? x value) with
  | some v => toString v
  | none => toString value

end Binary64

end Multicast

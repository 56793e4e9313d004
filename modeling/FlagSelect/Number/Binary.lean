import FlagSelect.Number.Shortest

/-!
# Binary floating point numbers

Numbers of 32 and 64 bits are kept as their bit patterns. `Pattern.view` says which number a
pattern stands for, `Pattern.text` writes it with the fewest digits that read back in its own width,
always positionally, and `Pattern.sameNumber` compares as numbers: a NaN differs from all, and the
two zeros agree.
-/

namespace FlagSelect.Number

/-- The field widths of a binary interchange format. -/
structure Format where
  fractionBits : Nat
  exponentBits : Nat

/-- One sign bit, eight exponent bits, 23 fraction bits. -/
def binary32 : Format := ⟨23, 8⟩

/-- One sign bit, eleven exponent bits, 52 fraction bits. -/
def binary64 : Format := ⟨52, 11⟩

/-- What a bit pattern stands for. -/
inductive View where
  | nan
  | infinite (negative : Bool)
  | zero (negative : Bool)
  /-- The number `mantissa * 2 ^ exponent`; `narrow` holds if the next smaller number lies half as
  far away as the next larger one. -/
  | finite (negative : Bool) (mantissa : Nat) (exponent : Int) (narrow : Bool)
deriving DecidableEq

/-- The number of a bit pattern. -/
def Format.view (f : Format) (bits : Nat) : View :=
  let fraction := bits % 1 <<< f.fractionBits
  let exponent := bits >>> f.fractionBits % 1 <<< f.exponentBits
  let negative := bits >>> (f.fractionBits + f.exponentBits) % 2 == 1
  let bias : Int := (1 <<< (f.exponentBits - 1) : Nat) - 1 + f.fractionBits
  if exponent = 1 <<< f.exponentBits - 1 then
    if fraction = 0 then .infinite negative else .nan
  else if exponent = 0 then
    if fraction = 0 then .zero negative else .finite negative fraction (1 - bias) false
  else
    .finite negative (fraction + 1 <<< f.fractionBits) (exponent - bias)
      (fraction == 0 && exponent != 1)

/-- The least real that rounds to infinity, halfway from the largest number to the power of two
behind it. -/
def Format.overflow (f : Format) : Nat :=
  (1 <<< (f.fractionBits + 2) - 1) <<< (1 <<< (f.exponentBits - 1) - 2 - f.fractionBits)

/-- Whether `digits * 10 ^ exponent` rounds to infinity. Powers are raised only where the place of
the first digit leaves it open. -/
def Format.overflows (f : Format) (digits : Nat) (exponent : Int) : Bool :=
  let places := (Nat.toDigits 10 digits).length + exponent
  let limit : Int := (Nat.toDigits 10 f.overflow).length
  digits != 0 && (limit < places ||
    (places == limit &&
      f.overflow * Nat.pow 10 (-exponent).toNat ≤ digits * Nat.pow 10 exponent.toNat))

/-- The reals that round to `mantissa * 2 ^ exponent`: up to halfway to the neighbours, the ends
included for an even mantissa. -/
def roundingInterval (mantissa : Nat) (exponent : Int) (narrow : Bool) : Interval :=
  let p := 1 <<< (exponent - 2).toNat
  { low := (4 * mantissa - if narrow then 1 else 2) * p
    value := 4 * mantissa * p
    high := (4 * mantissa + 2) * p
    den := 1 <<< (2 - exponent).toNat
    closed := mantissa % 2 == 0 }

/-- The positional text of `mantissa * 2 ^ exponent` with the fewest digits. -/
def magnitudeText (mantissa : Nat) (exponent : Int) (narrow : Bool) : String :=
  let i := roundingInterval mantissa exponent narrow
  let top := (Nat.toDigits 10 (i.high / i.den)).length
  match shortest? i (top + exponent.natAbs + 8) top with
  | some d => d.positional
  | none => ""

/-- The sign, then the shortest digits that read back; whole numbers have no point. -/
def View.text : View → String
  | .nan => "NaN"
  | .infinite negative => if negative then "-inf" else "inf"
  | .zero negative => if negative then "-0" else "0"
  | .finite negative m e narrow =>
    (if negative then "-" else "") ++ magnitudeText m e narrow

/-- Whether two patterns stand for the same number. -/
def View.sameNumber : View → View → Bool
  | .nan, _ => false
  | _, .nan => false
  | .zero _, .zero _ => true
  | v, w => v == w

/-- The bit pattern of a 32-bit number. -/
structure Single where
  bits : UInt32
deriving DecidableEq

/-- The bit pattern of a 64-bit number. -/
structure Double where
  bits : UInt64
deriving DecidableEq

namespace Single

def view (x : Single) : View := binary32.view x.bits.toNat

def text (x : Single) : String := x.view.text

def sameNumber (x y : Single) : Bool := x.view.sameNumber y.view

/-- The same number in 64 bits. -/
def widen (x : Single) : Double := ⟨(Float32.ofBits x.bits).toFloat.toBits⟩

/-- The nearest number to a whole one. -/
def ofInt64 (n : Int64) : Single := ⟨n.toFloat32.toBits⟩

end Single

namespace Double

def view (x : Double) : View := binary64.view x.bits.toNat

def text (x : Double) : String := x.view.text

def sameNumber (x y : Double) : Bool := x.view.sameNumber y.view

def isNaN (x : Double) : Bool := x.view == .nan

/-- The nearest number in 32 bits. -/
def narrow (x : Double) : Single := ⟨(Float.ofBits x.bits).toFloat32.toBits⟩

/-- The nearest number to a whole one. -/
def ofInt64 (n : Int64) : Double := ⟨n.toFloat.toBits⟩

end Double

end FlagSelect.Number

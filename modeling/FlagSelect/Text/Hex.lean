/-!
# Hexadecimal numerals

Lower-case digits, most significant first: `digits` without leading zeros, `padded` to a fixed
width, `bytes` two digits a byte.
-/

namespace FlagSelect.Text.Hex

/-- The numeral of `n` in lower case without leading zeros; zero is `0`. -/
def digits (n : Nat) : String :=
  String.ofList (Nat.toDigits 16 n)

/-- The numeral of `n`, filled with zeros on the left up to `width` digits. -/
def padded (width n : Nat) : String :=
  let ds := Nat.toDigits 16 n
  String.ofList (List.replicate (width - ds.length) '0' ++ ds)

/-- Two digits for each byte. -/
def bytes (bs : List UInt8) : String :=
  String.join (bs.map fun b => padded 2 b.toNat)

/-- The value of one digit in either case. -/
def digit? (c : Char) : Option Nat :=
  if '0' ≤ c ∧ c ≤ '9' then some (c.toNat - '0'.toNat)
  else if 'a' ≤ c ∧ c ≤ 'f' then some (c.toNat - 'a'.toNat + 10)
  else if 'A' ≤ c ∧ c ≤ 'F' then some (c.toNat - 'A'.toNat + 10)
  else none

/-- The value of a nonempty numeral. -/
def ofDigits? (l : List Char) : Option Nat :=
  if l.isEmpty then none else l.foldlM (fun n c => (digit? c).map (16 * n + ·)) 0

/-- The bytes of a numeral with two digits a byte. -/
def ofBytes? : List Char → Option (List UInt8)
  | [] => some []
  | [_] => none
  | a :: b :: l => do
    let hi ← digit? a
    let lo ← digit? b
    return (16 * hi + lo).toUInt8 :: (← ofBytes? l)

example : padded 4 0x1f = "001f" := by decide
example : ofDigits? ['1', 'f'] = some 0x1f := by decide

end FlagSelect.Text.Hex

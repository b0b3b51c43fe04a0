/-!
# Hexadecimal numbers in text

Numbers are written with upper case digits.  A width is a least number of digits: a shorter number
is filled with zeros from the left, a longer one is written whole.
-/

namespace ChipEight.Hex

/-- The upper case digits of a number, without leading zeros; zero is a single digit. -/
def digits (n : Nat) : List Char :=
  (Nat.toDigits 16 n).map Char.toUpper

def filled (width n : Nat) : String :=
  let ds := digits n
  String.ofList (List.replicate (width - ds.length) '0' ++ ds)

def number (n : Nat) : String :=
  "0x" ++ filled 0 n

def byte (n : Nat) : String :=
  "0x" ++ filled 2 n

def word (n : Nat) : String :=
  "0x" ++ filled 4 n

end ChipEight.Hex

/-!
# Words

Which integers fit a word of a given number of bits, with or without a sign.
-/

namespace CubeSql

/-- How many words of the given number of bits there are. -/
def wordCount (bits : Nat) : Nat := Nat.pow 2 bits

/-- Whether an integer fits a word without a sign. -/
def fitsUnsigned (bits : Nat) (n : Int) : Bool := 0 ≤ n && n < wordCount bits

/-- Whether an integer fits a word with a sign. -/
def fitsSigned (bits : Nat) (n : Int) : Bool :=
  -(wordCount (bits - 1) : Int) ≤ n && n < wordCount (bits - 1)

/-- Whether an integer fits a word with or without a sign. -/
def fitsWord (bits : Nat) (n : Int) : Bool := fitsSigned bits n || fitsUnsigned bits n

end CubeSql

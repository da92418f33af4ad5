/-!
# Blank characters

The characters of the Unicode property White_Space, as closed ranges of code points (Unicode 15). A text
is blank when it holds no other character; the empty text is blank.
-/

namespace CubeSql.Text

/-- Closed ranges of code points, ascending and apart. -/
def blankRanges : List (Nat × Nat) :=
  [(0x09, 0x0D), (0x20, 0x20), (0x85, 0x85), (0xA0, 0xA0), (0x1680, 0x1680), (0x2000, 0x200A),
   (0x2028, 0x2029), (0x202F, 0x202F), (0x205F, 0x205F), (0x3000, 0x3000)]

/-- Whether a character is white space. -/
def isBlankChar (c : Char) : Bool :=
  blankRanges.any fun range => range.1 ≤ c.toNat && c.toNat ≤ range.2

/-- Whether a text is empty or holds white space only. -/
def isBlank (s : String) : Bool := s.toList.all isBlankChar

end CubeSql.Text

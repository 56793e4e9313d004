/-!
# Blank characters

`isBlank` is the Unicode property White_Space, and `trim` removes its characters at both ends of a
text. Directives skip the narrower `isAsciiBlank` between their parts.
-/

namespace FlagSelect.Text

/-- The Unicode property White_Space. -/
def isBlank (c : Char) : Bool :=
  let n := c.toNat
  (0x9 ≤ n && n ≤ 0xd) || n == 0x20 || n == 0x85 || n == 0xa0 || n == 0x1680 ||
    (0x2000 ≤ n && n ≤ 0x200a) || n == 0x2028 || n == 0x2029 || n == 0x202f || n == 0x205f ||
    n == 0x3000

/-- Space, tab, line feed, form feed and carriage return. The vertical tab is not among them. -/
def isAsciiBlank (c : Char) : Bool :=
  c == ' ' || c == '\t' || c == '\n' || c == '\x0c' || c == '\r'

/-- The characters of `l` without the blank ones at its ends. -/
def trimChars (l : List Char) : List Char :=
  ((l.dropWhile isBlank).reverse.dropWhile isBlank).reverse

/-- The text without the blank characters at its ends. -/
def trim (s : String) : String :=
  String.ofList (trimChars s.toList)

/-- Whether the text has no character but blank ones. The empty text is blank. -/
def allBlank (s : String) : Bool :=
  s.toList.all isBlank

end FlagSelect.Text

import FlagSelect.Text.Hex
import FlagSelect.Text.Unprintable

/-!
# Quoted text

A text between double quotes, so that each of its characters can be seen: the quote, the backslash
and the four controls with a letter of their own are written with a backslash, and every other
character that does not print, or that joins the one before it, by its code point in braces.
-/

namespace FlagSelect.Text

/-- The code point of `c` in hexadecimal, written as an escape with braces. -/
def codePointEscape (c : Char) : String :=
  "\\u\x7b" ++ Hex.digits c.toNat ++ "\x7d"

/-- The form of one character inside double quotes. A single quote stands for itself. -/
def quoteChar (c : Char) : String :=
  if c = '"' then "\\\""
  else if c = '\\' then "\\\\"
  else if c = '\n' then "\\n"
  else if c = '\r' then "\\r"
  else if c = '\t' then "\\t"
  else if c = '\x00' then "\\0"
  else if isExtending c || !isPrintable c then codePointEscape c
  else c.toString

/-- The text between double quotes, with what cannot be seen escaped. -/
def quote (s : String) : String :=
  "\"" ++ String.join (s.toList.map quoteChar) ++ "\""

end FlagSelect.Text

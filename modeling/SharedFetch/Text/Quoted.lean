/-!
# Quoted text

The written form of a text inside messages: in double quotes, with the quote and the
backslash escaped, the common control characters by letter and every other control
character by its code point in hexadecimal. All other characters stand for themselves, so
the written form of a text without quotes, backslashes and controls is the text in quotes.

Texts are meant to be printable apart from that: format characters, private and unassigned code
points and marks that combine with the character before them have no written form of their own
here.
-/

namespace SharedFetch.Text

/-- Control characters: the two blocks of code points that have no glyph. -/
def isControl (c : Char) : Bool :=
  c.toNat < 0x20 || (0x7f ≤ c.toNat && c.toNat < 0xa0)

/-- The code point of a character in hexadecimal, between braces, after `\u`. -/
def codePoint (c : Char) : List Char :=
  "\\u\x7b".toList ++ Nat.toDigits 16 c.toNat ++ "\x7d".toList

/-- How one character is written between the quotes. -/
def escape (c : Char) : List Char :=
  if c = '"' then "\\\"".toList
  else if c = '\\' then "\\\\".toList
  else if c = '\n' then "\\n".toList
  else if c = '\r' then "\\r".toList
  else if c = '\t' then "\\t".toList
  else if c.toNat = 0 then "\\0".toList
  else if isControl c then codePoint c
  else [c]

/-- A text in double quotes. -/
def quote (s : String) : String :=
  String.ofList ('"' :: s.toList.flatMap escape ++ ['"'])

end SharedFetch.Text

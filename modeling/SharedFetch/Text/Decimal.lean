/-!
# Decimal numbers

Reading a number of 64 bits from its decimal digits. A plus sign may stand in front, but not
alone, and leading zeros do no harm. The digits are read from left to right, and what is wrong
first is what is reported.
-/

namespace SharedFetch.Text

/-- Why a text is no number of 64 bits. -/
inductive Misread where
  | empty
  | invalidDigit
  | tooLarge
  deriving DecidableEq, Inhabited, Repr

/-- What is said of a text that is no number. -/
def Misread.message : Misread → String
  | .empty => "cannot parse integer from empty string"
  | .invalidDigit => "invalid digit found in string"
  | .tooLarge => "number too large to fit in target type"

/-- The number so far with one more digit. -/
def withDigit (value : Nat) (c : Char) : Nat :=
  value * 10 + (c.toNat - '0'.toNat)

/-- Reads one more digit. -/
def readDigit (value : Nat) (c : Char) : Except Misread Nat :=
  if c.isDigit then
    if withDigit value c < UInt64.size then .ok (withDigit value c) else .error .tooLarge
  else .error .invalidDigit

/-- Reads digits after those that were read before. -/
def readDigits (value : Nat) : List Char → Except Misread Nat
  | [] => .ok value
  | c :: rest => (readDigit value c).bind fun value => readDigits value rest

/-- Reads a number of 64 bits. -/
def readWord (s : String) : Except Misread Nat :=
  match s.toList with
  | [] => .error .empty
  | ['+'] => .error .invalidDigit
  | '+' :: digits => readDigits 0 digits
  | digits => readDigits 0 digits

end SharedFetch.Text

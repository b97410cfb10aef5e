/-!
# Reports of an error with its causes

A report starts with the text of the error. If there are causes, an empty line and the words
`Caused by:` follow, and then one block a cause. A single cause is indented by four blanks.
Several causes are numbered from zero; the number is right-aligned to five columns, and the
lines of a cause after its first are indented to stand below the text.
-/

namespace SharedFetch.Text

/-- Lines joined by line feeds, each but the first after an indentation. -/
def hang (indent : String) (s : String) : String :=
  ("\n" ++ indent).intercalate (s.splitOn "\n")

/-- A number right-aligned to five columns. -/
def column (n : Nat) : String :=
  let digits := Nat.toDigits 10 n
  String.ofList (List.replicate (5 - digits.length) ' ' ++ digits)

/-- The block of the only cause. -/
def soleCause (cause : String) : String :=
  "\n    " ++ hang "    " cause

/-- The block of the cause with number `n` among several. -/
def numberedCause (n : Nat) (cause : String) : String :=
  "\n" ++ column n ++ ": " ++ hang "       " cause

/-- The blocks of several causes, numbered from `n` on. -/
def numberedCauses (n : Nat) : List String → String
  | [] => ""
  | cause :: rest => numberedCause n cause ++ numberedCauses (n + 1) rest

/-- The report of an error with the given text and causes, outermost cause first. -/
def report (text : String) : List String → String
  | [] => text
  | [cause] => text ++ "\n\nCaused by:" ++ soleCause cause
  | causes => text ++ "\n\nCaused by:" ++ numberedCauses 0 causes

end SharedFetch.Text

/-!
# Cancellation tokens

A token is cancelled once and for good. A token may be made as the child of another: it is
cancelled with its parent as well as by itself, and cancelling it leaves the parent alone.
Parents have no parents of their own.
-/

namespace SharedFetch

/-- The name of a token. -/
abbrev Token := Nat

/-- All tokens made so far: the parent of each, by name, and those cancelled by themselves. -/
structure Tokens where
  parents : List (Option Token) := []
  fired : List Token := []
  deriving DecidableEq, Inhabited, Repr

namespace Tokens

/-- A new token that stands alone. -/
def fresh (t : Tokens) : Token × Tokens :=
  (t.parents.length, { t with parents := t.parents ++ [none] })

/-- A new token below another. -/
def child (t : Tokens) (parent : Token) : Token × Tokens :=
  (t.parents.length, { t with parents := t.parents ++ [some parent] })

/-- Cancels a token. -/
def cancel (t : Tokens) (token : Token) : Tokens :=
  if t.fired.contains token then t else { t with fired := t.fired ++ [token] }

/-- The parent of a token. -/
def parent? (t : Tokens) (token : Token) : Option Token :=
  t.parents[token]?.join

/-- Whether a token is cancelled, by itself or with its parent. -/
def isCancelled (t : Tokens) (token : Token) : Bool :=
  t.fired.contains token || (t.parent? token).any t.fired.contains

end Tokens

end SharedFetch

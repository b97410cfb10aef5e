import SharedFetch.Text.Report

/-!
# Chains of causes

An error given from outside is a chain of texts: its own text and then the text of each
cause, outermost first. A chain is never empty.
-/

namespace SharedFetch

/-- An error text with the texts of its causes, outermost first. -/
structure Chain where
  text : String
  causes : List String := []
  deriving DecidableEq, Inhabited, Repr

namespace Chain

/-- The chain as a list of texts: the error's own text, then its causes. -/
def texts (c : Chain) : List String :=
  c.text :: c.causes

/-- The chain of an error of which nothing is known. -/
def unspecified : Chain := ⟨"error", []⟩

/-- The chain whose texts are given; without any its own text is empty. -/
def ofTexts : List String → Chain
  | [] => ⟨"", []⟩
  | text :: causes => ⟨text, causes⟩

/-- The chain laid out as a report. -/
def report (c : Chain) : String :=
  Text.report c.text c.causes

@[simp] theorem texts_ofTexts_cons (text : String) (causes : List String) :
    (ofTexts (text :: causes)).texts = text :: causes := rfl

end Chain

/-- What a panicking computation leaves behind: a text, or a value that is none. -/
inductive Payload where
  | text (value : String)
  | other
  deriving DecidableEq, Inhabited, Repr

end SharedFetch

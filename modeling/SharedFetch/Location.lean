import SharedFetch.Text.Quoted

/-!
# Locations

A location names what a fetch brings in. Most locations are compared by value. There are two
exceptions. An *alias* has a name of its own, but is compared by its key: aliases of one key are
the same, however they are written. A *broken* location is the same as nothing, itself included,
and a list or a pair with a broken part inherits that.

Sameness is therefore symmetric and transitive, but it is not reflexive, and it is coarser than
equality. Two locations are the same exactly if they have no broken part and are equal but for the
names of aliases (`Location.same_iff`).
-/

namespace SharedFetch

/-- Types whose values have a written form in messages. -/
class Render (α : Type) where
  /-- The written form. -/
  render : α → String

export Render (render)

/-- What a fetch brings in. -/
inductive Location where
  | unit
  | flag (value : Bool)
  | number (value : Int)
  | text (value : String)
  | list (items : List Location)
  | pair (first second : Location)
  /-- What the key stands for, written under a name. -/
  | alias (key name : String)
  | broken (label : String)
  deriving Inhabited

namespace Location

mutual

/-- Sameness of two locations. -/
def same : Location → Location → Bool
  | .unit, .unit => true
  | .flag a, .flag b => a == b
  | .number a, .number b => a == b
  | .text a, .text b => a == b
  | .list a, .list b => sameItems a b
  | .pair a b, .pair c d => same a c && same b d
  | .alias a _, .alias b _ => a == b
  | _, _ => false

/-- Sameness of two lists, place by place. -/
def sameItems : List Location → List Location → Bool
  | [], [] => true
  | a :: as, b :: bs => same a b && sameItems as bs
  | _, _ => false

end

instance : BEq Location := ⟨same⟩

mutual

/-- Whether a location has no broken part. -/
def isWhole : Location → Bool
  | .list items => allWhole items
  | .pair a b => isWhole a && isWhole b
  | .broken _ => false
  | _ => true

/-- Whether no location of a list has a broken part. -/
def allWhole : List Location → Bool
  | [] => true
  | a :: as => isWhole a && allWhole as

end

mutual

/-- The written form of a location. -/
def written : Location → String
  | .unit => "()"
  | .flag true => "true"
  | .flag false => "false"
  | .number n => toString n
  | .text s => Text.quote s
  | .list items => "[" ++ writtenItems items ++ "]"
  | .pair a b => "(" ++ written a ++ ", " ++ written b ++ ")"
  | .alias _ name => name
  | .broken label => "Broken(" ++ Text.quote label ++ ")"

/-- The written forms of the items of a list, set apart by commas. -/
def writtenItems : List Location → String
  | [] => ""
  | [a] => written a
  | a :: b :: rest => written a ++ ", " ++ writtenItems (b :: rest)

end

instance : Render Location := ⟨written⟩

/-! ### Sameness -/

mutual

/-- What a location is compared by: the location without the names of its aliases. -/
def core : Location → Location
  | .list items => .list (coreItems items)
  | .pair a b => .pair (core a) (core b)
  | .alias key _ => .alias key ""
  | l => l

/-- What the items of a list are compared by. -/
def coreItems : List Location → List Location
  | [] => []
  | a :: as => core a :: coreItems as

end

mutual

/-- **Sameness.** Two locations are the same exactly if they are whole and have the same core. -/
theorem same_iff : ∀ a b : Location, same a b = true ↔ core a = core b ∧ isWhole a = true
  | .unit, b => by cases b <;> simp [same, core, isWhole]
  | .flag _, b => by cases b <;> simp [same, core, isWhole]
  | .number _, b => by cases b <;> simp [same, core, isWhole]
  | .text _, b => by cases b <;> simp [same, core, isWhole]
  | .alias _ _, b => by cases b <;> simp [same, core, isWhole]
  | .broken _, b => by cases b <;> simp [same, core, isWhole]
  | .list as, b => by
      cases b with
      | list bs => simp only [same, core, isWhole, sameItems_iff as bs, Location.list.injEq]
      | _ => simp [same, core]
  | .pair a₁ a₂, b => by
      cases b with
      | pair b₁ b₂ =>
        simp only [same, core, isWhole, Bool.and_eq_true, same_iff a₁ b₁, same_iff a₂ b₂,
          Location.pair.injEq]
        exact and_and_and_comm
      | _ => simp [same, core]

/-- Two lists are the same exactly if they are whole and have the same core. -/
theorem sameItems_iff : ∀ as bs : List Location,
    sameItems as bs = true ↔ coreItems as = coreItems bs ∧ allWhole as = true
  | [], bs => by cases bs <;> simp [sameItems, coreItems, allWhole]
  | a :: as, bs => by
      cases bs with
      | nil => simp [sameItems, coreItems]
      | cons b bs =>
        simp only [sameItems, coreItems, allWhole, Bool.and_eq_true, same_iff a b,
          sameItems_iff as bs, List.cons.injEq]
        exact and_and_and_comm

end

mutual

/-- Names have no part in whether a location is whole. -/
theorem isWhole_core : ∀ a : Location, isWhole (core a) = isWhole a
  | .unit | .flag _ | .number _ | .text _ | .alias _ _ | .broken _ => rfl
  | .list as => allWhole_coreItems as
  | .pair a b => by simp only [core, isWhole, isWhole_core a, isWhole_core b]

theorem allWhole_coreItems : ∀ as : List Location, allWhole (coreItems as) = allWhole as
  | [] => rfl
  | a :: as => by simp only [coreItems, allWhole, isWhole_core a, allWhole_coreItems as]

end

theorem beq_iff (a b : Location) : (a == b) = true ↔ a.core = b.core ∧ a.isWhole = true :=
  same_iff a b

instance : PartialEquivBEq Location where
  symm {a b} h := by
    obtain ⟨hcore, hwhole⟩ := (beq_iff a b).1 h
    exact (beq_iff b a).2 ⟨hcore.symm, by rw [← isWhole_core, ← hcore, isWhole_core, hwhole]⟩
  trans {a b c} h₁ h₂ := by
    obtain ⟨hcore, hwhole⟩ := (beq_iff a b).1 h₁
    exact (beq_iff a c).2 ⟨hcore.trans ((beq_iff b c).1 h₂).1, hwhole⟩

end Location

end SharedFetch

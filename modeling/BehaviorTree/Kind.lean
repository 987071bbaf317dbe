/-!
Kinds of node, by how many children they take.
-/
namespace BehaviorTree

inductive Kind where
  | leaf
  | composite
  | decorator
  deriving DecidableEq, Repr, Inhabited

namespace Kind

def all : List Kind := [leaf, composite, decorator]

def name : Kind → String
  | leaf => "LEAF"
  | composite => "COMPOSITE"
  | decorator => "DECORATOR"

def ofName? (text : String) : Option Kind := all.find? (·.name == text)

/-- `none` is no bound. -/
def maxChildren : Kind → Option Nat
  | leaf => some 0
  | decorator => some 1
  | composite => none

theorem ofNameIff {text : String} {k : Kind} :
    ofName? text = some k ↔ text = k.name := by
  constructor
  · intro found
    unfold ofName? at found
    exact (beq_iff_eq.1 (List.find?_some found :)).symm
  · rintro rfl
    cases k <;> rfl

end Kind
end BehaviorTree

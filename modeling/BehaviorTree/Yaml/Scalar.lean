import BehaviorTree.Yaml.Character

/-!
Scalars, and the rule that folds the gaps between their words. Within a line a gap is
kept. Over several lines its blanks vanish: a single line feed becomes a space, further
breaks stay, and an escaped break leaves nothing of its own.
-/
namespace BehaviorTree.Yaml

inductive Style where
  | plain
  | quoted
  | literal
  | folded
  deriving DecidableEq, Repr, Inhabited

structure Scalar where
  style : Style := .plain
  tag : Option String := none
  text : String := ""
  deriving DecidableEq, Repr, Inhabited

inductive Gap where
  | blanks (cs : List Char)
  /-- The first break, unless it was escaped, and those after it. -/
  | breaks (first : Option Char) (more : List Char)
  deriving DecidableEq, Repr

namespace Gap

def ofList (cs : List Char) : Gap :=
  match cs.filter isBreak with
  | [] => blanks cs
  | first :: more => breaks (some first) more

def escaped (cs : List Char) : Gap := breaks none (cs.filter isBreak)

def isBroken : Gap → Bool
  | blanks _ => false
  | breaks _ _ => true

def text : Gap → List Char
  | blanks cs => cs
  | breaks (some '\n') [] => [' ']
  | breaks (some '\n') more => more
  | breaks first more => first.toList ++ more

end Gap
end BehaviorTree.Yaml

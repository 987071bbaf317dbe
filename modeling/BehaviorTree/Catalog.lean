import BehaviorTree.Native
import BehaviorTree.Tree

/-!
The catalog of node classes, by unique name. Instances are named after their class and a
number that the whole catalog counts up, so no two have one name.
-/
namespace BehaviorTree

structure NodeClass (W : Type) where
  name : String
  kind : Kind
  parameters : Properties
  behavior : Behavior W

inductive CatalogError where
  | emptyName
  | missingTick (name : String)
  | duplicate (name : String)
  deriving DecidableEq, Repr

def CatalogError.message : CatalogError → String
  | emptyName => "node class name must be a non-empty string"
  | missingTick name =>
    "node class `" ++ name ++ "` is missing the mandatory tick implementation"
  | duplicate name =>
    "node class names must be unique; `" ++ name ++ "` is already registered"

structure Catalog (W : Type) where
  classes : SortedMap String (NodeClass W) := .empty
  issued : UInt64 := 0

def Native.nodeClass {W : Type} (n : Native) : NodeClass W where
  name := n.name
  kind := n.kind
  parameters := n.parameters
  behavior := n.behavior

namespace Catalog
variable {W : Type}

def empty : Catalog W := {}

def natives : Catalog W where
  classes := .ofList (Native.all.map fun n => (n.name, n.nodeClass))

def size (c : Catalog W) : Nat := c.classes.size

def get? (c : Catalog W) (name : String) : Option (NodeClass W) := c.classes.get? name

def list (c : Catalog W) : List (NodeClass W) := c.classes.values

def register (c : Catalog W) (cls : NodeClass W) : Except CatalogError (Catalog W) :=
  if cls.name = "" then .error .emptyName
  else if !cls.behavior.isTickable then .error (.missingTick cls.name)
  else if c.classes.contains cls.name then .error (.duplicate cls.name)
  else .ok { c with classes := c.classes.insert cls.name cls }

/-- Makes an instance of a class; `overrides` win over the class's own parameters. -/
def instantiate (c : Catalog W) (name : String) (overrides : Properties) :
    Option (Instance W × Catalog W) :=
  (c.get? name).map fun cls =>
    let number := c.issued + 1
    ({ name := name ++ "-" ++ toString number
       className := cls.name
       kind := cls.kind
       properties := cls.parameters.insertAll overrides.toList
       behavior := cls.behavior },
      { c with issued := number })

end Catalog
end BehaviorTree

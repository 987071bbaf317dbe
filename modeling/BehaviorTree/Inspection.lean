import BehaviorTree.Catalog
import BehaviorTree.Evaluation.Activation
import BehaviorTree.Text

/-!
Texts that show a value for inspection. Records are written as a name with their fields
in braces, and callbacks are left out.
-/
namespace BehaviorTree

namespace Inspection

def fields (name : String) (shown : List (String × String)) : String :=
  name ++ " \x7b " ++ ", ".intercalate (shown.map fun f => f.1 ++ ": " ++ f.2) ++ " \x7d"

def pairs (shown : List (String × String)) : String :=
  "\x7b" ++ ", ".intercalate (shown.map fun f => f.1 ++ ": " ++ f.2) ++ "\x7d"

def call (name argument : String) : String := name ++ "(" ++ argument ++ ")"

def bool (b : Bool) : String := if b then "true" else "false"

end Inspection

open Inspection

namespace Json

mutual

def inspect : Json → String
  | null => "Null"
  | bool b => call "Bool" (Inspection.bool b)
  | whole n => call "Number" (toString n)
  | float b => call "Number" b.text
  | text s => call "String" (Text.quoted s)
  | array items => "Array [" ++ ", ".intercalate (inspectItems items) ++ "]"
  | object fields => "Object " ++ pairs (inspectFields fields)

def inspectItems : List Json → List String
  | [] => []
  | item :: rest => inspect item :: inspectItems rest

def inspectFields : List (String × Json) → List (String × String)
  | [] => []
  | (key, value) :: rest => (Text.quoted key, inspect value) :: inspectFields rest

end

end Json

def Properties.inspect (p : Properties) : String := pairs (Json.inspectFields p.toList)

def SubjectId.inspect (s : SubjectId) : String := call "SubjectId" (toString s.number)

def NodeId.inspect (n : NodeId) : String := call "NodeId" (toString n.number)

def TreeId.inspect (t : TreeId) : String := call "TreeId" (Text.quoted t.text)

def ToolSlots.inspect (s : ToolSlots) : String :=
  pairs (s.types.map fun e => (toString e.1, Text.quoted e.2.name))

def Toolbox.inspect {W : Type} (t : Toolbox W) : String :=
  fields "Toolbox"
    [("subject", t.subject.inspect), ("tree", t.tree.inspect),
      ("error_hook", Inspection.bool t.hook.isSome), ("extensions", ToolSlots.inspect t.slots)]

def Kind.inspect : Kind → String
  | leaf => "Leaf"
  | composite => "Composite"
  | decorator => "Decorator"

def Inspection.openFields (name : String) (shown : List (String × String)) : String :=
  name ++ " \x7b " ++ ", ".intercalate (shown.map fun f => f.1 ++ ": " ++ f.2) ++ ", .. \x7d"

def Instance.inspect {W : Type} (i : Instance W) : String :=
  openFields "BehaviorInstance"
    [("id", Text.quoted i.name), ("class", Text.quoted i.className), ("kind", i.kind.inspect),
      ("properties", i.properties.inspect)]

def Node.inspect {W : Type} (n : Node W) : String :=
  let parent := match n.parent with
    | none => "None"
    | some p => call "Some" p.inspect
  fields "Node"
    [("id", n.id.inspect), ("instance", n.content.inspect), ("parent", parent),
      ("children", "[" ++ ", ".intercalate (n.children.map NodeId.inspect) ++ "]")]

def NodeClass.inspect {W : Type} (c : NodeClass W) : String :=
  openFields "NodeClass"
    [("name", Text.quoted c.name), ("kind", c.kind.inspect), ("parameters", c.parameters.inspect)]

def Plan.inspect {W : Type} (p : Plan W) : String :=
  fields "Execution"
    [("toolbox_factory", Inspection.bool p.factory.isSome),
      ("error_handler", Inspection.bool p.handler.isSome), ("max_depth", toString p.maxDepth)]

end BehaviorTree

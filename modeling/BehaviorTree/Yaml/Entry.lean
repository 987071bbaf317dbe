import BehaviorTree.Yaml.Node
import BehaviorTree.Yaml.Token.Lexer
import BehaviorTree.Yaml.Value

/-!
The keys and values of a document whose root is a mapping, and its entries, whose keys are
scalars. A reference stands for the node that its number names at the end. The number of an
anchor is how many names came before it, its own included; so a name that is set again may
share its number with the next new one.

A mapping is written as lines, each of a key and its value. Both are words without marks, so
that nothing has to be quoted.
-/
namespace BehaviorTree.Yaml

abbrev Pair := Value × Value

abbrev Entry := String × Value

inductive Outline where
  | reference (number : Nat)
  | value (found : Value)
  deriving DecidableEq, Repr

/-- The numbers of the names seen so far, and what was last written under each number. -/
structure Anchors where
  numbers : List (String × Nat) := []
  values : List (Nat × Value) := []

namespace Anchors

def note (anchor : Option String) (v : Value) (a : Anchors) : Anchors :=
  match anchor with
  | none => a
  | some name =>
    let number := a.numbers.length
    { numbers := (name, number) :: a.numbers.filter (·.1 ≠ name)
      values := (number, v) :: a.values }

def follow? (a : Anchors) : Outline → Option Value
  | .reference number => a.values.lookup number
  | .value found => some found

mutual

/-- Passes a node and all inside it; a reference needs its anchor before it. -/
def visit? (a : Anchors) : Node → Option (Outline × Anchors)
  | .reference name => (a.numbers.lookup name).map fun number => (.reference number, a)
  | .scalar anchor content =>
    some (.value (.scalar content), a.note anchor (.scalar content))
  | .sequence anchor items => do
    let a ← visitItems? (a.note anchor .collection) items
    some (.value .collection, a)
  | .mapping anchor entries => do
    let (_, a) ← visitEntries? (a.note anchor .collection) entries
    some (.value .collection, a)

def visitItems? (a : Anchors) : List Node → Option Anchors
  | [] => some a
  | item :: rest => do
    let (_, a) ← visit? a item
    visitItems? a rest

def visitEntries? (a : Anchors) : List (Node × Node) →
    Option (List (Outline × Outline) × Anchors)
  | [] => some ([], a)
  | (key, value) :: rest => do
    let (key, a) ← visit? a key
    let (value, a) ← visit? a value
    let (more, a) ← visitEntries? a rest
    some ((key, value) :: more, a)

end

def pair? (a : Anchors) (found : Outline × Outline) : Option Pair := do
  let key ← a.follow? found.1
  let value ← a.follow? found.2
  some (key, value)

end Anchors

def Node.pairs? : Node → Option (List Pair)
  | .mapping anchor entries => do
    let (found, a) ← (Anchors.note anchor .collection {}).visitEntries? entries
    found.mapM a.pair?
  | .scalar _ content => if content.style = .plain && content.text.isEmpty then some [] else none
  | _ => none

def pairs? (text : String) : Option (List Pair) := do
  let cs ← characters? text
  let tokens ← Token.scan? cs
  let root ← Node.ofTokens? tokens
  match root with
  | none => some []
  | some root => root.pairs?

def Pair.entry? (pair : Pair) : Option Entry := pair.1.text?.map fun key => (key, pair.2)

def entries? (text : String) : Option (List Entry) := (pairs? text).bind (·.mapM Pair.entry?)

structure Line where
  key : String
  value : String
  deriving DecidableEq, Repr

def Line.write (l : Line) : String := l.key ++ ": " ++ l.value ++ "\n"

def writeLines (lines : List Line) : String := String.join (lines.map Line.write)

end BehaviorTree.Yaml

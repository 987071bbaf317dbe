import BehaviorTree.Yaml.Cursor
import BehaviorTree.Yaml.Tag

/-!
Directives, each on a line of its own before a document: the version of the language,
and what a handle of tags stands for.
-/
namespace BehaviorTree.Yaml

inductive Directive where
  | version (major minor : Nat)
  | handle (name meaning : String)
  deriving DecidableEq, Repr, Inhabited

namespace Directive

def number? (c : Cursor) : Option (Nat × Cursor) :=
  let digits := c.rest.takeWhile Char.isDigit
  if 9 < digits.length then none
  else (Text.numeral? 10 digits).map fun n => (n, c.skip digits.length)

def version? (c : Cursor) : Option (Directive × Cursor) := do
  let (major, c) ← number? c
  match c.rest with
  | '.' :: _ => do
    let (minor, c) ← number? (c.skip 1)
    some (.version major minor, c)
  | _ => none

/-- A handle is a word between exclamation marks, or one such mark alone. -/
def handle? (c : Cursor) : Option (Directive × Cursor) :=
  match c.rest with
  | '!' :: rest => do
    let word := rest.takeWhile isNameChar
    let (name, after) ← match rest.drop word.length with
      | '!' :: after => some ('!' :: word ++ ['!'], after)
      | after => if word.isEmpty then some (['!'], after) else none
    let c := c.upTo after
    let (meaning, rest) ← Tag.name? true (c.skipWhile isSpace).rest
    if after.head?.any isSpace && endsWord rest then
      some (.handle (String.ofList name) meaning, c.upTo rest)
    else none
  | _ => none

def scan? (c : Cursor) : Option (Directive × Cursor) := do
  let word := (c.rest.drop 1).takeWhile isNameChar
  let c := c.skip (1 + word.length)
  let body := c.skipWhile isSpace
  let (found, last) ←
    if !endsWord c.rest then none
    else if word = ['Y', 'A', 'M', 'L'] then version? body
    else if word = ['T', 'A', 'G'] then handle? body
    else none
  some (found, ← last.endLine?)

end Directive
end BehaviorTree.Yaml

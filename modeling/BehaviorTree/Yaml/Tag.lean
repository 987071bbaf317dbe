import BehaviorTree.Text
import BehaviorTree.Yaml.Character

/-!
Tags as they are written: in full between angle brackets, or as a handle and the rest of
the name. An escape stands for an octet, the octets of a run spell a character, and a
null octet ends the name. A lone exclamation mark is a tag without a handle.
-/
namespace BehaviorTree.Yaml

structure Tag where
  handle : String
  name : String
  deriving DecidableEq, Repr, Inhabited

namespace Tag

/-- How many octets of a character are due after one more; none if it is misplaced. -/
def due? (due octet : Nat) : Option Nat :=
  match due with
  | 0 =>
    if octet < 0x80 then some 0
    else if 0xC0 ≤ octet ∧ octet < 0xE0 then some 1
    else if 0xE0 ≤ octet ∧ octet < 0xF0 then some 2
    else if 0xF0 ≤ octet ∧ octet < 0xF8 then some 3
    else none
  | due + 1 => if 0x80 ≤ octet ∧ octet < 0xC0 then some due else none

def characters? (wide : Bool) (due : Nat) : List Char → Option (List Char × List Char)
  | '%' :: a :: b :: rest => do
    let octet ← Text.numeral? 16 [a, b]
    let due ← due? due octet
    let (more, rest) ← characters? wide due rest
    some (Char.ofNat octet :: more, rest)
  | c :: rest =>
    if due ≠ 0 || c = '%' then none
    else if isTagChar wide c then do
      let (more, rest) ← characters? wide 0 rest
      some (c :: more, rest)
    else some ([], c :: rest)
  | [] => if due = 0 then some ([], []) else none

def nameOf (cs : List Char) : String := String.ofList (cs.takeWhile (· ≠ '\x00'))

def name? (wide : Bool) (cs : List Char) : Option (String × List Char) := do
  let (found, rest) ← characters? wide 0 cs
  if found.isEmpty then none else some (nameOf found, rest)

def scan? : List Char → Option (Tag × List Char)
  | '!' :: '<' :: rest => do
    let (name, rest) ← name? true rest
    match rest with
    | '>' :: rest => some (⟨"", name⟩, rest)
    | _ => none
  | '!' :: rest =>
    let word := rest.takeWhile isNameChar
    match rest.drop word.length with
    | '!' :: rest => do
      let (name, rest) ← name? false rest
      some (⟨String.ofList ('!' :: word ++ ['!']), name⟩, rest)
    | rest => do
      let (more, rest) ← characters? false 0 rest
      let name := nameOf (word ++ more)
      some (if name.isEmpty then ⟨"", "!"⟩ else ⟨"!", name⟩, rest)
  | _ => none

end Tag
end BehaviorTree.Yaml

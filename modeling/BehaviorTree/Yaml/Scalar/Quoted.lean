import BehaviorTree.Text
import BehaviorTree.Yaml.Cursor
import BehaviorTree.Yaml.Scalar

/-!
Quoted scalars. Between single quotes only the quote is special, and is written twice;
between double quotes a backslash escapes. No document may start or end inside.
-/
namespace BehaviorTree.Yaml

inductive Quote where
  | single
  | double
  deriving DecidableEq, Repr

namespace Quote

def mark : Quote → Char
  | single => '\x27'
  | double => '\x22'

def escapes : List (Char × Char) :=
  [('0', '\x00'), ('a', '\x07'), ('b', '\x08'), ('t', '\t'), ('\t', '\t'), ('n', '\n'),
    ('v', '\x0b'), ('f', '\x0c'), ('r', '\r'), ('e', '\x1b'), (' ', ' '), ('\x22', '\x22'),
    ('/', '/'), ('\\', '\\'), ('N', '\u0085'), ('_', '\u00a0'), ('L', '\u2028'), ('P', '\u2029')]

def coded? (digits : List Char) : Option Char := do
  let code ← Text.numeral? 16 digits
  if h : code.isValidChar then some (Char.ofNatAux code h) else none

def singleWord : List Char → List Char × Nat
  | [] => ([], 0)
  | '\x27' :: '\x27' :: rest =>
    let (word, width) := singleWord rest
    ('\x27' :: word, width + 2)
  | c :: rest =>
    if isGap c || c = '\x27' then ([], 0)
    else
      let (word, width) := singleWord rest
      (c :: word, width + 1)

/-- A word between double quotes, and how many characters write it; it ends before the
backslash of an escaped break. -/
def doubleWord? : List Char → Option (List Char × Nat)
  | [] => some ([], 0)
  | '\\' :: 'x' :: a :: b :: rest => do
    let found ← coded? [a, b]
    let (word, width) ← doubleWord? rest
    some (found :: word, width + 4)
  | '\\' :: 'u' :: a :: b :: c :: d :: rest => do
    let found ← coded? [a, b, c, d]
    let (word, width) ← doubleWord? rest
    some (found :: word, width + 6)
  | '\\' :: 'U' :: a :: b :: c :: d :: e :: f :: g :: h :: rest => do
    let found ← coded? [a, b, c, d, e, f, g, h]
    let (word, width) ← doubleWord? rest
    some (found :: word, width + 10)
  | '\\' :: c :: rest =>
    if isBreak c then some ([], 0)
    else do
      let found ← escapes.lookup c
      let (word, width) ← doubleWord? rest
      some (found :: word, width + 2)
  | c :: rest =>
    if isGap c || c = '\x22' then some ([], 0)
    else do
      let (word, width) ← doubleWord? rest
      some (c :: word, width + 1)

def word? : Quote → List Char → Option (List Char × Nat)
  | single, cs => some (singleWord cs)
  | double, cs => doubleWord? cs

def words? (q : Quote) : Nat → Cursor → Option (List Char × Cursor)
  | 0, _ => none
  | fuel + 1, c =>
    if c.atMarker then none
    else do
      let (word, width) ← q.word? c.rest
      let c := c.skip width
      match c.rest with
      | [] => none
      | mark :: _ =>
        if mark = q.mark then some (word, c.skip 1)
        else
          let isEscaped := mark = '\\'
          let c := if isEscaped then (c.skip 1).nextLine else c
          let spaces := c.rest.takeWhile isGap
          let gap := if isEscaped then Gap.escaped spaces else Gap.ofList spaces
          let (more, c) ← q.words? fuel (c.past spaces)
          some (word ++ gap.text ++ more, c)

def scan? (q : Quote) (fuel : Nat) (c : Cursor) : Option (List Char × Cursor) :=
  q.words? fuel (c.skip 1)

end Quote
end BehaviorTree.Yaml

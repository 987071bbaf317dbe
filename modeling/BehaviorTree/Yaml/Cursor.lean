import BehaviorTree.Yaml.Character

/-!
A place in a text: what is left to read, and the line and column where it stands. Both
count from zero, and a column counts characters; the offset in a line counts the octets
of its encoding instead.
-/
namespace BehaviorTree.Yaml

structure Cursor where
  rest : List Char
  line : Nat := 0
  column : Nat := 0
  offset : Nat := 0
  deriving DecidableEq, Repr, Inhabited

namespace Cursor

def skip (n : Nat) (c : Cursor) : Cursor :=
  { c with
    rest := c.rest.drop n
    column := c.column + n
    offset := (c.rest.take n).foldl (fun size d => size + d.utf8Size) c.offset }

def nextLine (c : Cursor) : Cursor := { rest := c.rest.drop 1, line := c.line + 1 }

def past : List Char → Cursor → Cursor
  | [], c => c
  | d :: ds, c => past ds (if isBreak d then c.nextLine else c.skip 1)

/-- Moves on within this line, until only `rest` is left. -/
def upTo (rest : List Char) (c : Cursor) : Cursor := c.skip (c.rest.length - rest.length)

def skipWhile (p : Char → Bool) (c : Cursor) : Cursor := c.skip (c.rest.takeWhile p).length

def skipComment (c : Cursor) : Cursor :=
  if c.rest.head? = some '#' then c.skipWhile (!isBreak ·) else c

def endLine? (c : Cursor) : Option Cursor :=
  let c := (c.skipWhile isSpace).skipComment
  match c.rest with
  | [] => some c
  | d :: _ => if isBreak d then some c.nextLine else none

def atMarkerOf (mark : Char) (c : Cursor) : Bool :=
  c.column = 0 && c.rest.take 3 = [mark, mark, mark] && endsWord (c.rest.drop 3)

def atMarker (c : Cursor) : Bool := c.atMarkerOf '-' || c.atMarkerOf '.'

end Cursor
end BehaviorTree.Yaml

import BehaviorTree.Yaml.Cursor
import BehaviorTree.Yaml.Scalar

/-!
Unquoted scalars: words up to a colon that ends a word, a comment, a document marker or,
in a flow collection, one of its marks. In a block, lines continue the scalar as long as
they reach its least column.
-/
namespace BehaviorTree.Yaml.Plain

def word? (inFlow : Bool) : List Char → Option (List Char)
  | [] => some []
  | c :: rest =>
    if isGap c then some []
    else if inFlow && c = ':' && rest.head?.any (fun d => d = '?' || isFlowMark d) then none
    else if (c = ':' && endsWord rest) || (inFlow && isFlowMark c) then some []
    else (word? inFlow rest).map (c :: ·)

/-- Whether a tab stands left of the least column; `column` is none on the first line. -/
def hasEarlyTab (least : Nat) (column : Option Nat) : List Char → Bool
  | [] => false
  | c :: rest =>
    if isBreak c then hasEarlyTab least (some 0) rest
    else (c = '\t' && column.any (· < least)) || hasEarlyTab least (column.map (· + 1)) rest

def words? (inFlow : Bool) (least : Nat) : Nat → Gap → Cursor →
    Option (List Char × Bool × Cursor)
  | 0, _, _ => none
  | fuel + 1, gap, c =>
    if c.atMarker || c.rest.head? = some '#' then some ([], gap.isBroken, c)
    else do
      let word ← word? inFlow c.rest
      let seen := gap.text ++ word
      let c := c.skip word.length
      let spaces := c.rest.takeWhile isGap
      let next := c.past spaces
      let after := Gap.ofList spaces
      if word.isEmpty then some ([], gap.isBroken, c)
      else if hasEarlyTab least none spaces then none
      else if spaces.isEmpty || (!inFlow && next.column < least) then
        some (seen, after.isBroken, next)
      else do
        let (more, last) ← words? inFlow least fuel after next
        some (seen ++ more, last)

def scan? (inFlow : Bool) (least fuel : Nat) (c : Cursor) :
    Option (List Char × Bool × Cursor) :=
  words? inFlow least fuel (.blanks []) c

end BehaviorTree.Yaml.Plain

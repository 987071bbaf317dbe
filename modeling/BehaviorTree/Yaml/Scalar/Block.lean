import BehaviorTree.Yaml.Cursor
import BehaviorTree.Yaml.Scalar

/-!
Literal and folded scalars: lines of one indentation, given by a digit after the opening
mark or taken from the first line with content. A sign after the mark says what is kept
of the breaks at the end: none, the first, or all. Folding joins two lines by a space
unless one of them begins with a blank.
-/
namespace BehaviorTree.Yaml.BlockText

inductive Ending where
  | strip
  | clip
  | keep
  deriving DecidableEq, Repr

def ending : List Char → Ending × List Char
  | '-' :: rest => (.strip, rest)
  | '+' :: rest => (.keep, rest)
  | cs => (.clip, cs)

def depth? : List Char → Option (Option Nat × List Char)
  | '0' :: _ => none
  | c :: rest => some (if c.isDigit then (some (c.toNat - 48), rest) else (none, c :: rest))
  | [] => some (none, [])

def marks? (cs : List Char) : Option (Ending × Option Nat × List Char) :=
  match ending cs with
  | (.clip, cs) => do
    let (depth, cs) ← depth? cs
    let (sign, cs) := ending cs
    some (sign, depth, cs)
  | (sign, cs) => do
    let (depth, cs) ← depth? cs
    some (sign, depth, cs)

/-- Passes breaks and the indentation of lines, as far as it is known: the breaks, and
the widest column reached. A tab may not stand for indentation. -/
def breaks? (indent : Option Nat) : Nat → Nat → Cursor → Option (List Char × Nat × Cursor)
  | 0, _, _ => none
  | fuel + 1, widest, c =>
    let spaces := (c.rest.takeWhile (· = ' ')).length
    let c := c.skip (indent.elim spaces fun n => min spaces (n - c.column))
    let widest := max widest c.column
    match c.rest with
    | [] => some ([], widest, c)
    | d :: _ =>
      if d = '\t' && indent.all (c.column < ·) then none
      else if isBreak d then do
        let (more, last) ← breaks? indent fuel widest c.nextLine
        some (d :: more, last)
      else some ([], widest, c)

structure Tail where
  last : Option Char
  breaks : List Char
  cursor : Cursor

/-- The lines with content from here on; `tail` says how the line before them ended, and
`wasBlank` whether it began with a blank. -/
def lines? (folded : Bool) (indent : Nat) : Nat → Bool → Tail → Option (List Char × Tail)
  | 0, _, _ => none
  | fuel + 1, wasBlank, tail =>
    let c := tail.cursor
    if c.column ≠ indent || c.rest.isEmpty then some ([], tail)
    else do
      let startsBlank := c.rest.head?.any isSpace
      let joint :=
        if folded && tail.last = some '\n' && !wasBlank && !startsBlank then
          if tail.breaks.isEmpty then [' '] else tail.breaks
        else tail.last.toList ++ tail.breaks
      let line := c.rest.takeWhile (!isBreak ·)
      let c := c.skip line.length
      let last := c.rest.head?
      let (breaks, _, c) ← breaks? (some indent) (fuel + 1) 0 (c.past last.toList)
      let (more, tail) ← lines? folded indent fuel startsBlank ⟨last, breaks, c⟩
      some (joint ++ line ++ more, tail)

def finish (text : List Char) (tail : Tail) : Ending → List Char
  | .strip => text
  | .clip => text ++ tail.last.toList
  | .keep => text ++ tail.last.toList ++ tail.breaks

def scan? (folded : Bool) (least fuel : Nat) (c : Cursor) : Option (List Char × Cursor) := do
  let (sign, depth, rest) ← marks? (c.rest.drop 1)
  let c ← (c.upTo rest).endLine?
  let given := depth.map fun n => least - 1 + n
  let (breaks, widest, c) ← breaks? given fuel 0 c
  let indent := given.getD (max widest (max least 1))
  let (text, tail) ← lines? folded indent fuel false ⟨none, breaks, c⟩
  some (finish text tail sign, tail.cursor)

end BehaviorTree.Yaml.BlockText

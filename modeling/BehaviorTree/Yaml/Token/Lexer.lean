import BehaviorTree.Yaml.Scalar.Block
import BehaviorTree.Yaml.Scalar.Plain
import BehaviorTree.Yaml.Scalar.Quoted
import BehaviorTree.Yaml.Token

/-!
Cutting a text into tokens. Whether a node is a key shows only at the colon after it, so
the lexer remembers where the last possible key began and puts the key's token there. A
possible key lives on one line and for 1024 octets; in a block that ends at its
column the colon has to come, and without it the text is refused. `fuel` is more than the
characters that are left.
-/
namespace BehaviorTree.Yaml

/-- A possible key: how many tokens stand before it, where it began, and whether it has
to be one. -/
structure PendingKey where
  place : Nat
  start : Cursor
  required : Bool
  deriving DecidableEq, Repr

def PendingKey.isStale (k : PendingKey) (c : Cursor) : Bool :=
  k.start.line < c.line || k.start.offset + 1024 < c.offset

structure Lexer where
  cursor : Cursor
  tokens : Array Token := #[]
  indents : List Nat := []
  keyAllowed : Bool := true
  key : Option PendingKey := none
  outerKeys : List (Option PendingKey) := []

namespace Lexer

def inFlow (s : Lexer) : Bool := !s.outerKeys.isEmpty

def leastColumn (s : Lexer) : Nat := s.indents.head?.elim 0 (· + 1)

def emit (t : Token) (c : Cursor) (s : Lexer) : Lexer :=
  { s with tokens := s.tokens.push t, cursor := c }

def emitMark (t : Token) (s : Lexer) : Lexer := s.emit t (s.cursor.skip 1)

/-! ### Indentation -/

/-- Opens a block collection at a column, unless one is open there or further in; its
token goes to the given place. -/
def openBlock (t : Token) (column place : Nat) (s : Lexer) : Lexer :=
  if s.inFlow || s.indents.head?.any (column ≤ ·) then s
  else
    { s with
      indents := column :: s.indents
      tokens := s.tokens.insertIdxIfInBounds place t }

def openHere? (t : Token) (s : Lexer) : Option Lexer :=
  if s.inFlow then some s
  else if s.keyAllowed then some (s.openBlock t s.cursor.column s.tokens.size)
  else none

def closeBlocks (isOver : Nat → Bool) (s : Lexer) : Lexer :=
  if s.inFlow then s
  else
    let closed := s.indents.takeWhile isOver
    { s with
      indents := s.indents.drop closed.length
      tokens := s.tokens ++ closed.map fun _ => Token.blockEnd }

/-! ### Possible keys -/

def dropKey? (s : Lexer) : Option Lexer :=
  if s.key.any (·.required) then none else some { s with key := none }

def dropStaleKey? (s : Lexer) : Option Lexer :=
  if s.key.any (·.isStale s.cursor) then s.dropKey? else some s

/-- Notes that the next token may begin a key; another may not follow at once. -/
def saveKey? (s : Lexer) : Option Lexer :=
  if s.keyAllowed then do
    let s ← s.dropKey?
    let required := !s.inFlow && s.indents.head? = some s.cursor.column
    some { s with key := some ⟨s.tokens.size, s.cursor, required⟩, keyAllowed := false }
  else some s

/-! ### Tokens -/

/-- Passes blanks, comments and line ends; a tab is a blank only where no key may begin. -/
def skipGap : Nat → Lexer → Lexer
  | 0, s => s
  | fuel + 1, s =>
    let c := s.cursor
    let c := if c.column = 0 && c.rest.head? = some '\ufeff' then c.skip 1 else c
    let tabs := s.inFlow || !s.keyAllowed
    let c := (c.skipWhile fun d => d = ' ' || (tabs && d = '\t')).skipComment
    if c.rest.head?.any isBreak then
      skipGap fuel { s with cursor := c.nextLine, keyAllowed := s.keyAllowed || !s.inFlow }
    else { s with cursor := c }

def settle? (fuel : Nat) (s : Lexer) : Option Lexer := do
  let s ← (s.skipGap fuel).dropStaleKey?
  some (s.closeBlocks (s.cursor.column < ·))

def leave? (s : Lexer) : Option Lexer := do
  let s ← (s.closeBlocks fun _ => true).dropKey?
  some { s with keyAllowed := false }

def directive? (s : Lexer) : Option Lexer := do
  let s ← s.leave?
  let (found, c) ← Directive.scan? s.cursor
  some (s.emit (.directive found) c)

def marker? (t : Token) (s : Lexer) : Option Lexer := do
  let s ← s.leave?
  some (s.emit t (s.cursor.skip 3))

def openFlow? (t : Token) (s : Lexer) : Option Lexer := do
  let s ← s.saveKey?
  some ({ s with outerKeys := s.key :: s.outerKeys, key := none, keyAllowed := true }.emitMark t)

def closeFlow? (t : Token) (s : Lexer) : Option Lexer := do
  let s ← s.dropKey?
  let s := { s with
    key := s.outerKeys.head?.join
    outerKeys := s.outerKeys.tail
    keyAllowed := false }
  some (s.emitMark t)

def separator? (s : Lexer) : Option Lexer := do
  let s ← s.dropKey?
  some ({ s with keyAllowed := true }.emitMark .flowSeparator)

def item? (s : Lexer) : Option Lexer := do
  let s ← s.openHere? .blockSequenceStart
  let s ← s.dropKey?
  some ({ s with keyAllowed := true }.emitMark .blockItem)

def explicitKey? (s : Lexer) : Option Lexer := do
  let s ← s.openHere? .blockMappingStart
  let s ← s.dropKey?
  some ({ s with keyAllowed := !s.inFlow }.emitMark .key)

def value? (s : Lexer) : Option Lexer :=
  match s.key with
  | some k =>
    let s := { s with tokens := s.tokens.insertIdxIfInBounds k.place .key }
    let s := s.openBlock .blockMappingStart k.start.column k.place
    some ({ s with key := none, keyAllowed := false }.emitMark .value)
  | none => do
    let s ← s.openHere? .blockMappingStart
    some ({ s with keyAllowed := !s.inFlow }.emitMark .value)

def name? (token : String → Token) (s : Lexer) : Option Lexer := do
  let s ← s.saveKey?
  let name := (s.cursor.rest.drop 1).takeWhile isNameChar
  let c := s.cursor.skip (1 + name.length)
  if name.isEmpty then none
  else if endsWord c.rest || c.rest.head?.any "?:,]\x7d%@\x60".toList.contains then
    some (s.emit (token (String.ofList name)) c)
  else none

def tag? (s : Lexer) : Option Lexer := do
  let s ← s.saveKey?
  let (found, rest) ← Tag.scan? s.cursor.rest
  if endsWord rest || (s.inFlow && rest.head? = some ',') then
    some (s.emit (.tag found) (s.cursor.upTo rest))
  else none

def plain? (fuel : Nat) (s : Lexer) : Option Lexer := do
  let s ← s.saveKey?
  let (text, broken, c) ← Plain.scan? s.inFlow s.leastColumn fuel s.cursor
  some ({ s with keyAllowed := broken }.emit (.scalar .plain (String.ofList text)) c)

def quoted? (q : Quote) (fuel : Nat) (s : Lexer) : Option Lexer := do
  let s ← s.saveKey?
  let (text, c) ← q.scan? fuel s.cursor
  some (s.emit (.scalar .quoted (String.ofList text)) c)

def blockText? (folded : Bool) (fuel : Nat) (s : Lexer) : Option Lexer := do
  let s ← s.dropKey?
  let (text, c) ← BlockText.scan? folded s.leastColumn fuel s.cursor
  let style := if folded then Style.folded else Style.literal
  some ({ s with keyAllowed := true }.emit (.scalar style (String.ofList text)) c)

def next? (fuel : Nat) (s : Lexer) : Option Lexer :=
  let c := s.cursor
  if c.column = 0 && c.rest.head? = some '%' then s.directive?
  else if c.atMarkerOf '-' then s.marker? .documentStart
  else if c.atMarkerOf '.' then s.marker? .documentEnd
  else
    match c.rest with
    | '[' :: _ => s.openFlow? .flowSequenceStart
    | '\x7b' :: _ => s.openFlow? .flowMappingStart
    | ']' :: _ => s.closeFlow? .flowSequenceEnd
    | '\x7d' :: _ => s.closeFlow? .flowMappingEnd
    | ',' :: _ => s.separator?
    | '-' :: rest => if endsWord rest then s.item? else s.plain? fuel
    | '?' :: rest => if s.inFlow || endsWord rest then s.explicitKey? else s.plain? fuel
    | ':' :: rest => if s.inFlow || endsWord rest then s.value? else s.plain? fuel
    | '*' :: _ => s.name? .reference
    | '&' :: _ => s.name? .anchor
    | '!' :: _ => s.tag?
    | '\x27' :: _ => s.quoted? .single fuel
    | '\x22' :: _ => s.quoted? .double fuel
    | '|' :: _ => if s.inFlow then none else s.blockText? false fuel
    | '>' :: _ => if s.inFlow then none else s.blockText? true fuel
    | d :: _ => if isGap d || "#%@\x60".toList.contains d then none else s.plain? fuel
    | [] => none

def run? : Nat → Lexer → Option Lexer
  | 0, _ => none
  | fuel + 1, s => do
    let s ← s.settle? (fuel + 1)
    if s.cursor.rest.isEmpty then s.leave?
    else
      let s ← s.next? (fuel + 1)
      run? fuel s

end Lexer

def Token.scan? (cs : List Char) : Option (List Token) := do
  let s ← Lexer.run? (cs.length + 1) { cursor := { rest := cs } }
  some s.tokens.toList

end BehaviorTree.Yaml

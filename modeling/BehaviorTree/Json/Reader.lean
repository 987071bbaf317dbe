import BehaviorTree.Json
import BehaviorTree.Text

/-!
Reading one JSON value from a text. The readers take the remaining characters and
return what is left; `fuel` is over twice the length of the text, and of two steps of the
recursion at least one consumes a character.
-/
namespace BehaviorTree.Json.Reader

def isBlank (c : Char) : Bool := c = ' ' || c = '\n' || c = '\t' || c = '\r'

def skipBlank (cs : List Char) : List Char := cs.dropWhile isBlank

/-- A code unit, or a surrogate pair as one character; a surrogate alone is refused. -/
def codePoint? (unit : Nat) (rest : List Char) : Option (Char × List Char) :=
  if unit < 0xD800 ∨ 0xE000 ≤ unit then some (Char.ofNat unit, rest)
  else if unit < 0xDC00 then
    match rest with
    | '\\' :: 'u' :: a :: b :: c :: d :: rest => do
      let low ← Text.numeral? 16 [a, b, c, d]
      if 0xDC00 ≤ low ∧ low < 0xE000 then
        some (Char.ofNat (0x10000 + (unit - 0xD800) * 0x400 + (low - 0xDC00)), rest)
      else none
    | _ => none
  else none

def short? : Char → Option Char
  | '"' => some '"'
  | '\\' => some '\\'
  | '/' => some '/'
  | 'b' => some '\x08'
  | 'f' => some '\x0c'
  | 'n' => some '\n'
  | 'r' => some '\r'
  | 't' => some '\t'
  | _ => none

def string : Nat → List Char → List Char → Option (String × List Char)
  | 0, _, _ => none
  | fuel + 1, seen, cs =>
    match cs with
    | '"' :: rest => some (String.ofList seen.reverse, rest)
    | '\\' :: 'u' :: a :: b :: c :: d :: rest => do
      let (char, rest) ← codePoint? (← Text.numeral? 16 [a, b, c, d]) rest
      string fuel (char :: seen) rest
    | '\\' :: c :: rest => do string fuel ((← short? c) :: seen) rest
    | c :: rest => if c.toNat < 0x20 then none else string fuel (c :: seen) rest
    | [] => none

def digits (cs : List Char) : Nat × Nat × List Char :=
  let shown := cs.takeWhile Char.isDigit
  (shown.foldl (fun n c => n * 10 + (c.toNat - 48)) 0, shown.length, cs.dropWhile Char.isDigit)

def fraction? (cs : List Char) : Option (Option (Nat × Nat) × List Char) :=
  match cs with
  | '.' :: rest =>
    match digits rest with
    | (_, 0, _) => none
    | (value, width, rest) => some (some (value, width), rest)
  | _ => some (none, cs)

def exponent? (cs : List Char) : Option (Option Int × List Char) :=
  match cs with
  | c :: rest =>
    if c = 'e' ∨ c = 'E' then
      let (sign, rest) : Int × List Char := match rest with
        | '-' :: rest => (-1, rest)
        | '+' :: rest => (1, rest)
        | rest => (1, rest)
      match digits rest with
      | (_, 0, _) => none
      | (value, _, rest) => some (some (sign * value), rest)
    else some (none, cs)
  | [] => some (none, cs)

/-- A number with neither fraction nor exponent is whole if it fits a word; minus zero
is floating. -/
def number (negative : Bool) (cs : List Char) : Option (Json × List Char) :=
  match digits cs with
  | (_, 0, _) => none
  | (value, width, rest) =>
    if cs.head? = some '0' ∧ 1 < width then none
    else do
      let (part, rest) ← fraction? rest
      let (scale, rest) ← exponent? rest
      let signed : Int := if negative then -value else value
      if part.isNone ∧ scale.isNone ∧ IsWord signed ∧ ¬(negative ∧ value = 0) then
        some (whole signed, rest)
      else
        let (value, width) := match part with
          | some (more, width) => (value * Nat.pow 10 width + more, width)
          | none => (value, 0)
        let b ← Binary64.ofDecimal? negative ⟨value, scale.getD 0 - width⟩
        some (float b, rest)

mutual

def value : Nat → List Char → Option (Json × List Char)
  | 0, _ => none
  | fuel + 1, cs =>
    match skipBlank cs with
    | 'n' :: 'u' :: 'l' :: 'l' :: rest => some (null, rest)
    | 't' :: 'r' :: 'u' :: 'e' :: rest => some (bool true, rest)
    | 'f' :: 'a' :: 'l' :: 's' :: 'e' :: rest => some (bool false, rest)
    | '"' :: rest => do
      let (s, rest) ← string fuel [] rest
      some (text s, rest)
    | '[' :: rest =>
      match skipBlank rest with
      | ']' :: rest => some (array [], rest)
      | rest => do
        let (found, rest) ← items fuel rest
        some (array found, rest)
    | '\x7b' :: rest =>
      match skipBlank rest with
      | '\x7d' :: rest => some (object [], rest)
      | rest => do
        let (found, rest) ← members fuel rest
        some (ofFields found, rest)
    | '-' :: rest => number true rest
    | rest => number false rest

def items : Nat → List Char → Option (List Json × List Char)
  | 0, _ => none
  | fuel + 1, cs => do
    let (first, rest) ← value fuel cs
    match skipBlank rest with
    | ']' :: rest => some ([first], rest)
    | ',' :: rest => do
      let (found, rest) ← items fuel rest
      some (first :: found, rest)
    | _ => none

def members : Nat → List Char → Option (List (String × Json) × List Char)
  | 0, _ => none
  | fuel + 1, cs =>
    match skipBlank cs with
    | '"' :: rest => do
      let (key, rest) ← string fuel [] rest
      match skipBlank rest with
      | ':' :: rest => do
        let (first, rest) ← value fuel rest
        match skipBlank rest with
        | '\x7d' :: rest => some ([(key, first)], rest)
        | ',' :: rest => do
          let (found, rest) ← members fuel rest
          some ((key, first) :: found, rest)
        | _ => none
      | _ => none
    | _ => none

end

end Reader

def read? (source : String) : Option Json :=
  match Reader.value (2 * source.length + 2) source.toList with
  | some (value, rest) => if (Reader.skipBlank rest).isEmpty then some value else none
  | none => none

end BehaviorTree.Json

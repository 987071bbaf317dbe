import BehaviorTree.Text
import BehaviorTree.Yaml.Scalar

/-!
Values of a mapping, of which only scalars are looked into, and the booleans and unsigned
words that a scalar may be read as.
-/
namespace BehaviorTree.Yaml

inductive Value where
  | scalar (content : Scalar)
  | collection
  deriving DecidableEq, Repr, Inhabited

namespace Value

def text? : Value → Option String
  | .scalar content => some content.text
  | .collection => none

/-- The text of a scalar that may stand for a value of the tag: an unquoted one whatever
its tag, or a literal one that is marked with it. -/
def plainText? (tag : String) : Value → Option String
  | .scalar content =>
    if content.style = .plain ∨ (content.style = .literal ∧ content.tag = some tag) then
      some content.text
    else none
  | .collection => none

def boolOfText? (text : String) : Option Bool :=
  if text = "true" ∨ text = "True" ∨ text = "TRUE" then some true
  else if text = "false" ∨ text = "False" ∨ text = "FALSE" then some false
  else none

def wordOfNat? (n : Nat) : Option UInt64 := if n < UInt64.size then some (UInt64.ofNat n) else none

/-- An unsigned word: decimal without a leading zero, or in another base after its mark. -/
def unsigned? : List Char → Option UInt64
  | '0' :: 'x' :: rest => (Text.numeral? 16 rest).bind wordOfNat?
  | '0' :: 'o' :: rest => (Text.numeral? 8 rest).bind wordOfNat?
  | '0' :: 'b' :: rest => (Text.numeral? 2 rest).bind wordOfNat?
  | ['0'] => some 0
  | '0' :: _ => none
  | cs => (Text.numeral? 10 cs).bind wordOfNat?

def wordOfText? (text : String) : Option UInt64 :=
  match text.toList with
  | '+' :: rest => unsigned? rest
  | cs => unsigned? cs

def bool? (v : Value) : Option Bool :=
  (v.plainText? "tag:yaml.org,2002:bool").bind boolOfText?

def word? (v : Value) : Option UInt64 :=
  (v.plainText? "tag:yaml.org,2002:int").bind wordOfText?

end Value
end BehaviorTree.Yaml

/-!
The characters that a text of YAML may hold, and the classes that its readers tell
apart. Before anything is read, carriage returns and next-line marks become line feeds;
the two other separators of lines stay, because a scalar keeps them as they are.
-/
namespace BehaviorTree.Yaml

def isAllowed (c : Char) : Bool :=
  let n := c.toNat
  n = 9 || n = 10 || n = 13 || (0x20 ≤ n && n ≤ 0x7E) || n = 0x85 ||
    (0xA0 ≤ n && n ≤ 0xFFFD) || 0x10000 ≤ n

def unifyBreaks : List Char → List Char
  | '\r' :: '\n' :: rest => '\n' :: unifyBreaks rest
  | c :: rest => (if c = '\r' || c = '\u0085' then '\n' else c) :: unifyBreaks rest
  | [] => []

def characters? (text : String) : Option (List Char) :=
  let cs := text.toList
  if cs.all isAllowed then some (unifyBreaks cs) else none

def isBreak (c : Char) : Bool := c = '\n' || c = '\u2028' || c = '\u2029'

def isSpace (c : Char) : Bool := c = ' ' || c = '\t'

def isGap (c : Char) : Bool := isSpace c || isBreak c

def endsWord (cs : List Char) : Bool := cs.head?.all isGap

def isFlowMark (c : Char) : Bool := [',', '[', ']', '\x7b', '\x7d'].contains c

def isNameChar (c : Char) : Bool := c.isAlphanum || c = '_' || c = '-'

/-- The characters of a tag besides escapes; `wide` adds those of flow sequences. -/
def isTagChar (wide : Bool) (c : Char) : Bool :=
  isNameChar c || ";/?:@&=+$.!~*\x27()".toList.contains c || (wide && ",[]".toList.contains c)

end BehaviorTree.Yaml

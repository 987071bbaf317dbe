import BehaviorTree.Yaml.Token

/-!
The nodes of a document, built from its tokens. An anchor names a node, and a reference
stands for a node named before. A text holds at most one document, and its directives
stand before an explicit start.
-/
namespace BehaviorTree.Yaml

inductive Node where
  | reference (name : String)
  | scalar (anchor : Option String) (content : Scalar)
  | sequence (anchor : Option String) (items : List Node)
  | mapping (anchor : Option String) (entries : List (Node × Node))
  deriving Repr, Inhabited

namespace Node

def empty : Node := scalar none {}

abbrev Handles := List (String × String)

def Handles.standard : Handles := [("!", "!"), ("!!", "tag:yaml.org,2002:")]

def Handles.resolve? (handles : Handles) (t : Tag) : Option String :=
  if t.handle.isEmpty then some t.name
  else (handles.lookup t.handle).map (· ++ t.name)

structure Marks where
  anchor : Option String := none
  tag : Option String := none
  deriving DecidableEq

def marks? (handles : Handles) : List Token → Option (Marks × List Token)
  | .anchor name :: .tag t :: rest | .tag t :: .anchor name :: rest => do
    let tag ← handles.resolve? t
    some (⟨some name, some tag⟩, rest)
  | .anchor name :: rest => some (⟨some name, none⟩, rest)
  | .tag t :: rest => do
    let tag ← handles.resolve? t
    some (⟨none, some tag⟩, rest)
  | rest => some ({}, rest)

def ofScalar (m : Marks) (style : Style) (text : String) : Node :=
  scalar m.anchor { style, tag := m.tag.filter (· ≠ "!"), text }

/-- Where a node stands: as a part of a flow collection, as an item of a block sequence or
the root, or as a part of a block mapping, where the items of a sequence may stand without
a deeper indentation. -/
inductive Position where
  | flow
  | item
  | entry
  deriving DecidableEq, Repr

def separated? (first : Bool) (tokens : List Token) : Option (List Token) :=
  if first then some tokens
  else
    match tokens with
    | .flowSeparator :: rest => some rest
    | _ => none

mutual

def read? (handles : Handles) : Nat → Position → List Token → Option (Node × List Token)
  | 0, _, _ => none
  | _ + 1, _, .reference name :: rest => some (reference name, rest)
  | fuel + 1, position, tokens => do
    let (m, rest) ← marks? handles tokens
    match rest, position with
    | .blockItem :: _, .entry => do
      let (items, rest) ← looseItems? handles fuel rest
      some (sequence m.anchor items, rest)
    | .scalar style text :: rest, _ => some (ofScalar m style text, rest)
    | .flowSequenceStart :: rest, _ => do
      let (items, rest) ← flowItems? handles fuel true rest
      some (sequence m.anchor items, rest)
    | .flowMappingStart :: rest, _ => do
      let (entries, rest) ← flowEntries? handles fuel true rest
      some (mapping m.anchor entries, rest)
    | .blockSequenceStart :: rest, .item | .blockSequenceStart :: rest, .entry => do
      let (items, rest) ← blockItems? handles fuel rest
      some (sequence m.anchor items, rest)
    | .blockMappingStart :: rest, .item | .blockMappingStart :: rest, .entry => do
      let (entries, rest) ← blockEntries? handles fuel rest
      some (mapping m.anchor entries, rest)
    | rest, _ => if m = {} then none else some (ofScalar m .plain "", rest)

def readUnless? (handles : Handles) : Nat → List Token → Position → List Token →
    Option (Node × List Token)
  | 0, _, _, _ => none
  | fuel + 1, stops, position, tokens =>
    if tokens.head?.any stops.contains then some (empty, tokens)
    else read? handles fuel position tokens

def valueUnless? (handles : Handles) : Nat → List Token → Position → List Token →
    Option (Node × List Token)
  | 0, _, _, _ => none
  | fuel + 1, stops, position, .value :: rest => readUnless? handles fuel stops position rest
  | _, _, _, rest => some (empty, rest)

def blockItems? (handles : Handles) : Nat → List Token → Option (List Node × List Token)
  | fuel + 1, .blockItem :: rest => do
    let (item, rest) ← readUnless? handles fuel [.blockItem, .blockEnd] .item rest
    let (items, rest) ← blockItems? handles fuel rest
    some (item :: items, rest)
  | _, .blockEnd :: rest => some ([], rest)
  | _, _ => none

def looseItems? (handles : Handles) : Nat → List Token → Option (List Node × List Token)
  | 0, _ => none
  | fuel + 1, .blockItem :: rest => do
    let (item, rest) ← readUnless? handles fuel [.blockItem, .key, .value, .blockEnd] .item rest
    let (items, rest) ← looseItems? handles fuel rest
    some (item :: items, rest)
  | _, rest => some ([], rest)

def blockEntries? (handles : Handles) : Nat → List Token →
    Option (List (Node × Node) × List Token)
  | fuel + 1, .key :: rest => do
    let stops := [.key, .value, .blockEnd]
    let (key, rest) ← readUnless? handles fuel stops .entry rest
    let (value, rest) ← valueUnless? handles fuel stops .entry rest
    let (entries, rest) ← blockEntries? handles fuel rest
    some ((key, value) :: entries, rest)
  | _, .blockEnd :: rest => some ([], rest)
  | _, _ => none

/-- The items of a flow sequence and its end. An item announced as a key is a mapping of
one entry. -/
def flowItems? (handles : Handles) : Nat → Bool → List Token →
    Option (List Node × List Token)
  | 0, _, _ => none
  | _, _, .flowSequenceEnd :: rest => some ([], rest)
  | fuel + 1, first, tokens => do
    match ← separated? first tokens with
    | .flowSequenceEnd :: rest => some ([], rest)
    | .key :: rest => do
      let (entry, rest) ← pair? handles fuel rest
      let (items, rest) ← flowItems? handles fuel false rest
      some (mapping none [entry] :: items, rest)
    | rest => do
      let (item, rest) ← read? handles fuel .flow rest
      let (items, rest) ← flowItems? handles fuel false rest
      some (item :: items, rest)

/-- An entry that is an item of a flow sequence. The token that shows that its key is left
out is passed over with it. -/
def pair? (handles : Handles) : Nat → List Token → Option ((Node × Node) × List Token)
  | 0, _ => none
  | fuel + 1, tokens => do
    let stops := [.flowSeparator, .flowSequenceEnd]
    let (key, rest) ←
      if tokens.head?.any (.value :: stops).contains then some (empty, tokens.drop 1)
      else read? handles fuel .flow tokens
    let (value, rest) ← valueUnless? handles fuel stops .flow rest
    some ((key, value), rest)

def flowEntries? (handles : Handles) : Nat → Bool → List Token →
    Option (List (Node × Node) × List Token)
  | 0, _, _ => none
  | _, _, .flowMappingEnd :: rest => some ([], rest)
  | fuel + 1, first, tokens => do
    match ← separated? first tokens with
    | .flowMappingEnd :: rest => some ([], rest)
    | .key :: rest => do
      let stops := [.flowSeparator, .flowMappingEnd]
      let (key, rest) ← readUnless? handles fuel (.value :: stops) .flow rest
      let (value, rest) ← valueUnless? handles fuel stops .flow rest
      let (entries, rest) ← flowEntries? handles fuel false rest
      some ((key, value) :: entries, rest)
    | rest => do
      let (key, rest) ← read? handles fuel .flow rest
      let (entries, rest) ← flowEntries? handles fuel false rest
      some ((key, empty) :: entries, rest)

end

def directives? (versioned : Bool) (handles : Handles) :
    List Token → Option (Handles × List Token)
  | .directive (.version major minor) :: rest =>
    if versioned || major ≠ 1 || (minor ≠ 1 && minor ≠ 2) then none
    else directives? true handles rest
  | .directive (.handle name meaning) :: rest =>
    if (handles.lookup name).isSome then none
    else directives? versioned ((name, meaning) :: handles) rest
  | rest => some (handles ++ Handles.standard, rest)

/-- The root of the only document; the inner `none` is a text without a document. -/
def ofTokens? (tokens : List Token) : Option (Option Node) :=
  if tokens.isEmpty then some none
  else do
    let (handles, rest) ← directives? false [] tokens
    let fuel := 4 * tokens.length + 4
    let (root, rest) ← match rest with
      | [.documentStart] => some (empty, [])
      | .documentStart :: rest => readUnless? handles fuel [.documentEnd] .item rest
      | _ => if rest.length = tokens.length then read? handles fuel .item rest else none
    if rest.all (· = .documentEnd) then some (some root) else none

end Node
end BehaviorTree.Yaml

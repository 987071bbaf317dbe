import BehaviorTree.Yaml.Directive
import BehaviorTree.Yaml.Scalar

/-!
The tokens of a text. Indentation is made explicit: a block collection has a token where
it starts and one where it ends, and every key is announced by a token before it.
-/
namespace BehaviorTree.Yaml

inductive Token where
  | directive (found : Directive)
  | documentStart
  | documentEnd
  | blockSequenceStart
  | blockMappingStart
  | blockEnd
  | flowSequenceStart
  | flowSequenceEnd
  | flowMappingStart
  | flowMappingEnd
  | blockItem
  | flowSeparator
  | key
  | value
  | reference (name : String)
  | anchor (name : String)
  | tag (found : Tag)
  | scalar (style : Style) (text : String)
  deriving DecidableEq, Repr, Inhabited

end BehaviorTree.Yaml

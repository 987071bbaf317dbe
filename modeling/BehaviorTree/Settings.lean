import BehaviorTree.Evaluation.Activation
import BehaviorTree.Text
import BehaviorTree.Yaml.Entry

/-!
Settings of a host, read field by field from the entries of a mapping: a field that is
absent keeps its default, a known key stands at most once and with a value of its type,
and other keys are ignored. Blank text is the same as no entries. Settings are written as
one line for each field.
-/
namespace BehaviorTree

structure Settings where
  strictArity : Bool := true
  maxDepth : UInt64 := defaultMaxDepth
  registerNatives : Bool := true
  deriving DecidableEq, Repr, Inhabited

inductive SettingsError where
  | unreadableText
  | unreadableFile (path : String)
  | badFile (path : String)
  deriving DecidableEq, Repr

def SettingsError.message : SettingsError → String
  | unreadableText => "Failed to parse runtime config"
  | unreadableFile path => "Failed to read runtime config " ++ path
  | badFile path => "Failed to load runtime config " ++ path

namespace Settings

/-- The value of a field: its default if no entry has the key, and none if two have. -/
def field? {α : Type} (key : String) (read : Yaml.Value → Option α) (fallback : α)
    (entries : List Yaml.Entry) : Option α :=
  match entries.filter fun e => e.1 = key with
  | [] => some fallback
  | [entry] => read entry.2
  | _ => none

def ofEntries? (entries : List Yaml.Entry) : Option Settings := do
  let base : Settings := {}
  let strictArity ← field? "strict_arity" Yaml.Value.bool? base.strictArity entries
  let maxDepth ← field? "max_depth" Yaml.Value.word? base.maxDepth entries
  let registerNatives ← field? "register_natives" Yaml.Value.bool? base.registerNatives entries
  some { strictArity, maxDepth, registerNatives }

def ofText (text : String) : Except SettingsError Settings :=
  if Text.isBlankText text then .ok {}
  else
    match (Yaml.entries? text).bind ofEntries? with
    | some settings => .ok settings
    | none => .error .unreadableText

def ofFile (path : String) (bytes : Option ByteArray) : Except SettingsError Settings :=
  match bytes.bind String.fromUTF8? with
  | none => .error (.unreadableFile path)
  | some text =>
    match ofText text with
    | .ok settings => .ok settings
    | .error _ => .error (.badFile path)

def lines (s : Settings) : List Yaml.Line :=
  [⟨"strict_arity", toString s.strictArity⟩, ⟨"max_depth", toString s.maxDepth.toNat⟩,
    ⟨"register_natives", toString s.registerNatives⟩]

def toText (s : Settings) : String := Yaml.writeLines s.lines

end Settings
end BehaviorTree

import BehaviorTree.Json
import BehaviorTree.Settings
import BehaviorTree.Trace.Event

/-!
JSON forms of the plain data: names for the enumerations, numbers and text for the
identifiers, objects for the records. These are the forms as values, so the fields of a
record stand in the order of their keys, and not as the record declares them. Readers
accept a little more than writers produce: an enumeration as an object of one null field,
and a record as the array of its fields, in declared order. Unknown fields are ignored.
-/
namespace BehaviorTree

@[simp] theorem Json.wordOfWord (n : UInt64) : (Json.ofWord n).word? = some n := by
  have bound : (n.toNat : Int) < 18446744073709551616 := by
    have := n.toNat_lt
    omega
  simp [Json.ofWord, Json.word?, bound]

def Json.variant? : Json → Option String
  | .text name => some name
  | .object [(name, .null)] => some name
  | _ => none

namespace Status

def toJson (s : Status) : Json := .text s.name

def ofJson? (j : Json) : Option Status := j.variant?.bind ofName?

@[simp] theorem ofToJson (s : Status) : ofJson? s.toJson = some s := by cases s <;> rfl

end Status

namespace Kind

def toJson (k : Kind) : Json := .text k.name

def ofJson? (j : Json) : Option Kind := j.variant?.bind ofName?

@[simp] theorem ofToJson (k : Kind) : ofJson? k.toJson = some k := by cases k <;> rfl

end Kind

namespace Step

def key : Step → String
  | enter => "Enter"
  | opening => "Open"
  | tick => "Tick"
  | close => "Close"
  | exit => "Exit"

def toJson (s : Step) : Json := .text s.key

def ofJson? (j : Json) : Option Step := j.variant?.bind fun name => all.find? (·.key == name)

@[simp] theorem ofToJson (s : Step) : ofJson? s.toJson = some s := by cases s <;> rfl

end Step

namespace Trace.Phase

def toJson (p : Phase) : Json := .text p.name

def ofJson? (j : Json) : Option Phase := j.variant?.bind ofName?

@[simp] theorem ofToJson (p : Phase) : ofJson? p.toJson = some p := by cases p <;> rfl

end Trace.Phase

namespace SubjectId

def toJson (s : SubjectId) : Json := .ofWord s.number

def ofJson? (j : Json) : Option SubjectId := j.word?.map mk

@[simp] theorem ofToJson (s : SubjectId) : ofJson? s.toJson = some s := by
  simp [ofJson?, toJson]

end SubjectId

namespace NodeId

def toJson (n : NodeId) : Json := .ofWord n.number

def ofJson? (j : Json) : Option NodeId := j.word?.map mk

@[simp] theorem ofToJson (n : NodeId) : ofJson? n.toJson = some n := by
  simp [ofJson?, toJson]

end NodeId

namespace TreeId

def toJson (t : TreeId) : Json := .text t.text

def ofJson? : Json → Option TreeId
  | .text text => some ⟨text⟩
  | _ => none

@[simp] theorem ofToJson (t : TreeId) : ofJson? t.toJson = some t := rfl

end TreeId

namespace Trace.Event

def toJson (e : Event) : Json :=
  .object
    [("node", e.node.toJson), ("phase", e.phase.toJson),
      ("status", .ofOption Status.toJson e.status), ("subject", e.subject.toJson)]

def status? : Json → Option (Option Status)
  | .null => some none
  | j => (Status.ofJson? j).map some

def ofFields? (subject node phase status : Json) : Option Event := do
  let subject ← SubjectId.ofJson? subject
  let node ← NodeId.ofJson? node
  let phase ← Phase.ofJson? phase
  let status ← status? status
  some { subject, node, phase, status }

def ofObject? (j : Json) : Option Event :=
  match j.field? "subject", j.field? "node", j.field? "phase" with
  | some subject, some node, some phase =>
    ofFields? subject node phase ((j.field? "status").getD .null)
  | _, _, _ => none

def ofJson? : Json → Option Event
  | .array [subject, node, phase, status] => ofFields? subject node phase status
  | .object fields => ofObject? (.object fields)
  | _ => none

theorem ofFieldsToJson (e : Event) :
    ofFields? e.subject.toJson e.node.toJson e.phase.toJson (.ofOption Status.toJson e.status) =
      some e := by
  have optional : status? (.ofOption Status.toJson e.status) = some e.status := by
    cases e.status with
    | none => rfl
    | some s => cases s <;> rfl
  unfold ofFields?
  rw [SubjectId.ofToJson, NodeId.ofToJson, Phase.ofToJson, optional]
  rfl

theorem ofToJson (e : Event) : ofJson? e.toJson = some e := by
  have subject : e.toJson.field? "subject" = some e.subject.toJson := rfl
  have node : e.toJson.field? "node" = some e.node.toJson := rfl
  have phase : e.toJson.field? "phase" = some e.phase.toJson := rfl
  have status : e.toJson.field? "status" = some (.ofOption Status.toJson e.status) := rfl
  change ofObject? e.toJson = some e
  unfold ofObject?
  rw [subject, node, phase, status]
  exact ofFieldsToJson e

end Trace.Event

namespace Trace.Log

def toJson (log : Log) : Json := .object [("events", .ofList Event.toJson log.events)]

def ofEvents? : Json → Option Log
  | .array items => (items.mapM Event.ofJson?).map ofEvents
  | _ => none

def ofJson? : Json → Option Log
  | .array [events] => ofEvents? events
  | .object fields => ((Json.object fields).field? "events").bind ofEvents?
  | _ => none

end Trace.Log

namespace Settings

def toJson (s : Settings) : Json :=
  .object
    [("max_depth", .ofWord s.maxDepth), ("register_natives", .bool s.registerNatives),
      ("strict_arity", .bool s.strictArity)]

def bool? : Json → Option Bool
  | .bool b => some b
  | _ => none

def fieldOfJson? {α : Type} (read : Json → Option α) (fallback : α) : Option Json → Option α
  | none => some fallback
  | some j => read j

def ofFields? (strictArity maxDepth registerNatives : Option Json) : Option Settings := do
  let base : Settings := {}
  let strictArity ← fieldOfJson? bool? base.strictArity strictArity
  let maxDepth ← fieldOfJson? Json.word? base.maxDepth maxDepth
  let registerNatives ← fieldOfJson? bool? base.registerNatives registerNatives
  some { strictArity, maxDepth, registerNatives }

/-- Missing fields keep their defaults; in an array the last ones may be missing. -/
def ofJson? : Json → Option Settings
  | .object fields =>
    let j := Json.object fields
    ofFields? (j.field? "strict_arity") (j.field? "max_depth") (j.field? "register_natives")
  | .array items =>
    if items.length ≤ 3 then ofFields? items[0]? items[1]? items[2]? else none
  | _ => none

end Settings
end BehaviorTree

import BehaviorTree.Identifier
import BehaviorTree.Status

/-!
Trace events, and the log that collects them. The status of an event is the effective
one on `tick`, the answer to the fault on `fault`, and the result so far on `exit`.
-/
namespace BehaviorTree.Trace

inductive Phase where
  | enter
  | opening
  | tick
  | close
  | exit
  | fault
  | invalid
  deriving DecidableEq, Repr, Inhabited

namespace Phase

def all : List Phase := [enter, opening, tick, close, exit, fault, invalid]

def name : Phase → String
  | enter => "Enter"
  | opening => "Open"
  | tick => "Tick"
  | close => "Close"
  | exit => "Exit"
  | fault => "Fault"
  | invalid => "Invalid"

def ofName? (text : String) : Option Phase := all.find? (·.name == text)

theorem ofNameIff {text : String} {p : Phase} :
    ofName? text = some p ↔ text = p.name := by
  constructor
  · intro found
    unfold ofName? at found
    exact (beq_iff_eq.1 (List.find?_some found :)).symm
  · rintro rfl
    cases p <;> rfl

end Phase

structure Event where
  subject : SubjectId
  node : NodeId
  phase : Phase
  status : Option Status := none
  deriving DecidableEq, Repr

/-- Events in the order they came; kept newest first, so that each takes one step. -/
structure Log where
  newestFirst : List Event := []
  deriving DecidableEq, Repr, Inhabited

namespace Log

def events (log : Log) : List Event := log.newestFirst.reverse

def ofEvents (events : List Event) : Log := ⟨events.reverse⟩

def size (log : Log) : Nat := log.newestFirst.length

def push (log : Log) (event : Event) : Log := ⟨event :: log.newestFirst⟩

def phases (log : Log) (node : NodeId) : List Phase :=
  (log.events.filter fun e => e.node = node).map Event.phase

def count (log : Log) (node : NodeId) (phase : Phase) : Nat :=
  log.newestFirst.countP fun e => e.node = node && e.phase = phase

@[simp] theorem eventsPush (log : Log) (event : Event) :
    (log.push event).events = log.events ++ [event] := by
  simp [events, push]

@[simp] theorem eventsOfEvents (events : List Event) : (ofEvents events).events = events := by
  simp [Log.events, ofEvents]

theorem extEvents {a b : Log} (h : a.events = b.events) : a = b := by
  cases a
  cases b
  simpa [events] using h

end Log

inductive Sink where
  | recording
  | discarding
  deriving DecidableEq, Repr, Inhabited

end BehaviorTree.Trace

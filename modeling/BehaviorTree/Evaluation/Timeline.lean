import BehaviorTree.Behavior

/-!
What happens during an evaluation, in time order. An activation of a node is bracketed
by `began` and `ended`; a callback call by `called`, with the stage it was given, and
`returned`. Events stand here as they were sent, whether or not a slot took them.

An evaluation hands each occurrence to an observer, which keeps of it what it likes: the
timeline keeps all, a log only the events that a recording sink receives.
-/
namespace BehaviorTree

inductive Return where
  | completed
  | answered (outcome : Outcome)
  | failed (error : CallbackError)
  deriving DecidableEq, Repr

namespace Return

def ofResult : Except CallbackError Unit → Return
  | .ok () => completed
  | .error e => failed e

def ofOutcome : Except CallbackError Outcome → Return
  | .ok outcome => answered outcome
  | .error e => failed e

end Return

inductive Responder where
  | handler
  | hook
  | nobody
  deriving DecidableEq, Repr

inductive Occurrence (W : Type) where
  | equipped (stage : Stage W)
  | began (node : NodeId)
  | called (node : NodeId) (step : Step) (stage : Stage W)
  | returned (node : NodeId) (step : Step) (result : Return)
  /-- An event was sent, and recorded by a sink or not. -/
  | reported (event : Trace.Event) (recorded : Bool)
  | consulted (fault : Fault) (responder : Responder) (stage : Stage W)
  | contained (fault : Fault) (status : Status)
  | flagged (node : NodeId) (isOpen : Bool)
  | refused (node : NodeId)
  | absent (node : NodeId)
  | ended (node : NodeId) (status : Status)

/-- What is kept of the occurrences of an evaluation, as they come. -/
class Observer (W T : Type) where
  start : T
  see : T → Occurrence W → T

abbrev Timeline (W : Type) := List (Occurrence W)

namespace Timeline
variable {W : Type}

instance : Observer W (Timeline W) where
  start := []
  see t occurrence := t ++ [occurrence]

def record (t : Timeline W) : List Trace.Event :=
  t.filterMap fun
    | .reported event true => some event
    | _ => none

def seenBy {T : Type} [Observer W T] (t : Timeline W) (seen : T) : T :=
  t.foldl Observer.see seen

theorem seenByAppend {T : Type} [Observer W T] (a b : Timeline W) (seen : T) :
    (a ++ b).seenBy seen = b.seenBy (a.seenBy seen) := by
  simp [seenBy]

@[simp] theorem seenByTimeline (t seen : Timeline W) : t.seenBy seen = seen ++ t := by
  induction t generalizing seen with
  | nil => simp [seenBy]
  | cons o rest ih =>
    have := ih (seen ++ [o])
    simpa [seenBy, Observer.see] using this

end Timeline

instance {W : Type} : Observer W Trace.Log where
  start := {}
  see log
    | .reported event true => log.push event
    | _ => log

theorem Timeline.eventsSeenBy {W : Type} (t : Timeline W) (log : Trace.Log) :
    (t.seenBy log).events = log.events ++ t.record := by
  induction t generalizing log with
  | nil => simp [seenBy, record]
  | cons o rest ih =>
    have next := ih (Observer.see log o)
    simp only [seenBy, List.foldl_cons] at next ⊢
    rw [next]
    cases o with
    | reported event recorded => cases recorded <;> simp [Observer.see, record]
    | _ => simp [Observer.see, record]

end BehaviorTree

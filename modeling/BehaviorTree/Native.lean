import BehaviorTree.Behavior
import BehaviorTree.Json.Compact

/-!
The ten behaviors every host can start with. Composites are reactive: each tick begins
with the first child again. Repeaters evaluate their child at least once and at most
`maxLoop` times, which they read from their node's properties before the first child call.
-/
namespace BehaviorTree

inductive Native where
  | succeeder
  | failer
  | runner
  | error
  | sequence
  | priority
  | inverter
  | repeater
  | repeatUntilFailure
  | repeatUntilSuccess
  deriving DecidableEq, Repr, Inhabited

namespace Native
variable {W : Type}

def all : List Native :=
  [succeeder, failer, runner, error, sequence, priority, inverter, repeater,
    repeatUntilFailure, repeatUntilSuccess]

def name : Native → String
  | succeeder => "Succeeder"
  | failer => "Failer"
  | runner => "Runner"
  | error => "Error"
  | sequence => "Sequence"
  | priority => "Priority"
  | inverter => "Inverter"
  | repeater => "Repeater"
  | repeatUntilFailure => "RepeatUntilFailure"
  | repeatUntilSuccess => "RepeatUntilSuccess"

def ofName? (text : String) : Option Native := all.find? (·.name == text)

def kind : Native → Kind
  | succeeder | failer | runner | error => .leaf
  | sequence | priority => .composite
  | inverter | repeater | repeatUntilFailure | repeatUntilSuccess => .decorator

structure Progress where
  asked : Nat
  count : Nat
  deriving DecidableEq, Repr

/-- Evaluates the children in order up to the first that does not return `passing`;
`passing` itself if there is none. -/
def inOrder (passing : Status) : Tick W where
  Memory := Progress
  start view stage :=
    if 0 < view.childCount then .ask (.childAt 0) stage ⟨0, view.childCount⟩
    else .answer (.ok (.status passing)) stage
  resume progress reply stage :=
    match reply with
    | .error e => .answer (.error e) stage
    | .ok status =>
      let next := progress.asked + 1
      if status = passing ∧ next < progress.count then
        .ask (.childAt next) stage { progress with asked := next }
      else .answer (.ok (.status status)) stage

def inverting : Tick W where
  Memory := Unit
  start _ stage := .ask .child stage ()
  resume _ reply stage :=
    match reply with
    | .error e => .answer (.error e) stage
    | .ok status => .answer (.ok (.status status.invert)) stage

def maxLoopName : String := "maxLoop"

/-- The bound on evaluations of a repeater, `none` being no bound: one unless the property
says otherwise. Minus one is no bound, where that is allowed. -/
def maxLoop (properties : Properties) (unbounded : Bool) : Except CallbackError (Option UInt64) :=
  match properties.get? maxLoopName with
  | none => .ok (some 1)
  | some value =>
    match value.word?, value with
    | some n, _ => if 1 ≤ n then .ok (some n) else .error (refusal value)
    | none, .whole n => if n = -1 ∧ unbounded then .ok none else .error (refusal value)
    | none, _ => .error (refusal value)
where
  refusal (value : Json) : CallbackError :=
    let expected := if unbounded then "a positive integer or -1" else "a positive integer"
    .invalidProperty maxLoopName ("expected " ++ expected ++ ", got " ++ value.compact)

/-- The bound of a repeater and its evaluations so far. Without a bound the count may go round, and
nothing reads it. -/
structure Rounds where
  bound : Option UInt64
  done : UInt64
  deriving DecidableEq, Repr

def Rounds.another (rounds : Rounds) : Bool :=
  match rounds.bound with
  | none => true
  | some bound => rounds.done < bound

def repeating (unbounded : Bool) (again : Status → Bool) : Tick W where
  Memory := Rounds
  start view stage :=
    match maxLoop view.properties unbounded with
    | .error e => .answer (.error e) stage
    | .ok bound => .ask .child stage ⟨bound, 1⟩
  resume rounds reply stage :=
    match reply with
    | .error e => .answer (.error e) stage
    | .ok status =>
      if rounds.another && again status then
        .ask .child stage { rounds with done := rounds.done + 1 }
      else .answer (.ok (.status status)) stage

def isFinished : Status → Bool
  | .success | .failure => true
  | .running | .error => false

def tick : Native → Tick W
  | succeeder => .ofStatus .success
  | failer => .ofStatus .failure
  | runner => .ofStatus .running
  | error => .ofStatus .error
  | sequence => inOrder .success
  | priority => inOrder .failure
  | inverter => inverting
  | repeater => repeating false isFinished
  | repeatUntilFailure => repeating true (· == .success)
  | repeatUntilSuccess => repeating true (· == .failure)

def behavior (n : Native) : Behavior W := { tick := some n.tick }

def parameters : Native → Properties
  | repeater | repeatUntilFailure | repeatUntilSuccess => .ofList [(maxLoopName, .whole 1)]
  | _ => .empty

end Native
end BehaviorTree

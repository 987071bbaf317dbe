import BehaviorTree.Behavior

/-!
Ticks written as programs. A routine runs on a stage and is suspended at each request;
its continuation is the memory of the tick. Every routine makes finitely many requests.
-/
namespace BehaviorTree

inductive Routine (W α : Type) where
  | done (value : α) (stage : Stage W)
  | ask (request : Request) (stage : Stage W) (resume : Reply → Stage W → Routine W α)

namespace Routine
variable {W α β : Type}

def bind : Routine W α → (α → Stage W → Routine W β) → Routine W β
  | done value stage, next => next value stage
  | ask request stage resume, next =>
    ask request stage fun reply stage => (resume reply stage).bind next

def move : Routine W (Except CallbackError Outcome) →
    Move W (Reply → Stage W → Routine W (Except CallbackError Outcome))
  | done result stage => .answer result stage
  | ask request stage resume => .ask request stage resume

/-- Runs a routine where there is no node to ask: every request fails. -/
def alone : Routine W α → α × Stage W
  | done value stage => (value, stage)
  | ask _ stage resume => (resume (.error (.missingChild 0 0)) stage).alone

end Routine

def Tick.ofRoutine {W : Type} (start : View → Stage W → Routine W (Except CallbackError Outcome)) :
    Tick W where
  Memory := Reply → Stage W → Routine W (Except CallbackError Outcome)
  start view stage := (start view stage).move
  resume memory reply stage := (memory reply stage).move

def Staged (W α : Type) := Stage W → Routine W α

namespace Staged
variable {W : Type}

instance : Monad (Staged W) where
  pure a := fun stage => .done a stage
  bind x f := fun stage => (x stage).bind f

def stage : Staged W (Stage W) := fun stage => .done stage stage

def modify (f : Stage W → Stage W) : Staged W Unit := fun stage => .done () (f stage)

def request (r : Request) : Staged W Reply := fun stage => .ask r stage .done

end Staged
end BehaviorTree

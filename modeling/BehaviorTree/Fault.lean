import BehaviorTree.Identifier
import BehaviorTree.Kind

/-!
Errors of callbacks, and faults: an error with the node and the step it was raised in.
-/
namespace BehaviorTree

inductive Step where
  | enter
  | opening
  | tick
  | close
  | exit
  deriving DecidableEq, Repr, Inhabited, Hashable

namespace Step

def all : List Step := [enter, opening, tick, close, exit]

def name : Step → String
  | enter => "onEnter"
  | opening => "onOpen"
  | tick => "tick"
  | close => "onClose"
  | exit => "onExit"

end Step

inductive Surface where
  | single
  | indexed
  deriving DecidableEq, Repr

def Surface.name : Surface → String
  | single => "child()"
  | indexed => "children"

inductive CallbackError where
  | message (text : String)
  | noChildSurface (kind : Kind) (surface : Surface)
  | missingChild (index count : Nat)
  | invalidProperty (name reason : String)
  | missingTick
  | slotMismatch (key : UInt64) (stored requested : String)
  | other (text : String)
  deriving DecidableEq, Repr

def mismatchMessage (key : UInt64) (stored requested : String) : String :=
  s!"toolbox slot {key} holds `" ++ stored ++ "`, not `" ++ requested ++ "`"

namespace CallbackError

def display : CallbackError → String
  | message text => text
  | noChildSurface kind surface =>
    kind.name ++ " node has no " ++ surface.name ++ " evaluation surface"
  | missingChild index count => s!"child #{index} does not exist (node has {count} children)"
  | invalidProperty name reason => "invalid property `" ++ name ++ "`: " ++ reason
  | missingTick => "behavior has no tick implementation"
  | slotMismatch key stored requested => mismatchMessage key stored requested
  | other text => text

def label : CallbackError → String
  | message _ => "Message"
  | noChildSurface _ _ => "NoChildSurface"
  | missingChild _ _ => "MissingChild"
  | invalidProperty _ _ => "InvalidProperty"
  | missingTick => "MissingTick"
  | slotMismatch _ _ _ => "Extension"
  | other _ => "Other"

end CallbackError

structure Fault where
  node : NodeId
  step : Step
  error : CallbackError
  deriving DecidableEq, Repr

def Fault.display (f : Fault) : String :=
  f.step.name ++ " of " ++ f.node.display ++ " failed: " ++ f.error.display

end BehaviorTree

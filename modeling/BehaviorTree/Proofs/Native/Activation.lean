import BehaviorTree.Proofs.Evaluation.Pieces
import BehaviorTree.Proofs.Native.Policy

/-! An activation of a node that carries a native behavior. Its other callbacks do nothing, so the
only step that can fail is the tick, and only for a child that is not there or a property that is
refused. What an activation shows, its children apart, is its own. -/
namespace BehaviorTree

variable {W : Type}

def Occurrence.Smooth (id : NodeId) : Occurrence W → Prop
  | .called node _ _ | .flagged node _ => node = id
  | .returned node _ result => node = id ∧ ∀ e, result ≠ .failed e
  | .reported event _ => event.node = id ∧ event.phase ≠ .fault ∧ event.phase ≠ .invalid
  | _ => False

theorem Occurrence.Smooth.inside {id} {o : Occurrence W} (smooth : o.Smooth id) : o.Inside id := by
  cases o with
  | called | flagged => exact ⟨congrArg some smooth, fun bounds => bounds⟩
  | returned | reported => exact ⟨congrArg some smooth.1, fun bounds => bounds⟩
  | _ => exact smooth.elim

def Standing.hook (s : Standing W) : Option (Hook W) := s.stage.toolbox.hook

namespace Derivation
open Native

/- The activation of a native node, from the tick outwards. -/
inductive Played (scene : Scene W) (evaluated : Judgement W) (node : Node W) (policy : Policy)
    (s : Standing W) : Timeline W → Status → Prop where
  | answers {before talk after ready told visits status} (hook : ready.hook = s.hook)
      (inTurn : InTurn evaluated ready visits talk told)
      (decides : policy.Decides node visits (.ok status))
      (smooth : ∀ o ∈ before ++ after, o.Smooth node.id) :
      Played scene evaluated node policy s
        ([.began node.id] ++ before ++ [.called node.id .tick ready.stage] ++ talk ++ after ++
          [.ended node.id status]) status
  | fails {before talk after ready told visits e} (hook : ready.hook = s.hook)
      (inTurn : InTurn evaluated ready visits talk told)
      (decides : policy.Decides node visits (.error e))
      (inside : ∀ o ∈ before ++ after, o.Inside node.id) :
      Played scene evaluated node policy s
        ([.began node.id] ++ before ++ [.called node.id .tick ready.stage] ++ talk ++ after ++
          [.ended node.id (scene.respond ⟨node.id, .tick, e⟩ told.stage).1])
        (scene.respond ⟨node.id, .tick, e⟩ told.stage).1

variable {scene : Scene W} {evaluated : Judgement W} {node : Node W} {s last : Standing W}
  {t : Timeline W}

theorem Called.skipped {id step status result}
    (called : Called scene id step status .skip s t result last) :
    result = .ok () ∧ last.hook = s.hook ∧ ∀ o ∈ t, o.Smooth id := by
  have ordinary : step.phase ≠ .fault ∧ step.phase ≠ .invalid := by cases step <;> decide
  cases called with
  | intro came =>
    cases came
    refine ⟨rfl, rfl, ?_⟩
    simp [Occurrence.Smooth, Scene.event, Return.ofResult, ordinary]

theorem Opened.skipped {result} (skips : node.content.behavior.onOpen = .skip)
    (opened : Opened scene node s t result last) :
    result = .ok () ∧ last.hook = s.hook ∧ ∀ o ∈ t, o.Smooth node.id := by
  cases opened with
  | already => exact ⟨rfl, rfl, by simp⟩
  | called _ called => exact (skips ▸ called).skipped

theorem Opened.ready {t u : Timeline W} {status entering opening} {middle : Standing W}
    (enters : node.content.behavior.onEnter = .skip)
    (opens : node.content.behavior.onOpen = .skip)
    (entered : Called scene node.id .enter status node.content.behavior.onEnter s t entering middle)
    (opened : Opened scene node middle u opening last) :
    last.hook = s.hook ∧ ∀ o ∈ t ++ u, o.Smooth node.id := by
  obtain ⟨_, hook, first⟩ := (enters ▸ entered).skipped
  obtain ⟨_, hook', second⟩ := opened.skipped opens
  exact ⟨hook'.trans hook, List.forall_mem_append.mpr ⟨first, second⟩⟩

theorem Settled.skipped {status result} (skips : node.content.behavior.onClose = .skip)
    (settled : Settled scene node (.status status) s t result last) :
    result = .ok status ∧ last.hook = s.hook ∧ ∀ o ∈ t, o.Smooth node.id := by
  have judged {t middle} (judged : Judged scene node.id s (.status status) t middle) :
      middle.hook = s.hook ∧ ∀ o ∈ t, o.Smooth node.id := by
    cases judged
    exact ⟨rfl, by simp [Occurrence.Smooth, Scene.event]⟩
  have flagged (isOpen : Bool) : ∀ o ∈ [Occurrence.flagged (W := W) node.id isOpen],
      o.Smooth node.id := by
    simp [Occurrence.Smooth]
  cases settled with
  | stays told running =>
    obtain ⟨hook, smooth⟩ := judged told
    have running : status = .running := running
    exact ⟨running ▸ rfl, hook, List.forall_mem_append.mpr ⟨smooth, flagged true⟩⟩
  | closes told _ called =>
    obtain ⟨hook, smooth⟩ := judged told
    obtain ⟨_, hook', smooth'⟩ := (skips ▸ called).skipped
    have called := List.forall_mem_append.mpr ⟨smooth, smooth'⟩
    exact ⟨rfl, hook'.trans hook, List.forall_mem_append.mpr ⟨called, flagged false⟩⟩
  | closeFails told _ called =>
    cases (skips ▸ called).skipped.1

theorem Activated.played {native : Native} (carries : node.content.behavior = native.behavior)
    {status} (activated : Activated scene evaluated node s t status last) :
    Played scene evaluated node native.policy s t status := by
  have ticks : node.content.behavior.tick = some native.policy.tick := by
    rw [carries, ← tickOfPolicy]
    rfl
  have enters : node.content.behavior.onEnter = .skip := by rw [carries]; rfl
  have opens : node.content.behavior.onOpen = .skip := by rw [carries]; rfl
  have closes : node.content.behavior.onClose = .skip := by rw [carries]; rfl
  have exits : node.content.behavior.onExit = .skip := by rw [carries]; rfl
  cases activated with
  | exitFails _ _ exited => cases (exits ▸ exited).skipped.1
  | leaves stepped resolved exited =>
    obtain ⟨_, _, left⟩ := (exits ▸ exited).skipped
    cases stepped with
    | enterFails entered => cases (enters ▸ entered).skipped.1
    | openFails _ opened => cases (opened.skipped opens).1
    | @tickFails _ _ _ e _ _ _ entered opened ticked =>
      obtain ⟨hook, before⟩ := opened.ready enters opens entered
      obtain ⟨talk, visits, decision, inTurn, decides, same, rfl⟩ := ticked.decides ticks
      cases decision with
      | ok => cases same
      | error =>
        obtain rfl := Except.error.inj same
        cases resolved with
        | @faulty _ u _ _ answered =>
          have ticked := (insideCarries scene node).ticked s (.ofOutcome (.error e))
          have put := (insideCarries scene node).answered rfl answered
          have after := insideAppend (insideAppend ticked put) fun o mem => (left o mem).inside
          have played : Played scene evaluated node native.policy s _ _ :=
            .fails hook inTurn decides
              (insideAppend (fun o mem => (before o mem).inside) after)
          cases answered with
          | intro answer =>
            rw [answer] at played
            simpa using played
    | settles entered opened ticked settled =>
      obtain ⟨hook, before⟩ := opened.ready enters opens entered
      obtain ⟨talk, visits, decision, inTurn, decides, same, rfl⟩ := ticked.decides ticks
      cases decision with
      | error e => cases same
      | ok status =>
        cases same
        obtain ⟨rfl, _, third⟩ := settled.skipped closes
        cases resolved
        have ticked : ∀ o ∈ [Occurrence.returned (W := W) node.id .tick
            (.ofOutcome (.ok (.status status)))], o.Smooth node.id := by
          simp [Occurrence.Smooth, Return.ofOutcome]
        have closing := List.forall_mem_append.mpr ⟨ticked, third⟩
        have after := List.forall_mem_append.mpr ⟨closing, left⟩
        have played : Played scene evaluated node native.policy s _ _ :=
          .answers hook inTurn decides (List.forall_mem_append.mpr ⟨before, after⟩)
        simpa using played

end Derivation
end BehaviorTree

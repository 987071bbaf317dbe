import BehaviorTree.Proofs.Native.Activation
import BehaviorTree.Proofs.Session
import BehaviorTree.Proofs.Tree.Edits

/-! The status of a native node, foretold. Where the answer to a fault depends on the fault only,
it is a function of the tree and of the room that is left for the node: neither the nodes left
open nor the toolbox nor what was evaluated before have a part in it. -/
namespace BehaviorTree
open Relation

variable {W : Type}

namespace Native

def firstOther (passing : Status) (statuses : List Status) : Status :=
  (statuses.find? (· ≠ passing)).getD passing

def Policy.decide (node : Node W) (child : NodeId → Status) :
    Policy → Except CallbackError Status
  | constant status => .ok status
  | inOrder passing => .ok (firstOther passing (node.indexed.map child))
  | inverting => (node.locate .child).map fun id => (child id).invert
  | repeating unbounded _ =>
    match maxLoop node.content.properties unbounded with
    | .ok _ => (node.locate .child).map child
    | .error e => .error e

variable {node : Node W} {visits : List (NodeId × Status)} {child : NodeId → Status}

theorem UpTo.decided {passing : Status} {children status}
    (upTo : UpTo passing children visits status)
    (fixed : ∀ visit ∈ visits, visit.2 = child visit.1) :
    status = firstOther passing (children.map child) := by
  induction upTo with
  | nothing => rfl
  | stops other =>
    have same := fixed _ List.mem_cons_self
    dsimp only at same
    simp [firstOther, ← same, other]
  | passes _ ih =>
    obtain ⟨same, rest⟩ := List.forall_mem_cons.mp fixed
    rw [ih rest]
    dsimp only at same
    simp [firstOther, ← same]

theorem Repeats.decided {bound : Option UInt64} {again : Status → Bool} {id done status}
    (rounds : Repeats bound again id done visits status)
    (fixed : ∀ visit ∈ visits, visit.2 = child visit.1) : status = child id := by
  induction rounds with
  | stops => exact fixed _ List.mem_cons_self
  | goesOn _ _ ih => exact ih (List.forall_mem_cons.mp fixed).2

theorem Policy.Decides.decided {policy : Policy} {decision}
    (decides : policy.Decides node visits decision)
    (fixed : ∀ visit ∈ visits, visit.2 = child visit.1) : decision = policy.decide node child := by
  cases decides with
  | constant => rfl
  | inOrder upTo => exact congrArg _ (upTo.decided fixed)
  | inverts located status =>
    have same := fixed _ List.mem_cons_self
    dsimp only at same
    simp only [Policy.decide, located, same, Except.map]
  | invertsNone located => simp only [Policy.decide, located, Except.map]
  | repeats valid located rounds =>
    simp only [Policy.decide, valid, located, Except.map, rounds.decided fixed]
  | repeatsNone valid located => simp only [Policy.decide, valid, located, Except.map]
  | invalid refused => simp only [Policy.decide, refused]

end Native

namespace Tree

def Carries (tree : Tree W) (native : NodeId → Native) : Prop :=
  ∀ {id node}, tree.node? id = some node → node.content.behavior = (native id).behavior

def foretell (tree : Tree W) (native : NodeId → Native) (answer : Fault → Status) :
    Nat → NodeId → Status
  | 0, _ => .error
  | room + 1, id =>
    match tree.node? id with
    | none => .error
    | some node =>
      match (native id).policy.decide node (tree.foretell native answer room) with
      | .ok status => status
      | .error e => answer ⟨node.id, .tick, e⟩

def foretold (tree : Tree W) (native : NodeId → Native) (answer : Fault → Status)
    (maxDepth : UInt64) : Status :=
  match tree.root with
  | none => .error
  | some root => tree.foretell native answer (maxDepth.toNat + 1) root

end Tree

/- Faults get an answer that depends on nothing else: from the handler, from the hook of the
toolbox, or from nobody. -/
inductive Plan.Answers (plan : Plan W) (hook : Option (Hook W)) (answer : Fault → Status) :
    Prop where
  | handler {handler} (given : plan.handler = some handler)
      (fixed : ∀ fault stage, (handler fault stage).1 = answer fault)
  | hook {installed} (unhandled : plan.handler = none) (found : hook = some installed)
      (fixed : ∀ fault world, (installed fault world).1 = answer fault)
  | nobody (unhandled : plan.handler = none) (missing : hook = none)
      (fixed : answer = fun _ => .error)

theorem Plan.Answers.respond {scene : Scene W} {stage : Stage W} {answer : Fault → Status}
    (answers : scene.plan.Answers stage.toolbox.hook answer) (fault : Fault) :
    (scene.respond fault stage).1 = answer fault := by
  unfold Scene.respond
  cases answers with
  | handler given fixed =>
    rw [given]
    exact fixed fault stage
  | hook unhandled found fixed =>
    rw [unhandled, found]
    exact fixed fault stage.world
  | nobody unhandled missing fixed => rw [unhandled, missing, fixed]

def Plan.firstHook (plan : Plan W) (subject : SubjectId) (tree : TreeId) (world : W) :
    Option (Hook W) :=
  plan.factory.bind fun factory =>
    (factory subject { toolbox := { subject, tree }, world }).toolbox.hook

theorem Plan.equipHook (plan : Plan W) (subject : SubjectId) (tree : TreeId)
    (openNodes : OpenNodes) (world : W) :
    (plan.equip subject tree openNodes world : Moment W (Timeline W)).stage.toolbox.hook =
      plan.firstHook subject tree world := by
  unfold Plan.equip Plan.firstHook
  cases plan.factory <;> rfl

namespace Native

inductive Unstaged {Memory : Type} : (Stage W → Move W Memory) → Prop where
  | answers (result) : Unstaged fun stage => .answer result stage
  | asks (request memory) : Unstaged fun stage => .ask request stage memory

namespace Unstaged
variable {Memory : Type} {move other : Stage W → Move W Memory}

theorem stage (unstaged : Unstaged move) (stage : Stage W) : (move stage).stage = stage := by
  cases unstaged <;> rfl

theorem choice {P : Prop} [Decidable P] (left : Unstaged move) (right : Unstaged other) :
    Unstaged fun stage => if P then move stage else other stage := by
  split
  · exact left
  · exact right

end Unstaged

namespace Policy

theorem startUnstaged (policy : Policy) (view : View) :
    Unstaged ((policy.tick : Tick W).start view) := by
  cases policy with
  | constant status => exact .answers _
  | inOrder passing => exact .choice (.asks _ _) (.answers _)
  | inverting => exact .asks _ _
  | repeating unbounded again =>
    cases valid : maxLoop view.properties unbounded with
    | error e => exact (funext fun stage => repeatingRefused valid again stage) ▸ .answers _
    | ok bound => exact (funext fun stage => repeatingStarts valid again stage) ▸ .asks _ _

theorem resumeUnstaged (policy : Policy) (memory : (policy.tick : Tick W).Memory) (reply : Reply) :
    Unstaged ((policy.tick : Tick W).resume memory reply) := by
  cases policy with
  | constant status => exact memory.elim
  | inOrder passing =>
    cases reply with
    | error e => exact .answers _
    | ok status => exact .choice (.asks _ _) (.answers _)
  | inverting => cases reply <;> exact .answers _
  | repeating unbounded again =>
    cases reply with
    | error e => exact .answers _
    | ok status => exact .choice (.asks _ _) (.answers _)

end Policy

theorem behaviorTick (n : Native) :
    (n.behavior : Behavior W).tick = some n.policy.tick :=
  congrArg some n.tickOfPolicy

theorem behaviorSkips (n : Native) {callback : Callback W} (has : n.behavior.Has callback) :
    callback = .skip := by
  rcases has with rfl | rfl | rfl | rfl <;> rfl

end Native

namespace Derivation
open Native
variable {scene : Scene W} {node : Node W}

theorem hookCarries {native : Native} (carries : node.content.behavior = native.behavior) :
    Derivation.Carries scene node fun s _ last => last.hook = s.hook where
  nil _ := rfl
  append left right := right.trans left
  told _ _ _ _ := rfl
  called own _ _ _ came := by
    rw [carries] at own
    cases native.behaviorSkips (Behavior.hasOfStep own)
    cases came
    rfl
  answered _ answered := by
    cases answered
    rfl
  flagged _ _ := rfl
  ticks _ := rfl
  starts ticks s := by
    rw [carries, native.behaviorTick] at ticks
    cases ticks
    exact congrArg (·.toolbox.hook) ((native.policy.startUnstaged node.view).stage s.stage)
  resumes ticks memory reply s := by
    rw [carries, native.behaviorTick] at ticks
    cases ticks
    exact congrArg (·.toolbox.hook) ((native.policy.resumeUnstaged memory reply).stage s.stage)
  ticked _ _ := rfl

end Derivation

namespace Derivation
variable {scene : Scene W} {evaluated : Judgement W} {node : Node W} {policy : Native.Policy}
  {s : Standing W} {t : Timeline W} {status : Status} {answer : Fault → Status}
  (played : Played scene evaluated node policy s t status)
  (keeps : ∀ {id s t status last}, evaluated id s t status last → last.hook = s.hook)
  (answers : scene.plan.Answers s.hook answer)
include played keeps answers

theorem Played.comes {child : NodeId → Status}
    (below : ∀ {id s t status last}, evaluated id s t status last →
      scene.plan.Answers s.hook answer → status = child id) :
    status = match policy.decide node child with
      | .ok status => status
      | .error e => answer ⟨node.id, .tick, e⟩ := by
  have kept {id s t status last} (asked : evaluated id s t status last)
      (here : scene.plan.Answers s.hook answer) : scene.plan.Answers last.hook answer :=
    keeps asked ▸ here
  have fixed {ready visits talk told} (hook : ready.hook = s.hook)
      (inTurn : InTurn evaluated ready visits talk told) :
      ∀ visit ∈ visits, visit.2 = child visit.1 := by
    intro visit mem
    obtain ⟨_, _, _, here, asked, _⟩ := inTurn.each kept (hook ▸ answers) visit mem
    exact below asked here
  cases played with
  | answers hook inTurn decides => rw [← decides.decided (fixed hook inTurn)]
  | fails hook inTurn decides =>
    rw [← decides.decided (fixed hook inTurn)]
    exact (inTurn.keeps kept (hook ▸ answers)).respond _

theorem Played.shown {o} (mem : o ∈ t) :
    o = .began node.id ∨ o.Inside node.id ∨ o = .ended node.id status ∨
      ∃ request id s t status last, node.locate request = .ok id ∧
        scene.plan.Answers s.hook answer ∧ evaluated id s t status last ∧ o ∈ t := by
  have kept {id s t status last} (asked : evaluated id s t status last)
      (here : scene.plan.Answers s.hook answer) : scene.plan.Answers last.hook answer :=
    keeps asked ▸ here
  have below {ready visits talk told decision} (hook : ready.hook = s.hook)
      (inTurn : InTurn evaluated ready visits talk told)
      (decides : policy.Decides node visits decision) (mem : o ∈ talk) :
      ∃ request id s t status last, node.locate request = .ok id ∧
        scene.plan.Answers s.hook answer ∧ evaluated id s t status last ∧ o ∈ t := by
    obtain ⟨visit, among, s, t, last, here, asked, mem⟩ :=
      inTurn.shown kept (hook ▸ answers) mem
    obtain ⟨request, located⟩ := decides.located visit among
    exact ⟨request, visit.1, s, t, visit.2, last, located, here, asked, mem⟩
  have sorted {before talk after : Timeline W} {stage status}
      (inside : ∀ o ∈ before ++ after, o.Inside node.id)
      (mem : o ∈ [.began node.id] ++ before ++ [.called node.id .tick stage] ++ talk ++ after ++
        [.ended node.id status]) :
      o = .began node.id ∨ o.Inside node.id ∨ o = .ended node.id status ∨ o ∈ talk := by
    simp only [List.mem_append, List.mem_singleton] at mem
    rcases mem with ((((mem | mem) | mem) | mem) | mem) | mem
    · exact .inl mem
    · exact .inr (.inl (inside o (List.mem_append_left _ mem)))
    · exact .inr (.inl (mem ▸ ⟨rfl, fun bounds => bounds⟩))
    · exact .inr (.inr (.inr mem))
    · exact .inr (.inl (inside o (List.mem_append_right _ mem)))
    · exact .inr (.inr (.inl mem))
  cases played with
  | answers hook inTurn decides smooth =>
    have split := sorted (fun o mem => (smooth o mem).inside) mem
    exact split.imp_right (.imp_right (.imp_right (below hook inTurn decides)))
  | fails hook inTurn decides inside =>
    have split := sorted inside mem
    exact split.imp_right (.imp_right (.imp_right (below hook inTurn decides)))

end Derivation

section Evaluation
open BehaviorTree.Derivation
variable {scene : Scene W} {native : NodeId → Native} {answer : Fault → Status} {room : Nat}
  {id : NodeId} {s last : Standing W} {t : Timeline W} {status : Status}

theorem Evaluates.hook (carries : scene.tree.Carries native)
    (evaluates : Evaluates scene room id s t status last) : last.hook = s.hook :=
  evaluatesCarried (R := fun s _ last => last.hook = s.hook)
    (fun found => hookCarries (carries found)) (fun _ _ _ => rfl) evaluates

theorem Evaluates.foretold (carries : scene.tree.Carries native)
    (evaluates : Evaluates scene room id s t status last)
    (answers : scene.plan.Answers s.hook answer) :
    status = scene.tree.foretell native answer room id := by
  induction room generalizing id s t status last with
  | zero =>
    cases evaluates with
    | absent | refused => rfl
    | activated _ room => cases room
  | succ room ih =>
    cases evaluates with
    | absent none => simp only [Tree.foretell, none]
    | refused _ limit => cases limit
    | activated found room activated =>
      cases room
      have played := activated.played (carries found)
      rw [played.comes (fun asked => asked.hook carries) answers ih]
      simp only [Tree.foretell, found]

theorem Evaluates.foretoldInside (forest : scene.tree.Forest) (carries : scene.tree.Carries native)
    (evaluates : Evaluates scene room id s t status last)
    (answers : scene.plan.Answers s.hook answer) {inner result} (ended : .ended inner result ∈ t) :
    ∃ steps < room, scene.tree.climb steps inner = some id ∧
      result = scene.tree.foretell native answer (room - steps) inner := by
  induction room generalizing id s t status last with
  | zero =>
    cases evaluates with
    | absent | refused => simp at ended
    | activated _ room => cases room
  | succ room ih =>
    have whole := evaluates.foretold carries answers
    cases evaluates with
    | absent => simp at ended
    | refused _ limit => cases limit
    | activated found room activated =>
      cases room
      have same := forest.numbered found
      have played := activated.played (carries found)
      rcases played.shown (fun asked => asked.hook carries) answers ended with
        began | inside | last | ⟨request, child, _, _, _, _, located, here, asked, ended⟩
      · cases began
      · exact absurd trivial inside.2
      · cases last
        exact ⟨0, Nat.succ_pos _, congrArg some same, same ▸ whole⟩
      · obtain ⟨steps, short, up, foretold⟩ := ih asked here ended
        have under : scene.tree.Under child id := forest.underOfAsks ⟨_, request, found, located⟩
        refine ⟨steps + 1, by omega, Tree.climbOn up under, ?_⟩
        rw [foretold, Nat.add_sub_add_right]

end Evaluation
end BehaviorTree

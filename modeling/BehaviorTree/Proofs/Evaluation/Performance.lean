import BehaviorTree.Proofs.Evaluation.Course
import BehaviorTree.Proofs.Evaluation.Pieces

/-! What the entries of an activation stand for. A call is of a callback of the node itself, on the
stage that all before it has led to; what returns is what that callback answers, and all after it
goes on from the stage that the callback leaves. -/
namespace BehaviorTree
open BehaviorTree.Derivation

variable {W : Type}

inductive Performed (evaluated : Judgement W) (node : Node W) (s : Standing W) :
    Step → Timeline W → Standing W → Prop where
  | callback {step callback result stage}
      (own : node.content.behavior.callback? step = some callback)
      (came : callback s.stage = (result, stage)) :
      Performed evaluated node s step
        [.called node.id step s.stage, .returned node.id step (.ofResult result)] { s with stage }
  | tick {t result last} (ticked : Ticked evaluated node s t result last) :
      Performed evaluated node s .tick t last

inductive Enacts (scene : Scene W) (evaluated : Judgement W) (node : Node W) (s : Standing W) :
    Timeline W → Standing W → Prop where
  | begins : Enacts scene evaluated node s [.began node.id] s
  | ends (status) : Enacts scene evaluated node s [.ended node.id status] s
  | tells (phase status) :
      Enacts scene evaluated node s [.reported (scene.event node.id phase status) s.records]
        (s.send (scene.event node.id phase status))
  | flags (isOpen) : Enacts scene evaluated node s [.flagged node.id isOpen] (s.flag node.id isOpen)
  | answers {fault t status last} (own : fault.node = node.id)
      (answered : Answered scene fault s t status last) : Enacts scene evaluated node s t last
  | performs {step t last} (performed : Performed evaluated node s step t last) :
      Enacts scene evaluated node s t last

inductive Enacted (scene : Scene W) (evaluated : Judgement W) (node : Node W) :
    Standing W → Timeline W → Standing W → Prop where
  | nil (s) : Enacted scene evaluated node s [] s
  | cons {s t middle u last} (enacts : Enacts scene evaluated node s t middle)
      (rest : Enacted scene evaluated node middle u last) :
      Enacted scene evaluated node s (t ++ u) last

section Enacting
variable {scene : Scene W} {evaluated : Judgement W} {node : Node W} {s middle last : Standing W}
  {t u : Timeline W}

theorem Enacted.append (left : Enacted scene evaluated node s t middle)
    (right : Enacted scene evaluated node middle u last) :
    Enacted scene evaluated node s (t ++ u) last := by
  induction left with
  | nil => exact right
  | cons enacts _ ih =>
    rw [List.append_assoc]
    exact .cons enacts (ih right)

theorem Enacts.enacted (enacts : Enacts scene evaluated node s t last) :
    Enacted scene evaluated node s t last := by
  have alone := Enacted.cons enacts (.nil last)
  rwa [List.append_nil] at alone

theorem enactedPieces (scene : Scene W) (evaluated : Judgement W) (node : Node W) :
    Pieces scene node (Enacted scene evaluated node) where
  nil := .nil
  append := .append
  told _ phase status _ := (Enacts.tells phase status).enacted
  called own _ _ _ came := (Enacts.performs (.callback own came)).enacted
  answered own answered := (Enacts.answers own answered).enacted
  flagged _ isOpen := (Enacts.flags isOpen).enacted

theorem Derivation.Activated.enacted {final}
    (activated : Activated scene evaluated node s t final last) :
    Enacted scene evaluated node s t last := by
  obtain ⟨inside, rfl, enacted⟩ :=
    activated.inside (enactedPieces scene evaluated node) fun ticked =>
      (Enacts.performs (.tick ticked)).enacted
  exact (Enacts.begins.enacted.append enacted).append (Enacts.ends final).enacted

end Enacting

inductive Performance (scene : Scene W) (evaluated : Judgement W) (node : Node W)
    (s : Standing W) (before : Timeline W) (step : Step) (stage : Stage W) (after : Timeline W)
    (last : Standing W) : Prop where
  | intro {ready left call rest} (whole : .called node.id step stage :: after = call ++ rest)
      (led : Enacted scene evaluated node s before ready) (given : ready.stage = stage)
      (performed : Performed evaluated node ready step call left)
      (goesOn : Enacted scene evaluated node left rest last) :
      Performance scene evaluated node s before step stage after last

section Places
variable {scene : Scene W} {evaluated : Judgement W} {node : Node W} {s middle last : Standing W}
  {t u before after : Timeline W} {step : Step} {stage : Stage W}

theorem Performance.follows (enacts : Enacts scene evaluated node s u middle)
    (performance : Performance scene evaluated node middle before step stage after last) :
    Performance scene evaluated node s (u ++ before) step stage after last := by
  cases performance with
  | intro whole led given performed goesOn =>
    exact .intro whole (.cons enacts led) given performed goesOn

theorem Performed.first (apart : Apart evaluated node)
    (performed : Performed evaluated node s step t last) :
    ∃ rest, t = .called node.id step s.stage :: rest ∧
      ∀ other stage, .called node.id other stage ∉ rest := by
  cases performed with
  | callback own came => exact ⟨_, rfl, by simp⟩
  | @tick _ result _ ticked =>
    obtain ⟨talk, rfl, quiet⟩ := ticked.talk apart
    refine ⟨talk ++ [.returned node.id .tick (.ofOutcome result)], rfl, fun other stage mem => ?_⟩
    rcases List.mem_append.mp mem with inside | last
    · exact quiet.seen _ inside rfl
    · simp at last

/- A single entry calls at its begin or not at all. -/
theorem Enacts.calls (apart : Apart evaluated node) (enacts : Enacts scene evaluated node s t last)
    (split : t = before ++ .called node.id step stage :: after) :
    before = [] ∧ stage = s.stage ∧ Performed evaluated node s step t last := by
  have mem : .called node.id step stage ∈ t := by simp [split]
  cases enacts with
  | begins | ends | tells | flags => simp at mem
  | answers own answered =>
    cases answered
    simp at mem
  | performs performed =>
    obtain ⟨tail, rfl, quiet⟩ := performed.first apart
    cases before with
    | nil =>
      cases (List.cons.inj split).1
      exact ⟨rfl, rfl, performed⟩
    | cons first before =>
      obtain ⟨rfl, rfl⟩ := List.cons.inj split
      exact absurd (by simp) (quiet step stage)

theorem Enacted.performance (apart : Apart evaluated node)
    (enacted : Enacted scene evaluated node s t last)
    (split : t = before ++ .called node.id step stage :: after) :
    Performance scene evaluated node s before step stage after last := by
  induction enacted generalizing before with
  | nil => simp at split
  | @cons s u middle t last enacts rest ih =>
    rcases Timeline.splitAppend split with ⟨inner, here, rfl⟩ | ⟨inner, rfl, there⟩
    · obtain ⟨rfl, rfl, performed⟩ := enacts.calls apart here
      exact .intro split.symm (.nil s) rfl performed rest
    · exact (ih there).follows enacts

end Places

end BehaviorTree

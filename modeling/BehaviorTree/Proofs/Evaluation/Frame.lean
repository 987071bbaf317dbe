import BehaviorTree.Proofs.Evaluation.Derivation
import BehaviorTree.Proofs.Tree.Forest

/-! What an evaluation leaves alone. It concerns the nodes that its ticks can ask for, one
below the other, and no others: neither their callbacks and events nor their flags. In a
forest a node lies not below its own children, so nothing that a tick asks for disturbs
the node that is being ticked. -/
namespace BehaviorTree
open Relation

variable {W : Type}

def Occurrence.node? : Occurrence W → Option NodeId
  | .equipped _ => none
  | .began node | .called node _ _ | .returned node _ _ => some node
  | .flagged node _ | .refused node | .absent node | .ended node _ => some node
  | .reported event _ => some event.node
  | .consulted fault _ _ | .contained fault _ => some fault.node

namespace Tree
variable {t : Tree W}

def Asks (t : Tree W) (parent child : NodeId) : Prop :=
  ∃ node request, t.node? parent = some node ∧ node.locate request = .ok child

def Reaches (t : Tree W) : NodeId → NodeId → Prop := ReflTransGen t.Asks

theorem locatedChild {node : Node W} {request child} (ok : node.locate request = .ok child) :
    child ∈ node.children := by
  cases request with
  | child =>
    simp only [Node.locate] at ok
    split at ok
    · split at ok
      · rename_i first rest children
        cases ok
        simp [children]
      · contradiction
    · contradiction
  | childAt index =>
    simp only [Node.locate] at ok
    split at ok
    · split at ok
      · rename_i found
        cases ok
        exact List.mem_of_getElem? found
      · contradiction
    · contradiction

theorem Forest.underOfAsks (forest : t.Forest) {parent child} (asks : t.Asks parent child) :
    t.Under child parent := by
  obtain ⟨node, request, found, located⟩ := asks
  exact (forest.linked found).mp (locatedChild located)

theorem Forest.noReturn (forest : t.Forest) {parent child} (asks : t.Asks parent child) :
    ¬ t.Reaches child parent := by
  intro reach
  have above : ReflTransGen t.Under parent child :=
    reflTransGen_swap.mp (ReflTransGen.mono (fun _ _ => forest.underOfAsks) _ _ reach)
  exact forest.acyclic child (.head' (forest.underOfAsks asks) above)

end Tree

namespace Derivation
variable {scene : Scene W} {evaluated : Judgement W} {node : Node W}

structure Sequential (R : OpenNodes → Timeline W → OpenNodes → Prop) : Prop where
  nil : ∀ a, R a [] a
  append : ∀ {a t b u c}, R a t b → R b u c → R a (t ++ u) c

structure Own (id : NodeId) (a : OpenNodes) (t : Timeline W) (b : OpenNodes) : Prop where
  seen : ∀ o ∈ t, o.node? = some id
  flags : ∀ other, other ≠ id → b.contains other = a.contains other

theorem Own.sequential (id : NodeId) : Sequential (Own (W := W) id) where
  nil _ := ⟨by simp, fun _ _ => rfl⟩
  append left right :=
    ⟨fun o mem => (List.mem_append.mp mem).elim (left.seen o) (right.seen o),
      fun other ne => (right.flags other ne).trans (left.flags other ne)⟩

theorem Own.unflagged {id : NodeId} {a : OpenNodes} {t : Timeline W}
    (seen : ∀ o ∈ t, o.node? = some id) : Own id a t a :=
  ⟨seen, fun _ _ => rfl⟩

theorem Own.flag (s : Standing W) (id : NodeId) (isOpen : Bool) :
    Own id s.openNodes ([.flagged id isOpen] : Timeline W) (s.flag id isOpen).openNodes where
  seen := by simp [Occurrence.node?]
  flags other ne := by rw [Standing.flagContains, if_neg ne]

theorem Called.own {id step status callback s t result last}
    (called : Called scene id step status callback s t result last) :
    Own id s.openNodes t last.openNodes := by
  cases called
  exact .unflagged (by simp [Occurrence.node?, Scene.event])

theorem Answered.own {fault s t status last} (answered : Answered scene fault s t status last) :
    Own fault.node s.openNodes t last.openNodes := by
  cases answered
  exact .unflagged (by simp [Occurrence.node?, Fault.event])

theorem Opened.own {s t result last} (opened : Opened scene node s t result last) :
    Own node.id s.openNodes t last.openNodes := by
  cases opened with
  | already => exact (Own.sequential node.id).nil _
  | called _ called => exact called.own

theorem Judged.own {id s outcome t last} (judged : Judged scene id s outcome t last) :
    Own id s.openNodes t last.openNodes := by
  cases judged <;> exact .unflagged (by simp [Occurrence.node?, Scene.event])

theorem Settled.own {outcome s t result last} (settled : Settled scene node outcome s t result last) :
    Own node.id s.openNodes t last.openNodes := by
  have join := @(Own.sequential (W := W) node.id).append
  cases settled with
  | stays judged _ => exact join judged.own (.flag _ _ _)
  | closes judged _ called => exact join (join judged.own called.own) (.flag _ _ _)
  | closeFails judged _ called => exact join (join judged.own called.own) (.flag _ _ _)

theorem Stepped.faultNode {s t fault last}
    (stepped : Stepped scene evaluated node s t (.error fault) last) : fault.node = node.id := by
  cases stepped with
  | settles _ _ _ settled => cases settled; rfl
  | _ => rfl

section Chain
variable {R : OpenNodes → Timeline W → OpenNodes → Prop} (seq : Sequential R)
  (child : ∀ {request id s t status last}, node.locate request = .ok id →
    evaluated id s t status last → R s.openNodes t last.openNodes)
include seq child

theorem Conversed.chain {tick : Tick W} {move openNodes t result last}
    (conversed : Conversed evaluated node tick move openNodes t result last) :
    R openNodes t last.openNodes := by
  induction conversed with
  | answer => exact seq.nil _
  | misses _ _ ih => exact ih
  | child located asked _ ih => exact seq.append (child located asked) ih

variable (own : ∀ {a t b}, Own node.id a t b → R a t b)
include own

theorem Ticked.chain {s t result last} (ticked : Ticked evaluated node s t result last) :
    R s.openNodes t last.openNodes := by
  cases ticked with
  | missing => exact own (.unflagged (by simp [Occurrence.node?]))
  | @played tick talk _ _ _ conversed =>
    have asked : R s.openNodes [.called node.id .tick s.stage] s.openNodes :=
      own (.unflagged (by simp [Occurrence.node?]))
    exact seq.append (seq.append asked (conversed.chain seq child))
      (own (.unflagged (by simp [Occurrence.node?])))

theorem Stepped.chain {s t result last} (stepped : Stepped scene evaluated node s t result last) :
    R s.openNodes t last.openNodes := by
  cases stepped with
  | enterFails entered => exact own entered.own
  | openFails entered opened => exact seq.append (own entered.own) (own opened.own)
  | tickFails entered opened ticked =>
    exact seq.append (seq.append (own entered.own) (own opened.own)) (ticked.chain seq child own)
  | settles entered opened ticked settled =>
    exact seq.append (seq.append (seq.append (own entered.own) (own opened.own))
      (ticked.chain seq child own)) (own settled.own)

theorem Activated.chain {s t status last}
    (activated : Activated scene evaluated node s t status last) :
    R s.openNodes t last.openNodes := by
  have join := @seq.append
  have start (a : OpenNodes) : R a [.began node.id] a :=
    own (.unflagged (by simp [Occurrence.node?]))
  have stop (a : OpenNodes) (status : Status) : R a [.ended node.id status] a :=
    own (.unflagged (by simp [Occurrence.node?]))
  have resolve {s t soFar middle u status resolved}
      (stepped : Stepped scene evaluated node s t soFar middle)
      (settled : Resolved scene middle soFar u status resolved) :
      R middle.openNodes u resolved.openNodes := by
    cases settled with
    | fine => exact seq.nil _
    | faulty answered => exact own (stepped.faultNode ▸ answered.own)
  cases activated with
  | leaves stepped settled exited =>
    exact join (join (join (join (start _) (stepped.chain seq child own))
      (resolve stepped settled)) (own exited.own)) (stop _ _)
  | exitFails stepped settled exited answered =>
    exact join (join (join (join (join (start _) (stepped.chain seq child own))
      (resolve stepped settled)) (own exited.own)) (own answered.own)) (stop _ _)

end Chain

structure Confined (tree : Tree W) (id : NodeId) (a : OpenNodes) (t : Timeline W)
    (b : OpenNodes) : Prop where
  seen : ∀ o ∈ t, ∃ node, o.node? = some node ∧ tree.Reaches id node
  flags : ∀ other, ¬ tree.Reaches id other → b.contains other = a.contains other

theorem Confined.sequential (tree : Tree W) (id : NodeId) : Sequential (Confined tree id) where
  nil _ := ⟨by simp, fun _ _ => rfl⟩
  append left right :=
    ⟨fun o mem => (List.mem_append.mp mem).elim (left.seen o) (right.seen o),
      fun other apart => (right.flags other apart).trans (left.flags other apart)⟩

theorem Own.confined {tree : Tree W} {id a t b} (own : Own (W := W) id a t b) :
    Confined tree id a t b where
  seen o mem := ⟨id, own.seen o mem, .refl⟩
  flags other apart := own.flags other (by rintro rfl; exact apart .refl)

theorem Confined.above {tree : Tree W} {parent child a t b} (asks : tree.Asks parent child)
    (confined : Confined tree child a t b) : Confined tree parent a t b where
  seen o mem := by
    obtain ⟨node, same, reach⟩ := confined.seen o mem
    exact ⟨node, same, .head asks reach⟩
  flags other apart := confined.flags other fun reach => apart (.head asks reach)

structure Undisturbed (id : NodeId) (a : OpenNodes) (t : Timeline W) (b : OpenNodes) : Prop where
  seen : ∀ o ∈ t, o.node? ≠ some id
  flag : b.contains id = a.contains id

theorem Undisturbed.sequential (id : NodeId) : Sequential (Undisturbed (W := W) id) where
  nil _ := ⟨by simp, rfl⟩
  append left right :=
    ⟨fun o mem => (List.mem_append.mp mem).elim (left.seen o) (right.seen o),
      right.flag.trans left.flag⟩

theorem Own.undisturbed {id other a b} {t : Timeline W} (own : Own id a t b) (ne : other ≠ id) :
    Undisturbed other a t b where
  seen o mem same := ne (Option.some.inj (same.symm.trans (own.seen o mem)))
  flag := own.flags other ne

end Derivation

open BehaviorTree.Derivation

variable {scene : Scene W} {room : Nat} {s last : Standing W} {t : Timeline W} {status : Status}

theorem Evaluates.confined (forest : scene.tree.Forest) {id}
    (evaluates : Evaluates scene room id s t status last) :
    Confined scene.tree id s.openNodes t last.openNodes := by
  induction room generalizing id s t status last with
  | zero =>
    cases evaluates with
    | absent => exact (Own.unflagged (by simp [Occurrence.node?])).confined
    | refused => exact (Own.unflagged (by simp [Occurrence.node?])).confined
    | activated _ room => cases room
  | succ room ih =>
    cases evaluates with
    | absent => exact (Own.unflagged (by simp [Occurrence.node?])).confined
    | refused _ limit => cases limit
    | activated found room activated =>
      cases room
      have same := forest.numbered found
      exact activated.chain (Confined.sequential _ _)
        (fun located asked => (ih asked).above ⟨_, _, found, located⟩)
        (fun own => same ▸ own.confined)

theorem Evaluates.undisturbed (forest : scene.tree.Forest) {parent child}
    (asks : scene.tree.Asks parent child)
    (evaluates : Evaluates scene room child s t status last) :
    Undisturbed parent s.openNodes t last.openNodes where
  seen o mem same := by
    obtain ⟨node, here, reach⟩ := (evaluates.confined forest).seen o mem
    cases here.symm.trans same
    exact forest.noReturn asks reach
  flag := (evaluates.confined forest).flags parent (forest.noReturn asks)

end BehaviorTree

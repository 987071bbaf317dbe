import BehaviorTree.Proofs.Evaluation.Blocks
import BehaviorTree.Proofs.Evaluation.Lifecycle
import BehaviorTree.Proofs.Evaluation.Surroundings
import BehaviorTree.Proofs.Evaluation.Coupling

/-! The depth limit. The depth that an evaluation counts is the distance from the root, so the
limit parts the tree: below it nothing happens, and at it every child is answered as an error. A
limit that no node is beyond makes no difference. -/
namespace BehaviorTree

variable {W : Type}

namespace Tree
variable {t : Tree W}

inductive AtDepth (t : Tree W) : Nat → NodeId → Prop where
  | root {id} (root : t.root = some id) : AtDepth t 0 id
  | child {depth parent child} (above : AtDepth t depth parent)
      (mem : child ∈ t.childrenOf parent) : AtDepth t (depth + 1) child

theorem AtDepth.rooted {depth id} (deep : t.AtDepth depth id) : ∃ root, t.root = some root := by
  induction deep with
  | root here => exact ⟨_, here⟩
  | child _ _ ih => exact ih

namespace Forest

theorem depthOfClimb (forest : t.Forest) {root depth id} (rooted : t.root = some root)
    (up : t.climb depth id = some root) : t.AtDepth depth id := by
  induction depth generalizing id with
  | zero =>
    cases up
    exact .root rooted
  | succ depth ih =>
    obtain ⟨parent, under, up⟩ := Option.bind_eq_some_iff.mp up
    exact .child (ih up) (forest.linkedChildren.mpr under)

theorem climbOfDepth (forest : t.Forest) {root depth id} (rooted : t.root = some root)
    (deep : t.AtDepth depth id) : t.climb depth id = some root := by
  induction deep with
  | root here =>
    cases rooted.symm.trans here
    rfl
  | child _ mem ih => exact (climbSucc (forest.linkedChildren.mp mem)).trans ih

theorem depthOnce (forest : t.Forest) {root depth other id} (rooted : t.root = some root)
    (deep : t.AtDepth depth id) (deep' : t.AtDepth other id) : depth = other :=
  forest.climbOnce (forest.climbOfDepth rooted deep) (forest.climbOfDepth rooted deep')

theorem depthLess (forest : t.Forest) {root depth id} (rooted : t.root = some root)
    (deep : t.AtDepth depth id) : depth < t.size := by
  obtain ⟨node, found, orphan⟩ := forest.rooted rooted
  have known : (t.node? id).isSome := by
    cases deep with
    | root here =>
      cases rooted.symm.trans here
      exact Option.isSome_of_eq_some found
    | child _ mem => exact knownOfParent (forest.linkedChildren.mp mem)
  obtain ⟨steps, fewer, top, last, up, there, ends⟩ := forest.tops known
  have noneAbove : t.parent? top = none := by simp [parent?, there, ends]
  have up' := forest.climbOfDepth rooted deep
  by_contra more
  obtain ⟨further, rfl⟩ : ∃ further, depth = steps + (further + 1) :=
    ⟨depth - steps - 1, by omega⟩
  rw [climbAdd, up, Option.bind_some, climb, noneAbove] at up'
  cases up'

end Forest
end Tree

open BehaviorTree.Derivation

def Refused : Judgement W := fun id s t status last =>
  t = [.refused id] ∧ status = .error ∧ last = s

def Lived (scene : Scene W) : Judgement W := fun id s t status last =>
  (∃ inner, t = .began id :: inner ++ [.ended id status]) ∧
    ∃ node room, scene.tree.node? id = some node ∧ node.id = id ∧
      Lifecycle scene (Evaluates scene room) node s t status last

structure Limited (scene : Scene W) (a : OpenNodes) (t : Timeline W) (b : OpenNodes) : Prop where
  ends : b = t.flags a
  present : ∀ {id}, .absent id ∉ t
  starts : ∀ {root}, scene.tree.root = some root → .began root ∈ t
  beyond : ∀ {depth id}, scene.tree.AtDepth depth id → scene.plan.maxDepth.toNat < depth →
    Untouched id a t
  refuses : ∀ {id}, .refused id ∈ t → scene.tree.AtDepth (scene.plan.maxDepth.toNat + 1) id
  activates : ∀ {before after : Timeline W} {id}, t = before ++ .began id :: after →
    ∃ depth ≤ scene.plan.maxDepth.toNat, scene.tree.AtDepth depth id ∧
      ∃ s block status last later, .began id :: after = block ++ later ∧
        s.openNodes = before.flags a ∧ last.openNodes = (before ++ block).flags a ∧
        Lived scene id s block status last
  -- A tick at the limit has its children refused, and any other has them activated.
  asks : ∀ {before after : Timeline W} {id stage node tick},
    t = before ++ .called id .tick stage :: after → scene.tree.node? id = some node →
      node.content.behavior.tick = some tick →
        ∃ depth ≤ scene.plan.maxDepth.toNat, scene.tree.AtDepth depth id ∧
          ∃ talk result last later,
            after = talk ++ .returned id .tick (.ofOutcome result) :: later ∧
            Conversed (if depth = scene.plan.maxDepth.toNat then Refused else Lived scene) node tick
              (tick.start node.view stage) (before.flags a) talk result last

namespace Derivation
variable {scene : Scene W} {evaluated evaluated' : Judgement W} {node : Node W}
  {s last : Standing W} {t : Timeline W}

theorem Conversed.imp {tick : Tick W} {move openNodes result}
    (conversed : Conversed evaluated node tick move openNodes t result last)
    (imp : ∀ {request id s t status last}, node.locate request = .ok id →
      evaluated id s t status last → evaluated' id s t status last) :
    Conversed evaluated' node tick move openNodes t result last := by
  induction conversed with
  | answer result stage openNodes => exact .answer result stage openNodes
  | misses located _ ih => exact .misses located ih
  | child located asked _ ih => exact .child located (imp located asked) ih

theorem Activated.lived {room} (apart : Apart (Evaluates scene room) node)
    (found : scene.tree.node? node.id = some node) {final}
    (activated : Activated scene (Evaluates scene room) node s t final last) :
    Lived scene node.id s t final last := by
  obtain ⟨body, whole, _⟩ := activated.parted
  exact ⟨⟨body, whole⟩, node, room, found, rfl, activated.lifecycle apart⟩

end Derivation

variable {scene : Scene W} {room : Nat} {s last : Standing W} {t : Timeline W} {status : Status}

theorem Evaluates.refused {id node} (found : scene.tree.node? id = some node)
    (evaluates : Evaluates scene 0 id s t status last) : Refused id s t status last := by
  cases evaluates with
  | absent none =>
    rw [found] at none
    contradiction
  | refused => exact ⟨rfl, rfl, rfl⟩
  | activated _ room => cases room

theorem Evaluates.lived (forest : scene.tree.Forest) {id node}
    (found : scene.tree.node? id = some node)
    (evaluates : Evaluates scene (room + 1) id s t status last) :
    Lived scene id s t status last := by
  obtain rfl := forest.numbered found
  exact (evaluates.activated found).lived (apartOfForest forest found) found

theorem Derivation.Conversed.limited (forest : scene.tree.Forest) {node : Node W} {tick : Tick W}
    {depth below limit move openNodes result} (found : scene.tree.node? node.id = some node)
    (within : depth + below = limit)
    (conversed : Conversed (Evaluates scene below) node tick move openNodes t result last) :
    Conversed (if depth = limit then Refused else Lived scene) node tick move openNodes t result
      last := by
  refine conversed.imp fun {request child s t status last} located asked => ?_
  have under := forest.underOfAsks ⟨node, request, found, located⟩
  obtain ⟨_, there⟩ := Option.isSome_iff_exists.mp (Tree.Forest.knownOfParent under)
  split
  · obtain rfl : below = 0 := by omega
    exact asked.refused there
  · obtain ⟨less, rfl⟩ : ∃ less, below = less + 1 := ⟨below - 1, by omega⟩
    exact asked.lived forest there

theorem Lies.depth (forest : scene.tree.Forest) {root node below}
    (rooted : scene.tree.root = some root) (lies : Lies scene scene.plan.room root node below) :
    ∃ depth, scene.tree.AtDepth depth node.id ∧ depth + below = scene.plan.maxDepth.toNat := by
  obtain ⟨_, depth, up, room⟩ := lies
  have limit : scene.plan.maxDepth.toNat + 1 = depth + below + 1 := room
  exact ⟨depth, forest.depthOfClimb rooted up, by omega⟩

section Limits
variable (forest : scene.tree.Forest) {root : NodeId} (rooted : scene.tree.root = some root)
  (evaluates : Evaluates scene scene.plan.room root s t status last)
include forest rooted evaluates

theorem Evaluates.absentNowhere {id} : .absent id ∉ t := by
  intro mem
  obtain ⟨before, after, split⟩ := List.append_of_mem mem
  cases evaluates.enclosed forest split with
  | absent none =>
    obtain ⟨_, found, _⟩ := forest.rooted rooted
    rw [found] at none
    contradiction
  | aside _ aside => exact aside.notAbsent

theorem Evaluates.beyondLimit {depth id} (deep : scene.tree.AtDepth depth id)
    (more : scene.plan.maxDepth.toNat < depth) : Untouched id s.openNodes t := by
  have apart {node below} (lies : Lies scene scene.plan.room root node below) : node.id ≠ id := by
    rintro rfl
    obtain ⟨_, near, within⟩ := lies.depth forest rooted
    have same := forest.depthOnce rooted near deep
    omega
  refine .ofPassed (fun o mem here => ?_) _
  obtain ⟨before, after, split⟩ := List.append_of_mem mem
  cases evaluates.enclosed forest split with
  | absent =>
    cases here
    exact .inr rfl
  | refused =>
    cases here
    exact .inl rfl
  | begins lies => exact absurd (Option.some.inj here) (apart lies)
  | aside lies aside => exact absurd (Option.some.inj (aside.1.symm.trans here)) (apart lies)
  | ticks lies => exact absurd (Option.some.inj here) (apart lies)

theorem Evaluates.refusedBeyond {id} (mem : .refused id ∈ t) :
    scene.tree.AtDepth (scene.plan.maxDepth.toNat + 1) id := by
  obtain ⟨before, after, split⟩ := List.append_of_mem mem
  cases evaluates.enclosed forest split with
  | refused up => exact forest.depthOfClimb rooted up
  | aside _ aside => exact aside.notRefused.elim

theorem Evaluates.activatedWithin {before after : Timeline W} {id}
    (split : t = before ++ .began id :: after) :
    ∃ depth ≤ scene.plan.maxDepth.toNat, scene.tree.AtDepth depth id ∧
      ∃ start block final ended later, .began id :: after = block ++ later ∧
        start.openNodes = before.flags s.openNodes ∧
        ended.openNodes = (before ++ block).flags s.openNodes ∧
        Lived scene id start block final ended := by
  cases evaluates.enclosed forest split with
  | @begins node below start _ block later final ended lies flags activated whole =>
    obtain ⟨depth, deep, within⟩ := lies.depth forest rooted
    have lived := activated.lived (apartOfForest forest lies.found) lies.found
    have ends : ended.openNodes = (before ++ block).flags s.openNodes := by
      rw [Timeline.flagsAppend, ← flags]
      exact activated.flags fun evaluates => evaluates.flags
    exact ⟨depth, by omega, deep, start, block, final, ended, later, whole, flags, ends, lived⟩
  | aside _ aside => exact aside.notBegan.elim

theorem Evaluates.askedWithin {before after : Timeline W} {id stage node tick}
    (split : t = before ++ .called id .tick stage :: after)
    (found : scene.tree.node? id = some node) (ticks : node.content.behavior.tick = some tick) :
    ∃ depth ≤ scene.plan.maxDepth.toNat, scene.tree.AtDepth depth id ∧
      ∃ talk result told later,
        after = talk ++ .returned id .tick (.ofOutcome result) :: later ∧
        Conversed (if depth = scene.plan.maxDepth.toNat then Refused else Lived scene) node tick
          (tick.start node.view stage) (before.flags s.openNodes) talk result told := by
  cases evaluates.enclosed forest split with
  | aside _ aside => exact aside.notTicks.elim
  | ticks lies ticked whole =>
    obtain ⟨depth, deep, within⟩ := lies.depth forest rooted
    cases lies.found.symm.trans found
    cases ticked with
    | missing none =>
      rw [none] at ticks
      contradiction
    | played some conversed =>
      cases some.symm.trans ticks
      have rest := (List.cons.inj whole).2.trans (List.append_assoc _ _ _)
      exact ⟨depth, by omega, deep, _, _, _, _, rest, conversed.limited forest found within⟩

theorem Evaluates.limited : Limited scene s.openNodes t last.openNodes where
  ends := evaluates.flags
  present := evaluates.absentNowhere forest rooted
  starts here := by
    cases rooted.symm.trans here
    obtain ⟨_, found, _⟩ := forest.rooted rooted
    obtain ⟨⟨inner, rfl⟩, _⟩ := evaluates.lived forest found
    exact List.mem_cons_self
  beyond := evaluates.beyondLimit forest rooted
  refuses := evaluates.refusedBeyond forest rooted
  activates := evaluates.activatedWithin forest rooted
  asks := evaluates.askedWithin forest rooted

end Limits

theorem Limited.nil (unrooted : scene.tree.root = none) (openNodes : OpenNodes) :
    Limited scene openNodes [] openNodes where
  ends := rfl
  present := List.not_mem_nil
  starts root := by
    rw [unrooted] at root
    contradiction
  beyond _ _ := .ofPassed (by simp) _
  refuses mem := absurd mem List.not_mem_nil
  activates split := by simp at split
  asks split := by simp at split

theorem Limited.equipped {a b : OpenNodes} (limited : Limited scene a t b) (stage : Stage W) :
    Limited scene a (.equipped stage :: t) b where
  ends := limited.ends
  present mem := by
    rcases List.mem_cons.mp mem with same | mem
    · cases same
    · exact limited.present mem
  starts root := List.mem_cons_of_mem _ (limited.starts root)
  beyond deep more := .ofPassed (fun o mem here => by
    rcases List.mem_cons.mp mem with rfl | mem
    · cases here
    · exact (limited.beyond deep more).passed o mem here) _
  refuses mem := by
    rcases List.mem_cons.mp mem with same | mem
    · cases same
    · exact limited.refuses mem
  activates split := by
    obtain ⟨inner, rfl, rest⟩ := Timeline.splitEquipped split nofun
    have inside := limited.activates rest
    exact inside
  asks split found ticks := by
    obtain ⟨inner, rfl, rest⟩ := Timeline.splitEquipped split nofun
    have inside := limited.asks rest found ticks
    exact inside

theorem Plan.runLimited {plan : Plan W} {patience tree subject openNodes world}
    (forest : tree.Forest) {report : Report W (Timeline W)} {left}
    (ok : plan.runTree patience tree subject openNodes world = some (report, left)) :
    Limited { plan, tree, subject, patience } openNodes report.seen left := by
  rcases Plan.runSound ok with ⟨unrooted, rfl, rfl⟩ |
    ⟨root, equipped, t, stage, last, rooted, shown, seen, rfl, _, evaluates⟩
  · exact .nil unrooted _
  · have limited := evaluates.limited forest rooted
    rw [seen]
    rcases shown with rfl | ⟨stage, rfl⟩
    · exact limited
    · exact limited.equipped stage

/- Where there is room for every node, it does not matter how much more there is. -/
theorem evaluateRoomy {scene scene' : Scene W} (twin : scene.Twin scene')
    (same : scene'.tree = scene.tree) {room room' depth id} (here : scene.tree.AtDepth depth id)
    (roomy : ∀ {deeper other}, scene.tree.AtDepth deeper other →
      deeper < depth + room ∧ deeper < depth + room') :
    Together Eq Eq (evaluate scene room id) (evaluate scene' room' id) := by
  induction room generalizing room' depth id with
  | zero => exact absurd (roomy here).1 (Nat.lt_irrefl _)
  | succ room ih =>
    cases room' with
    | zero => exact absurd (roomy here).2 (Nat.lt_irrefl _)
    | succ room' =>
      unfold evaluate
      rw [same]
      cases found : scene.tree.node? id with
      | none => exact .same _
      | some node =>
        refine (Paired.twins twin ⟨rfl, rfl, rfl, fun _ => rfl⟩).activate fun located => ?_
        have mem := Tree.locatedChild located
        refine ih (.child here (by simpa [Tree.childrenOf, found] using mem)) fun deep => ?_
        have bound := roomy deep
        omega

theorem Plan.runRoomy {tree : Tree W} {plan : Plan W} {limit : UInt64}
    (roomy : ∀ {depth id}, tree.AtDepth depth id →
      depth ≤ plan.maxDepth.toNat ∧ depth ≤ limit.toNat)
    (patience : Nat) (subject : SubjectId) (openNodes : OpenNodes) (world : W) :
    ({ plan with maxDepth := limit }.runTree patience tree subject openNodes world :
        Option (Report W (Timeline W) × OpenNodes)) =
      plan.runTree patience tree subject openNodes world := by
  cases rooted : tree.root with
  | none => rw [Plan.runUnrooted rooted, Plan.runUnrooted rooted]
  | some root =>
    let scene : Scene W := { plan, tree, subject, patience }
    let scene' : Scene W := { scene with plan := { plan with maxDepth := limit } }
    have twin : scene.Twin scene' := ⟨rfl, rfl, rfl⟩
    have here : scene.tree.AtDepth 0 root := .root rooted
    refine Plan.runSame (Plan.runBeside rooted rooted rfl ?_)
    refine evaluateRoomy twin rfl here fun deep => ?_
    have bound := roomy deep
    simp only [Plan.room]
    omega

theorem depthLimitExact {tree : Tree W} (built : tree.Built) :
    (∀ {plan patience subject openNodes world} {report : Report W (Timeline W)} {left},
      plan.runTree patience tree subject openNodes world = some (report, left) →
        Limited { plan, tree, subject, patience } openNodes report.seen left) ∧
    ∀ {plan : Plan W} {limit : UInt64},
      (∀ {depth id}, tree.AtDepth depth id →
        depth ≤ plan.maxDepth.toNat ∧ depth ≤ limit.toNat) →
      ∀ (patience : Nat) (subject : SubjectId) (openNodes : OpenNodes) (world : W),
        ({ plan with maxDepth := limit }.runTree patience tree subject openNodes world :
            Option (Report W (Timeline W) × OpenNodes)) =
          plan.runTree patience tree subject openNodes world :=
  ⟨Plan.runLimited built.forest, Plan.runRoomy⟩

theorem Tree.depthOfPair {above below : Behavior W} {depth id}
    (deep : (Tree.pair above below).AtDepth depth id) :
    (depth = 0 ∧ id = ⟨0⟩) ∨ (depth = 1 ∧ id = ⟨1⟩) := by
  induction deep with
  | root root =>
    cases root
    exact .inl ⟨rfl, rfl⟩
  | child _ mem ih =>
    rcases ih with ⟨rfl, rfl⟩ | ⟨rfl, rfl⟩
    · exact .inr ⟨rfl, List.mem_singleton.mp mem⟩
    · exact absurd mem List.not_mem_nil

theorem depthLimitExactShallow :
    let tree : Tree Unit := .pair .relaying { tick := some (.ofStatus .success) }
    let limited (maxDepth : UInt64) : Plan Unit := { maxDepth }
    (∃ (report : Report Unit (Timeline Unit)) (left : OpenNodes),
      (limited 0).runTree 1 tree ⟨1⟩ .empty () = some (report, left) ∧
        report.status = .error ∧ .refused ⟨1⟩ ∈ report.seen ∧
        Limited { plan := limited 0, tree, subject := ⟨1⟩, patience := 1 } .empty report.seen
          left) ∧
      tree.AtDepth 1 ⟨1⟩ ∧
      ((limited 7).runTree 1 tree ⟨1⟩ .empty () :
          Option (Report Unit (Timeline Unit) × OpenNodes)) =
        (limited 1).runTree 1 tree ⟨1⟩ .empty () := by
  intro tree limited
  obtain ⟨cut, wide⟩ := depthLimitExact (.pair _ _ : tree.Built)
  have came : (((limited 0).runTree 1 tree ⟨1⟩ .empty () :
      Option (Report Unit (Timeline Unit) × OpenNodes)).any fun (report, _) =>
        report.status = .error ∧ ⟨1⟩ ∈ report.seen.filterMap Occurrence.node?) = true := by
    decide +kernel
  obtain ⟨⟨report, left⟩, ok, shown⟩ := (Option.any_eq_true _ _).mp came
  obtain ⟨failed, mentioned⟩ := of_decide_eq_true shown
  have deep : tree.AtDepth 1 ⟨1⟩ := .child (.root rfl) (List.mem_singleton.mpr rfl)
  have refused : .refused ⟨1⟩ ∈ report.seen := by
    obtain ⟨o, mem, here⟩ := List.mem_filterMap.mp mentioned
    rcases ((cut ok).beyond deep Nat.zero_lt_one).passed o mem here with rfl | rfl
    · exact mem
    · exact absurd mem (cut ok).present
  have roomy {depth id} (deep : tree.AtDepth depth id) :
      depth ≤ (limited 1).maxDepth.toNat ∧ depth ≤ (7 : UInt64).toNat := by
    rcases Tree.depthOfPair deep with ⟨rfl, _⟩ | ⟨rfl, _⟩ <;> decide
  exact ⟨⟨report, left, ok, failed, refused, cut ok⟩, deep, wide roomy 1 ⟨1⟩ .empty ()⟩

end BehaviorTree

import BehaviorTree.Proofs.Native.Succession
import BehaviorTree.Proofs.Native.Visits

/-! Composites evaluate the children that they need, and no others: from the first on, each once,
up to the first that does not pass. It is not known beforehand which one that is, since a child
may come to what it comes to because of the ones before it. -/
namespace BehaviorTree

variable {W T : Type}

inductive Native.Passes : Native → Status → Prop where
  | sequence : Passes .sequence .success
  | priority : Passes .priority .failure

/- The children that are visited, and the status that it comes to. -/
structure Needed (passing : Status) (children : List NodeId) (visits : List (NodeId × Status))
    (status : Status) : Prop where
  inOrder : visits.map Prod.fst <+: children
  passed : ∀ visit ∈ visits.dropLast, visit.2 = passing
  ends : (∃ visit ∈ visits.getLast?, visit.2 ≠ passing ∧ status = visit.2) ∨
    visits.length = children.length ∧ (∀ visit ∈ visits, visit.2 = passing) ∧ status = passing

namespace Native
variable {passing status : Status} {children : List NodeId} {visits : List (NodeId × Status)}

theorem Passes.policy {n : Native} (passes : n.Passes passing) : n.policy = .inOrder passing := by
  cases passes <;> rfl

theorem Passes.tick {n : Native} (passes : n.Passes passing) :
    (n.tick : Tick W) = inOrder passing := by
  cases passes <;> rfl

theorem UpTo.parted (upTo : UpTo passing children visits status) :
    (children = [] ∧ visits = [] ∧ status = passing) ∨
      ∃ before id rest, visits = before ++ [(id, status)] ∧
        children = before.map Prod.fst ++ id :: rest ∧ (∀ visit ∈ before, visit.2 = passing) ∧
        (status = passing → rest = []) := by
  induction upTo with
  | nothing => exact .inl ⟨rfl, rfl, rfl⟩
  | @stops id rest _ other =>
    exact .inr ⟨[], id, rest, rfl, rfl, by simp, fun same => absurd same other⟩
  | @passes id _ _ _ _ ih =>
    rcases ih with ⟨rfl, rfl, rfl⟩ | ⟨before, next, rest, rfl, rfl, passed, last⟩
    · exact .inr ⟨[], id, [], rfl, rfl, by simp, fun _ => rfl⟩
    · exact .inr ⟨(id, passing) :: before, next, rest, rfl, rfl,
        List.forall_mem_cons.mpr ⟨rfl, passed⟩, last⟩

theorem UpTo.needed (upTo : UpTo passing children visits status) :
    Needed passing children visits status := by
  rcases upTo.parted with ⟨rfl, rfl, rfl⟩ | ⟨before, id, rest, rfl, rfl, passed, last⟩
  · exact ⟨List.prefix_rfl, by simp, .inr ⟨rfl, by simp, rfl⟩⟩
  · refine ⟨⟨rest, by simp⟩, by simpa using passed, ?_⟩
    by_cases passes : status = passing
    · obtain rfl := last passes
      refine .inr ⟨by simp, fun visit mem => ?_, passes⟩
      rcases List.mem_append.mp mem with early | final
      · exact passed visit early
      · rw [List.mem_singleton.mp final]
        exact passes
    · exact .inl ⟨(id, status), by simp, passes, rfl⟩

end Native

open BehaviorTree.Native

theorem Succession.upTo (descend : NodeId → Walk W T Status) (passing : Status)
    (children : List NodeId) (m : Moment W T) :
    (∃ visits status last, Succession descend m visits last ∧
      UpTo passing children visits status) ∨
    ∃ visits child rest middle, Succession descend m visits middle ∧
      children = visits.map Prod.fst ++ child :: rest ∧ (∀ visit ∈ visits, visit.2 = passing) ∧
      descend child middle = none := by
  induction children generalizing m with
  | nil => exact .inl ⟨[], passing, m, .done m, .nothing⟩
  | cons child rest ih =>
    cases came : descend child m with
    | none => exact .inr ⟨[], child, rest, m, .done m, rfl, by simp, came⟩
    | some p =>
      obtain ⟨status, middle⟩ := p
      by_cases passes : status = passing
      · subst passes
        rcases ih middle with ⟨visits, result, last, later, upTo⟩ |
          ⟨visits, next, others, last, later, rfl, passed, stuck⟩
        · exact .inl ⟨_, result, last, .next came later, .passes upTo⟩
        · exact .inr ⟨_, next, others, last, .next came later, rfl,
            List.forall_mem_cons.mpr ⟨rfl, passed⟩, stuck⟩
      · exact .inl ⟨_, status, middle, .next came (.done middle), .stops passes⟩

section Loop
variable {node : Node W} {passing : Status} {descend : NodeId → Walk W T Status}
  {m middle : Moment W T} {visits : List (NodeId × Status)}

theorem inOrderIdle (none : node.indexed = []) (passing : Status) (stage : Stage W) :
    (inOrder passing).start node.view stage = .answer (.ok (.status passing)) stage := by
  refine if_neg ?_
  rw [node.countIndexed, none]
  exact Nat.lt_irrefl 0

theorem inOrderStarts (some : node.indexed ≠ []) (passing : Status) (stage : Stage W) :
    (inOrder passing).start node.view stage =
      .ask (.childAt 0) stage (Progress.mk 0 node.indexed.length) := by
  have asks : 0 < node.view.childCount := by
    rw [node.countIndexed]
    exact List.length_pos_iff.mpr some
  refine (if_pos asks).trans ?_
  rw [node.countIndexed]
  rfl

theorem inOrderOnward {index next rest}
    (left : node.indexed.drop index = visits.map Prod.fst ++ next :: rest)
    (passed : ∀ visit ∈ visits, visit.2 = passing) :
    Onward node (inOrder passing) (.childAt index) (Progress.mk index node.indexed.length) visits
      (.childAt (index + visits.length))
      (Progress.mk (index + visits.length) node.indexed.length) := by
  induction visits generalizing index with
  | nil => exact .here _ _
  | cons visit visits ih =>
    obtain ⟨id, status⟩ := visit
    obtain ⟨rfl, passed⟩ := List.forall_mem_cons.mp passed
    have after : node.indexed.drop (index + 1) = visits.map Prod.fst ++ next :: rest := by
      rw [← List.tail_drop, left, List.map_cons, List.cons_append, List.tail_cons]
    have more : index + 1 < node.indexed.length := by
      have length := congrArg List.length after
      simp only [List.length_drop, List.length_append, List.length_cons] at length
      omega
    have onward := ih after passed
    rw [show index + 1 + visits.length = index + (visits.length + 1) by omega] at onward
    exact .resumes (Node.locateNext left) (fun stage => if_pos ⟨rfl, more⟩) onward

theorem inOrderReaches {next rest} (children : node.indexed = visits.map Prod.fst ++ next :: rest)
    (passed : ∀ visit ∈ visits, visit.2 = passing) :
    Onward node (inOrder passing) (.childAt 0) (Progress.mk 0 node.indexed.length) visits
        (.childAt visits.length) (Progress.mk visits.length node.indexed.length) ∧
      node.locate (.childAt visits.length) = .ok next := by
  have all : node.indexed.drop 0 = visits.map Prod.fst ++ next :: rest := children
  have left : node.indexed.drop visits.length = next :: rest := by
    rw [children]
    exact List.drop_left' (List.length_map _)
  have onward := inOrderOnward all passed
  rw [Nat.zero_add] at onward
  exact ⟨onward, Node.locateNext left⟩

theorem inOrderPlays {status last} (succession : Succession descend m visits last)
    (upTo : UpTo passing node.indexed visits status) (patience : Nat) :
    Activation.converse descend node (inOrder passing) patience
        ((inOrder passing).start node.view m.stage) m.openNodes m.seen =
      if visits.length ≤ patience then some (.ok (.status status), last) else none := by
  rcases upTo.parted with ⟨none, rfl, rfl⟩ | ⟨before, id, rest, rfl, children, passed, final⟩
  · cases succession
    rw [inOrderIdle none]
    cases patience <;> rfl
  · obtain ⟨middle, early, came⟩ := succession.snoc
    obtain ⟨onward, located⟩ := inOrderReaches children passed
    have answers (stage : Stage W) :
        (inOrder passing).resume (Progress.mk before.length node.indexed.length) (.ok status)
          stage = .answer (.ok (.status status)) stage := by
      refine if_neg fun ⟨same, more⟩ => ?_
      simp only [children, final same, List.length_append, List.length_map, List.length_singleton]
        at more
      omega
    rw [inOrderStarts (by simp [children]),
      Activation.converseAnswers onward early located came answers]
    simp only [List.length_append, List.length_singleton, Nat.lt_iff_add_one_le]

theorem inOrderStuck {child rest} (succession : Succession descend m visits middle)
    (children : node.indexed = visits.map Prod.fst ++ child :: rest)
    (passed : ∀ visit ∈ visits, visit.2 = passing) (stuck : descend child middle = none)
    (patience : Nat) :
    Activation.converse descend node (inOrder passing) patience
      ((inOrder passing).start node.view m.stage) m.openNodes m.seen = none := by
  obtain ⟨onward, located⟩ := inOrderReaches children passed
  rw [inOrderStarts (by simp [children])]
  exact Activation.converseStuck onward succession located stuck patience

end Loop

/- In whatever way the children are evaluated, and in every run. The tick never fails, and it comes
to an end whenever the evaluations do that it needs. -/
theorem compositesEvaluateNeeded {n : Native} {passing : Status} (passes : n.Passes passing)
    {node : Node W} (composite : node.kind = .composite)
    (carries : node.content.behavior.tick = some n.tick) :
    (∀ {T : Type} [Observer W T] (descend : NodeId → Walk W T Status) (m : Moment W T),
      (∃ visits status last, Succession descend (node.called m) visits last ∧
        Needed passing node.children visits status ∧
        ∀ scene : Scene W, Activation.tickNode scene descend node m =
          if visits.length ≤ scene.patience then
            some (.ok (.status status), node.returned (.ok (.status status)) last)
          else none) ∨
      ∃ visits child rest middle, Succession descend (node.called m) visits middle ∧
        node.children = visits.map Prod.fst ++ child :: rest ∧
        (∀ visit ∈ visits, visit.2 = passing) ∧ descend child middle = none ∧
        ∀ scene : Scene W, Activation.tickNode scene descend node m = none) ∧
    node.Ticks fun visits result => ∃ status, Needed passing node.children visits status ∧
      (visits.map Prod.fst).Nodup ∧ result = .ok (.status status) := by
  have indexed : node.indexed = node.children := if_pos composite
  refine ⟨fun {T} _ descend m => ?_, ?_⟩
  · rw [passes.tick] at carries
    rcases Succession.upTo descend passing node.children (node.called m) with
      ⟨visits, status, last, succession, upTo⟩ |
        ⟨visits, child, rest, middle, succession, children, passed, stuck⟩
    · refine .inl ⟨visits, status, last, succession, upTo.needed, fun scene => ?_⟩
      rw [Activation.tickNodePlays carries, inOrderPlays succession (indexed ▸ upTo)]
      split <;> rfl
    · refine .inr ⟨visits, child, rest, middle, succession, children, passed, stuck,
        fun scene => ?_⟩
      rw [Activation.tickNodePlays carries,
        inOrderStuck succession (indexed.trans children) passed stuck]
      rfl
  · refine (Native.ticks carries).imp fun distinct ⟨decision, decides, same⟩ => ?_
    rw [passes.policy] at decides
    cases decides with
    | @inOrder _ _ status upTo =>
      rw [indexed] at upTo
      have needed := upTo.needed
      exact ⟨status, needed, needed.inOrder.sublist.nodup distinct, same⟩

def Tree.pickingEdits : List (Edit Unit) :=
  [.addNode (.detached "Priority" .composite Native.priority.behavior .empty),
    .addNode (.detached "Shut" .leaf .shut .empty),
    .addNode (.detached "Runner" .leaf Native.runner.behavior .empty),
    .addNode (.detached "Succeeder" .leaf Native.succeeder.behavior .empty),
    .setRoot ⟨0⟩, .addChild ⟨0⟩ ⟨1⟩, .addChild ⟨0⟩ ⟨2⟩, .addChild ⟨0⟩ ⟨3⟩]

theorem compositesEvaluateNeededPicking :
    let tree := Tree.attempts { id := ⟨"picking"⟩ } Tree.pickingEdits
    ∃ (node : Node Unit) (report : Report Unit (Timeline Unit)) (left : OpenNodes),
      tree.node? node.id = some node ∧ node.children = [⟨1⟩, ⟨2⟩, ⟨3⟩] ∧
      Plan.lenient.runTree 2 tree ⟨1⟩ .empty () = some (report, left) ∧ report.status = .running ∧
      node.children.map report.seen.begins = [1, 1, 0] ∧
      ∃ depth visits status start talk told,
        Needed .failure node.children visits status ∧ (visits.map Prod.fst).Nodup ∧
        Toured { plan := .lenient, tree, subject := ⟨1⟩, patience := 2 } node depth start visits
          talk told := by
  intro tree
  have built : tree.Built := (Tree.Built.empty ⟨"picking"⟩ .strict).attempts Tree.pickingEdits
  obtain ⟨node, found, composite, children, carries⟩ : ∃ node, tree.node? ⟨0⟩ = some node ∧
      node.kind = .composite ∧ node.children = [⟨1⟩, ⟨2⟩, ⟨3⟩] ∧
      node.content.behavior.tick = some Native.priority.tick := ⟨_, rfl, rfl, rfl, rfl⟩
  have numbered := built.forest.numbered found
  have came : ((Plan.lenient.runTree 2 tree ⟨1⟩ .empty () :
      Option (Report Unit (Timeline Unit) × OpenNodes)).any fun (report, _) =>
        report.status = .running ∧ [⟨1⟩, ⟨2⟩, ⟨3⟩].map report.seen.begins = [1, 1, 0] ∧
          .called .tick ∈ report.seen.marks ⟨0⟩) = true := by
    decide +kernel
  obtain ⟨⟨report, left⟩, ok, shown⟩ := (Option.any_eq_true _ _).mp came
  obtain ⟨running, begins, marked⟩ := of_decide_eq_true shown
  obtain ⟨stage, called⟩ := Timeline.marksCalled.mp marked
  obtain ⟨before, after, split⟩ := List.append_of_mem called
  rw [← numbered] at found split
  obtain ⟨depth, visits, _, talk, told, _, _, ⟨status, needed, once, _⟩, toured⟩ :=
    (compositesEvaluateNeeded .priority composite carries).2 tree built found ok split
  exact ⟨node, report, left, found, children, ok, running, children ▸ begins, depth, visits, status,
    _, talk, told, needed, once, toured⟩

end BehaviorTree

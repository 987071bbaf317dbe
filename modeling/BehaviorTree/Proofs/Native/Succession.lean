import BehaviorTree.Proofs.Evaluation.Requests
import BehaviorTree.Proofs.Native.Policy

/-! Ticks that go on from child to child, in whatever way the children are evaluated. Each
evaluation takes one piece of patience, and what is left of the tick after some evaluations is
the tick that starts with the next one. -/
namespace BehaviorTree

variable {W T : Type}

inductive Succession (descend : NodeId → Walk W T Status) :
    Moment W T → List (NodeId × Status) → Moment W T → Prop where
  | done (m) : Succession descend m [] m
  | next {id m status middle visits last} (came : descend id m = some (status, middle))
      (later : Succession descend middle visits last) :
      Succession descend m ((id, status) :: visits) last

theorem Succession.snoc {descend : NodeId → Walk W T Status} {m last : Moment W T}
    {visits : List (NodeId × Status)} {visit : NodeId × Status}
    (succession : Succession descend m (visits ++ [visit]) last) :
    ∃ middle, Succession descend m visits middle ∧
      descend visit.1 middle = some (visit.2, last) := by
  induction visits generalizing m with
  | nil =>
    cases succession with
    | next came later =>
      cases later
      exact ⟨m, .done m, came⟩
  | cons first visits ih =>
    cases succession with
    | next came later =>
      obtain ⟨middle, earlier, ends⟩ := ih later
      exact ⟨middle, .next came earlier, ends⟩

theorem Succession.ofStream {descend : NodeId → Walk W T Status} {id : NodeId}
    {moments : Nat → Moment W T} {statuses : Nat → Status} (rounds : Nat)
    (evaluates : ∀ k < rounds, descend id (moments k) = some (statuses k, moments (k + 1))) :
    Succession descend (moments 0) ((List.range rounds).map fun k => (id, statuses k))
      (moments rounds) := by
  induction rounds generalizing moments statuses with
  | zero => exact .done _
  | succ rounds ih =>
    have later := @ih (fun k => moments (k + 1)) (fun k => statuses (k + 1))
      fun k less => evaluates (k + 1) (by omega)
    rw [List.range_succ_eq_map, List.map_cons, List.map_map]
    exact .next (evaluates 0 (by omega)) later

/- A tick that asks goes on, with the statuses that the children come to, until it asks again. -/
inductive Onward (node : Node W) (tick : Tick W) :
    Request → tick.Memory → List (NodeId × Status) → Request → tick.Memory → Prop where
  | here (request memory) : Onward node tick request memory [] request memory
  | resumes {request memory id status next remembered visits request' memory'}
      (located : node.locate request = .ok id)
      (move : ∀ stage, tick.resume memory (.ok status) stage = .ask next stage remembered)
      (later : Onward node tick next remembered visits request' memory') :
      Onward node tick request memory ((id, status) :: visits) request' memory'

namespace Activation
variable {descend : NodeId → Walk W T Status} {node : Node W} {tick : Tick W}
  {request request' : Request} {memory memory' : tick.Memory} {visits : List (NodeId × Status)}
  {m middle : Moment W T}

theorem converseOnward (onward : Onward node tick request memory visits request' memory')
    (succession : Succession descend m visits middle) (patience : Nat) :
    converse descend node tick patience (.ask request m.stage memory) m.openNodes m.seen =
      if visits.length ≤ patience then
        converse descend node tick (patience - visits.length) (.ask request' middle.stage memory')
          middle.openNodes middle.seen
      else none := by
  induction onward generalizing m patience with
  | here =>
    cases succession
    rfl
  | resumes located move _ ih =>
    cases succession with
    | next came later =>
      cases patience with
      | zero => rfl
      | succ patience =>
        rw [converseAsk, serveOffered located, came]
        simp only [Option.map_some, Option.bind_some, move, ih later, List.length_cons,
          Nat.add_le_add_iff_right, Nat.reduceSubDiff]

variable (onward : Onward node tick request memory visits request' memory')
  (succession : Succession descend m visits middle) {id : NodeId}
  (located : node.locate request' = .ok id)
include onward succession located

theorem converseAnswers {status last result} (came : descend id middle = some (status, last))
    (move : ∀ stage, tick.resume memory' (.ok status) stage = .answer result stage)
    (patience : Nat) :
    converse descend node tick patience (.ask request m.stage memory) m.openNodes m.seen =
      if visits.length < patience then some (result, last) else none := by
  rw [converseOnward onward succession]
  by_cases enough : visits.length < patience
  · obtain ⟨more, rfl⟩ : ∃ more, patience = visits.length + (more + 1) :=
      ⟨patience - visits.length - 1, by omega⟩
    rw [if_pos (by omega), if_pos enough, Nat.add_sub_cancel_left, converseAsk,
      serveOffered located, came]
    simp only [Option.map_some, Option.bind_some, move]
    cases more <;> rfl
  · rw [if_neg enough]
    by_cases last : visits.length = patience
    · rw [if_pos (by omega), last, Nat.sub_self]
      rfl
    · rw [if_neg (by omega)]

theorem converseStuck (stuck : descend id middle = none) (patience : Nat) :
    converse descend node tick patience (.ask request m.stage memory) m.openNodes m.seen =
      none := by
  rw [converseOnward onward succession]
  split
  · cases left : patience - visits.length with
    | zero => rfl
    | succ more =>
      rw [converseAsk, serveOffered located, stuck]
      rfl
  · rfl

end Activation

section Call
variable [Observer W T]

def Node.called (node : Node W) (m : Moment W T) : Moment W T :=
  m.see (.called node.id .tick m.stage)

def Node.returned (node : Node W) (result : Except CallbackError Outcome) (m : Moment W T) :
    Moment W T :=
  m.see (.returned node.id .tick (.ofOutcome result))

theorem Activation.tickNodePlays {scene : Scene W} {descend : NodeId → Walk W T Status}
    {node : Node W} {tick : Tick W} (ticks : node.content.behavior.tick = some tick)
    (m : Moment W T) :
    tickNode scene descend node m =
      (converse descend node tick scene.patience (tick.start node.view (node.called m).stage)
        (node.called m).openNodes (node.called m).seen).map fun (result, told) =>
          (result, node.returned result told) := by
  change (tickNode.played scene descend node m).bind _ = _
  simp only [tickNode.played, ticks]
  change Option.bind (converse _ _ _ _ (tick.start node.view (node.called m).stage)
    (node.called m).openNodes (node.called m).seen) _ = _
  cases converse descend node tick scene.patience (tick.start node.view (node.called m).stage)
    (node.called m).openNodes (node.called m).seen <;> rfl

end Call

end BehaviorTree

import BehaviorTree.Native
import BehaviorTree.Proofs.Evaluation.Derivation

/-! What the native behaviors make of their children. They come in four families. A tick asks for
children one after the other and answers from their statuses alone; which it asks for, and when
it stops, is said here once, in whatever way the children are evaluated. -/
namespace BehaviorTree

variable {W : Type}

def Node.indexed (node : Node W) : List NodeId :=
  if node.kind = .composite then node.children else []

theorem Node.countIndexed (node : Node W) : node.view.childCount = node.indexed.length := by
  unfold Node.view Node.indexed
  split <;> rfl

theorem Node.locateIndexed {node : Node W} {index id} (there : node.indexed[index]? = some id) :
    node.locate (.childAt index) = .ok id := by
  unfold Node.indexed at there
  unfold Node.locate
  split at there
  · rename_i composite
    simp only [composite, if_true, there]
  · simp at there

theorem Node.locateNext {node : Node W} {index id rest}
    (left : node.indexed.drop index = id :: rest) : node.locate (.childAt index) = .ok id :=
  node.locateIndexed (by rw [← List.head?_drop, left, List.head?_cons])

namespace Native

inductive Policy where
  | constant (status : Status)
  | inOrder (passing : Status)
  | inverting
  | repeating (unbounded : Bool) (again : Status → Bool)

def policy : Native → Policy
  | succeeder => .constant .success
  | failer => .constant .failure
  | runner => .constant .running
  | error => .constant .error
  | sequence => .inOrder .success
  | priority => .inOrder .failure
  | inverter => .inverting
  | repeater => .repeating false isFinished
  | repeatUntilFailure => .repeating true (· == .success)
  | repeatUntilSuccess => .repeating true (· == .failure)

def Policy.tick : Policy → Tick W
  | constant status => .ofStatus status
  | inOrder passing => Native.inOrder passing
  | inverting => Native.inverting
  | repeating unbounded again => Native.repeating unbounded again

theorem repeatingRefused {v : View} {unbounded : Bool} {e : CallbackError}
    (refused : maxLoop v.properties unbounded = .error e) (again : Status → Bool)
    (stage : Stage W) : (repeating unbounded again).start v stage = .answer (.error e) stage := by
  simp only [repeating, refused]

theorem repeatingStarts {v : View} {unbounded : Bool} {bound : Option UInt64}
    (valid : maxLoop v.properties unbounded = .ok bound) (again : Status → Bool)
    (stage : Stage W) :
    (repeating unbounded again).start v stage = .ask .child stage (Rounds.mk bound 1) := by
  simp only [repeating, valid]

theorem maxLoopWord {properties : Properties} {value : Json} {word : UInt64}
    (found : properties.get? maxLoopName = some value) (read : value.word? = some word)
    (positive : 1 ≤ word) (unbounded : Bool) : maxLoop properties unbounded = .ok (some word) := by
  unfold maxLoop
  simp only [found, read, if_pos positive]

theorem maxLoopWhole {properties : Properties} {most : Nat}
    (found : properties.get? maxLoopName = some (.whole most)) (positive : 1 ≤ most)
    (word : most < UInt64.size) (unbounded : Bool) :
    maxLoop properties unbounded = .ok (some (UInt64.ofNat most)) := by
  have same : (UInt64.ofNat most).toNat = most := UInt64.toNat_ofNat_of_lt word
  refine maxLoopWord found ?_ ?_ unbounded
  · rw [UInt64.size] at word
    rw [Json.word?, if_pos ⟨by omega, by omega⟩, Int.toNat_natCast]
  · rw [UInt64.le_iff_toNat_le, same]
    exact positive

theorem tickOfPolicy (n : Native) : (n.tick : Tick W) = n.policy.tick := by
  cases n <;> rfl

/- Children in order, up to the first whose status does not pass. -/
inductive UpTo (passing : Status) : List NodeId → List (NodeId × Status) → Status → Prop where
  | nothing : UpTo passing [] [] passing
  | stops {id rest status} (other : status ≠ passing) :
      UpTo passing (id :: rest) [(id, status)] status
  | passes {id rest visits status} (later : UpTo passing rest visits status) :
      UpTo passing (id :: rest) ((id, passing) :: visits) status

inductive Repeats (bound : Option UInt64) (again : Status → Bool) (id : NodeId) :
    UInt64 → List (NodeId × Status) → Status → Prop where
  | stops {done status} (ends : (Rounds.another ⟨bound, done⟩ && again status) = false) :
      Repeats bound again id done [(id, status)] status
  | goesOn {done status visits result}
      (more : (Rounds.another ⟨bound, done⟩ && again status) = true)
      (later : Repeats bound again id (done + 1) visits result) :
      Repeats bound again id done ((id, status) :: visits) result

namespace Policy

inductive Decides (node : Node W) :
    Policy → List (NodeId × Status) → Except CallbackError Status → Prop where
  | constant (status) : Decides node (.constant status) [] (.ok status)
  | inOrder {passing visits status} (upTo : UpTo passing node.indexed visits status) :
      Decides node (.inOrder passing) visits (.ok status)
  | inverts {id} (located : node.locate .child = .ok id) (status) :
      Decides node .inverting [(id, status)] (.ok status.invert)
  | invertsNone {e} (located : node.locate .child = .error e) :
      Decides node .inverting [] (.error e)
  | repeats {unbounded again bound id visits status}
      (valid : maxLoop node.content.properties unbounded = .ok bound)
      (located : node.locate .child = .ok id) (rounds : Repeats bound again id 1 visits status) :
      Decides node (.repeating unbounded again) visits (.ok status)
  | repeatsNone {unbounded again bound e}
      (valid : maxLoop node.content.properties unbounded = .ok bound)
      (located : node.locate .child = .error e) :
      Decides node (.repeating unbounded again) [] (.error e)
  | invalid {unbounded again e} (refused : maxLoop node.content.properties unbounded = .error e) :
      Decides node (.repeating unbounded again) [] (.error e)

end Policy

variable {node : Node W} {visits : List (NodeId × Status)}

theorem UpTo.among {passing : Status} {children status}
    (upTo : UpTo passing children visits status) : ∀ visit ∈ visits, visit.1 ∈ children := by
  induction upTo with
  | nothing => simp
  | stops => simp
  | passes _ ih =>
    refine List.forall_mem_cons.mpr ⟨List.mem_cons_self, fun visit mem => ?_⟩
    exact List.mem_cons_of_mem _ (ih visit mem)

theorem Repeats.same {bound : Option UInt64} {again : Status → Bool} {id done status}
    (rounds : Repeats bound again id done visits status) : ∀ visit ∈ visits, visit.1 = id := by
  induction rounds with
  | stops => simp
  | goesOn _ _ ih => exact List.forall_mem_cons.mpr ⟨rfl, ih⟩

theorem Policy.Decides.located {policy : Policy} {decision}
    (decides : policy.Decides node visits decision) :
    ∀ visit ∈ visits, ∃ request, node.locate request = .ok visit.1 := by
  cases decides with
  | inOrder upTo =>
    intro visit mem
    obtain ⟨index, there⟩ := List.mem_iff_getElem?.mp (upTo.among visit mem)
    exact ⟨_, node.locateIndexed there⟩
  | inverts located => simpa using ⟨_, located⟩
  | repeats _ located rounds =>
    intro visit mem
    exact ⟨_, rounds.same visit mem ▸ located⟩
  | _ => simp

end Native

namespace Derivation
open Native
inductive InTurn (evaluated : Judgement W) :
    Standing W → List (NodeId × Status) → Timeline W → Standing W → Prop where
  | done (s) : InTurn evaluated s [] [] s
  | next {s id t status middle visits u last} (asked : evaluated id s t status middle)
      (later : InTurn evaluated middle visits u last) :
      InTurn evaluated s ((id, status) :: visits) (t ++ u) last

namespace InTurn
variable {evaluated : Judgement W} {I : Standing W → Prop} {s last : Standing W}
  {visits : List (NodeId × Status)} {t : Timeline W}

theorem each (inTurn : InTurn evaluated s visits t last)
    (keeps : ∀ {id s t status last}, evaluated id s t status last → I s → I last) (here : I s) :
    ∀ visit ∈ visits, ∃ s part last, I s ∧ evaluated visit.1 s part visit.2 last ∧
      ∀ o ∈ part, o ∈ t := by
  induction inTurn with
  | done => simp
  | next asked _ ih =>
    refine List.forall_mem_cons.mpr ⟨?_, fun visit mem => ?_⟩
    · exact ⟨_, _, _, here, asked, fun _ => List.mem_append_left _⟩
    · obtain ⟨s, part, last, later, asked, within⟩ := ih (keeps asked here) visit mem
      exact ⟨s, part, last, later, asked, fun o mem => List.mem_append_right _ (within o mem)⟩

theorem keeps (inTurn : InTurn evaluated s visits t last)
    (keeps : ∀ {id s t status last}, evaluated id s t status last → I s → I last) (here : I s) :
    I last := by
  induction inTurn with
  | done => exact here
  | next asked _ ih => exact ih (keeps asked here)

theorem shown (inTurn : InTurn evaluated s visits t last)
    (keeps : ∀ {id s t status last}, evaluated id s t status last → I s → I last) (here : I s)
    {o} (mem : o ∈ t) :
    ∃ visit ∈ visits, ∃ s t last, I s ∧ evaluated visit.1 s t visit.2 last ∧ o ∈ t := by
  induction inTurn with
  | done => cases mem
  | @next _ _ _ _ _ _ _ _ asked _ ih =>
    rcases List.mem_append.mp mem with first | later
    · exact ⟨_, List.mem_cons_self, _, _, _, here, asked, first⟩
    · obtain ⟨visit, among, found⟩ := ih (keeps asked here) later
      exact ⟨visit, List.mem_cons_of_mem _ among, found⟩

end InTurn

variable {evaluated : Judgement W} {node : Node W} {openNodes : OpenNodes} {t : Timeline W}
  {result : Except CallbackError Outcome} {s last : Standing W}

-- A composite goes on to the next child, or has come to an answer.
theorem inOrderResumes (passing : Status) {index : Nat} {id rest}
    (left : node.indexed.drop index = id :: rest) (status : Status) (stage : Stage W) :
    let move := (inOrder passing).resume ⟨index, node.indexed.length⟩ (.ok status) stage
    (∃ next more, rest = next :: more ∧ status = passing ∧
        move = .ask (.childAt (index + 1)) stage ⟨index + 1, node.indexed.length⟩) ∨
      UpTo passing (id :: rest) [(id, status)] status ∧
        move = .answer (.ok (.status status)) stage := by
  have count : (node.indexed.drop index).length = (id :: rest).length := congrArg _ left
  rw [List.length_drop, List.length_cons] at count
  by_cases goesOn : status = passing ∧ index + 1 < node.indexed.length
  · cases rest with
    | nil =>
      simp only [List.length_nil] at count
      omega
    | cons next more => exact .inl ⟨next, more, rfl, goesOn.1, if_pos goesOn⟩
  · refine .inr ⟨?_, if_neg goesOn⟩
    by_cases passes : status = passing
    · cases rest with
      | nil => exact passes ▸ .passes .nothing
      | cons next more =>
        rw [List.length_cons] at count
        exact absurd ⟨passes, by omega⟩ goesOn
    · exact .stops passes

theorem Conversed.upTo {passing : Status} {index : Nat} {stage} {id rest}
    (left : node.indexed.drop index = id :: rest)
    (conversed : Conversed evaluated node (inOrder passing)
      (.ask (.childAt index) stage ⟨index, node.indexed.length⟩) openNodes t result last) :
    ∃ visits status, InTurn evaluated ⟨stage, openNodes⟩ visits t last ∧
      UpTo passing (id :: rest) visits status ∧ result = .ok (.status status) := by
  generalize asked : (Move.ask (.childAt index) stage ⟨index, node.indexed.length⟩ :
    Move W (inOrder (W := W) passing).Memory) = move at conversed
  induction conversed generalizing index stage id rest with
  | answer => cases asked
  | misses located =>
    cases asked
    cases (Node.locateNext left).symm.trans located
  | @child _ _ _ _ _ _ status middle _ _ _ located evaluates later ih =>
    cases asked
    cases (Node.locateNext left).symm.trans located
    rcases inOrderResumes passing left status middle.stage with
      ⟨next, more, rfl, rfl, move⟩ | ⟨upTo, move⟩
    · have after : node.indexed.drop (index + 1) = next :: more := by
        rw [← List.tail_drop, left, List.tail_cons]
      obtain ⟨visits, result, inTurn, upTo, same⟩ := ih after move.symm
      exact ⟨_, result, .next evaluates inTurn, .passes upTo, same⟩
    · rw [move] at later
      cases later
      exact ⟨_, status, .next evaluates (.done _), upTo, rfl⟩

theorem Conversed.repeats {unbounded : Bool} {again : Status → Bool} {bound : Option UInt64}
    {done : UInt64} {stage id} (located : node.locate .child = .ok id)
    (conversed : Conversed evaluated node (repeating unbounded again)
      (.ask .child stage ⟨bound, done⟩) openNodes t result last) :
    ∃ visits status, InTurn evaluated ⟨stage, openNodes⟩ visits t last ∧
      Repeats bound again id done visits status ∧ result = .ok (.status status) := by
  generalize asked : (Move.ask .child stage ⟨bound, done⟩ :
    Move W (repeating (W := W) unbounded again).Memory) = move at conversed
  induction conversed generalizing done stage with
  | answer => cases asked
  | misses missing =>
    cases asked
    cases located.symm.trans missing
  | @child _ _ _ _ _ _ status middle _ _ _ found evaluates later ih =>
    cases asked
    cases located.symm.trans found
    by_cases more : (Rounds.another ⟨bound, done⟩ && again status) = true
    · obtain ⟨visits, result, inTurn, repeats, same⟩ := ih (if_pos more).symm
      exact ⟨_, result, .next evaluates inTurn, .goesOn more repeats, same⟩
    · have move : (repeating unbounded again).resume ⟨bound, done⟩ (.ok status) middle.stage =
          .answer (.ok (.status status)) middle.stage := if_neg more
      rw [move] at later
      cases later
      exact ⟨_, status, .next evaluates (.done _), .stops (by simpa using more), rfl⟩

theorem Conversed.decides {policy : Policy}
    (conversed : Conversed evaluated node policy.tick (policy.tick.start node.view s.stage)
      s.openNodes t result last) :
    ∃ visits decision, InTurn evaluated s visits t last ∧ policy.Decides node visits decision ∧
      result = decision.map .status := by
  cases policy with
  | constant status =>
    cases conversed
    exact ⟨[], _, .done s, .constant status, rfl⟩
  | inOrder passing =>
    change Conversed evaluated node (inOrder passing)
      (if 0 < node.view.childCount then .ask (.childAt 0) s.stage ⟨0, node.view.childCount⟩
        else .answer (.ok (.status passing)) s.stage) _ _ _ _ at conversed
    rw [node.countIndexed] at conversed
    cases left : node.indexed with
    | nil =>
      rw [if_neg (by simp [left])] at conversed
      cases conversed
      exact ⟨[], _, .done s, .inOrder (left ▸ .nothing), rfl⟩
    | cons id rest =>
      rw [if_pos (by simp [left])] at conversed
      have all : node.indexed.drop 0 = id :: rest := left
      obtain ⟨visits, status, inTurn, upTo, same⟩ := Conversed.upTo all conversed
      exact ⟨visits, .ok status, inTurn, .inOrder (left ▸ upTo), same⟩
  | inverting =>
    cases conversed with
    | misses missing later =>
      cases later
      exact ⟨[], _, .done s, .invertsNone missing, rfl⟩
    | child located evaluates later =>
      cases later
      exact ⟨_, _, .next evaluates (.done _), .inverts located _, rfl⟩
  | repeating unbounded again =>
    change Conversed evaluated node (repeating unbounded again)
      ((repeating unbounded again).start node.view s.stage) _ _ _ _ at conversed
    cases valid : maxLoop node.content.properties unbounded with
    | error e =>
      rw [repeatingRefused (v := node.view) valid] at conversed
      cases conversed
      exact ⟨[], _, .done s, .invalid valid, rfl⟩
    | ok bound =>
      rw [repeatingStarts (v := node.view) valid] at conversed
      cases located : node.locate .child with
      | ok id =>
        obtain ⟨visits, status, inTurn, rounds, same⟩ := Conversed.repeats located conversed
        exact ⟨visits, .ok status, inTurn, .repeats valid located rounds, same⟩
      | error e =>
        cases conversed with
        | misses missing later =>
          cases later
          exact ⟨[], _, .done s, .repeatsNone valid missing, rfl⟩
        | child found => cases located.symm.trans found

theorem Ticked.decides {policy : Policy} (ticks : node.content.behavior.tick = some policy.tick)
    (ticked : Ticked evaluated node s t result last) :
    ∃ talk visits decision, InTurn evaluated s visits talk last ∧
      policy.Decides node visits decision ∧ result = decision.map .status ∧
      t = .called node.id .tick s.stage :: talk ++ [.returned node.id .tick (.ofOutcome result)] := by
  cases ticked with
  | missing none => cases ticks.symm.trans none
  | played some conversed =>
    cases ticks.symm.trans some
    obtain ⟨visits, decision, inTurn, decides, same⟩ := conversed.decides
    exact ⟨_, visits, decision, inTurn, decides, same, rfl⟩

end Derivation
end BehaviorTree

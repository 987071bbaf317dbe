import BehaviorTree.Proofs.Evaluation.Enclosure
import BehaviorTree.Proofs.Session
import Mathlib.Data.List.Induction

/-! Opening and closing along a history. A watch reads the calls of one node and refuses a
tick or close that no opening made ready, and an opening while a close is due; what it
accepts is bracketed. At the end of every whole activation the flag bounds its state. -/
namespace BehaviorTree

variable {W : Type}

structure Watch where
  ready : Bool
  due : Bool
  deriving DecidableEq, Repr

namespace Watch

def see? (w : Watch) : Mark → Option Watch
  | .called .opening => if w.due then none else some w
  | .called .tick => if w.ready then some w else none
  | .called .close => if w.ready then some ⟨false, false⟩ else none
  | .returned .opening .completed => some { w with ready := true }
  | .returned .tick (.answered o) => some { w with due := w.due || o.effective.isRunning }
  | _ => some w

def run? (w : Watch) (marks : List Mark) : Option Watch := marks.foldlM see? w

theorem runAppend {w last : Watch} {before after : List Mark}
    (ok : w.run? (before ++ after) = some last) :
    ∃ middle, w.run? before = some middle ∧ middle.run? after = some last := by
  rw [run?, List.foldlM_append] at ok
  exact Option.bind_eq_some_iff.mp ok

theorem runCons {w last : Watch} {mark : Mark} {after : List Mark}
    (ok : w.run? (mark :: after) = some last) :
    ∃ next, w.see? mark = some next ∧ next.run? after = some last := by
  rw [run?, List.foldlM_cons] at ok
  exact Option.bind_eq_some_iff.mp ok

theorem runJoin {w middle last : Watch} {before after : List Mark}
    (ok : w.run? before = some middle) (rest : middle.run? after = some last) :
    w.run? (before ++ after) = some last := by
  rw [run?, List.foldlM_append]
  exact Option.bind_eq_some_iff.mpr ⟨middle, ok, rest⟩

theorem readySee {w next : Watch} {mark : Mark} (ok : w.see? mark = some next)
    (ready : next.ready = true) :
    mark = .returned .opening .completed ∨ (w.ready = true ∧ mark ≠ .called .close) := by
  unfold see? at ok
  split at ok
  · split at ok
    · contradiction
    · cases ok
      exact .inr ⟨ready, by simp⟩
  · split at ok
    · cases ok
      exact .inr ⟨ready, by simp⟩
    · contradiction
  · split at ok
    · cases ok
      contradiction
    · contradiction
  · exact .inl rfl
  · cases ok
    exact .inr ⟨ready, by simp⟩
  · rename_i other _ _
    cases ok
    exact .inr ⟨ready, fun same => other same⟩

theorem readyRun {w last : Watch} {marks : List Mark} (closed : w.ready = false)
    (ok : w.run? marks = some last) (ready : last.ready = true) :
    ∃ earlier between, marks = earlier ++ .returned .opening .completed :: between ∧
      .called .close ∉ between := by
  induction marks using List.reverseRecOn generalizing last with
  | nil =>
    cases ok
    rw [closed] at ready
    contradiction
  | append_singleton marks mark ih =>
    obtain ⟨middle, before, rest⟩ := runAppend ok
    obtain ⟨next, seen, rest⟩ := runCons rest
    cases rest
    rcases readySee seen ready with rfl | ⟨was, other⟩
    · exact ⟨marks, [], rfl, by simp⟩
    · obtain ⟨earlier, between, rfl, quiet⟩ := ih before was
      refine ⟨earlier, between ++ [mark], by simp, ?_⟩
      intro mem
      rcases List.mem_append.mp mem with mem | mem
      · exact quiet mem
      · exact other (List.mem_singleton.mp mem).symm

theorem dueSee {w next : Watch} {mark : Mark} (ok : w.see? mark = some next) (due : w.due = true)
    (other : mark ≠ .called .close) : next.due = true := by
  unfold see? at ok
  split at ok
  · rw [due] at ok
    contradiction
  · split at ok
    · cases ok
      exact due
    · contradiction
  · contradiction
  · cases ok
    exact due
  · cases ok
    simp [due]
  · cases ok
    exact due

theorem dueRun {w last : Watch} {marks : List Mark} (ok : w.run? marks = some last)
    (due : w.due = true) (quiet : .called .close ∉ marks) : last.due = true := by
  induction marks generalizing w with
  | nil =>
    cases ok
    exact due
  | cons mark marks ih =>
    obtain ⟨next, seen, rest⟩ := runCons ok
    have still := dueSee seen due fun same => quiet (by simp [same])
    exact ih rest still fun mem => quiet (List.mem_cons_of_mem _ mem)

/- Between activations: an open node is ready, and a closed one owes no close. -/
structure Bounds (isOpen : Bool) (w : Watch) : Prop where
  ready : isOpen = true → w.ready = true
  free : isOpen = false → w.due = false

theorem Bounds.whenOpen {w : Watch} (ready : w.ready = true) : Bounds true w :=
  ⟨fun _ => ready, fun closed => by contradiction⟩

theorem Bounds.whenClosed {w : Watch} (free : w.due = false) : Bounds false w :=
  ⟨fun opened => by contradiction, fun _ => free⟩

theorem readyCalls {w : Watch} {isOpen : Bool} (bounds : Bounds isOpen w) :
    w.run? ((Call.ready isOpen).flatMap Call.marks) = some { w with ready := true } := by
  cases isOpen with
  | true =>
    have same : w = { w with ready := true } := by
      rw [← bounds.ready rfl]
    rw [← same]
    rfl
  | false => simp [Call.ready, Call.marks, run?, see?, bounds.free rfl]

theorem courseRun {w : Watch} {id wasOpen calls soFar isOpen} (bounds : Bounds wasOpen w)
    (course : Course id wasOpen calls soFar isOpen) :
    ∃ last, w.run? (calls.flatMap Call.marks) = some last ∧ Bounds isOpen last := by
  have called := readyCalls bounds
  cases course with
  | enterFails => exact ⟨w, rfl, bounds⟩
  | openFails _ closed =>
    refine ⟨w, ?_, bounds⟩
    simp [Call.marks, run?, see?, bounds.free closed]
  | tickFails =>
    rw [List.flatMap_append]
    exact ⟨_, runJoin called rfl, ⟨fun _ => rfl, bounds.free⟩⟩
  | stays =>
    rw [List.flatMap_append]
    exact ⟨_, runJoin called rfl, .whenOpen rfl⟩
  | closes =>
    rw [List.flatMap_append]
    exact ⟨_, runJoin called rfl, .whenClosed rfl⟩
  | closeFails =>
    rw [List.flatMap_append]
    exact ⟨_, runJoin called rfl, .whenClosed rfl⟩

theorem visitsRun {id calls isOpen} (visits : Visits id false calls isOpen) :
    ∃ last, Watch.run? ⟨false, false⟩ (calls.flatMap Call.marks) = some last ∧
      Bounds isOpen last := by
  induction visits with
  | none => exact ⟨_, rfl, .whenClosed rfl⟩
  | more _ course exit ih =>
    obtain ⟨middle, before, bounds⟩ := ih
    obtain ⟨last, ran, bounds⟩ := courseRun bounds course
    refine ⟨last, ?_, bounds⟩
    rw [List.flatMap_append, List.flatMap_append]
    exact runJoin before (runJoin ran rfl)

end Watch

namespace Timeline

theorem marksCalling (before after : Timeline W) (id : NodeId) (step : Step) (stage : Stage W) :
    Timeline.marks (before ++ .called id step stage :: after) id =
      before.marks id ++ .called step :: after.marks id := by
  simp [marks, Occurrence.mark?]

theorem marksReturning (before after : Timeline W) (id : NodeId) (step : Step) (result : Return) :
    Timeline.marks (before ++ .returned id step result :: after) id =
      before.marks id ++ .returned step result :: after.marks id := by
  simp [marks, Occurrence.mark?]

theorem splitAtReturn {t : Timeline W} {id step result earlier between}
    (split : t.marks id = earlier ++ .returned step result :: between) :
    ∃ before after : Timeline W, t = before ++ .returned id step result :: after ∧
      after.marks id = between := by
  obtain ⟨before, rest, rfl, _, later⟩ := List.filterMap_eq_append_iff.mp split
  obtain ⟨silent, o, after, rfl, _, here, last⟩ := List.filterMap_eq_cons_iff.mp later
  refine ⟨before ++ silent, after, ?_, last⟩
  rw [← markReturned here, List.append_assoc]

end Timeline

/- A call is performed by the node that a tree of some run had there, with the content that the
node has kept since. -/
def Attributed (subject : SubjectId) (tree : Tree W) (id : NodeId) (step : Step)
    (stage : Stage W) (after : Timeline W) : Prop :=
  ∃ scene : Scene W, scene.subject = subject ∧ Owned scene id step stage after ∧
    ∃ node kept, scene.tree.node? id = some node ∧ tree.node? id = some kept ∧
      kept.content = node.content

theorem Owned.attributed {scene : Scene W} {id step stage} {after : Timeline W}
    (owned : Owned scene id step stage after) :
    Attributed scene.subject scene.tree id step stage after := by
  have performed := owned
  cases owned with
  | intro found => exact ⟨scene, rfl, performed, _, _, found, found, rfl⟩

theorem Session.attributed {subject} {tree : Tree W} {openNodes history}
    (session : Session subject tree openNodes history) {before after : Timeline W} {id step stage}
    (split : history = before ++ .called id step stage :: after) :
    Attributed subject tree id step stage after := by
  induction session generalizing before after with
  | start => simp at split
  | edit _ ok ih =>
    obtain ⟨scene, same, owned, node, kept, found, here, content⟩ := ih split
    obtain ⟨edited, there, content'⟩ := Tree.keptByEdit ok here
    exact ⟨scene, same, owned, node, edited, found, there, content'.trans content⟩
  | @run tree openNodes history earlier plan patience world report left ok ih =>
    rcases Timeline.splitAppend split with ⟨rest, here, rfl⟩ | ⟨inner, rfl, here⟩
    · obtain ⟨scene, same, owned, kept⟩ := ih here
      exact ⟨scene, same, owned.longer _, kept⟩
    · rcases Plan.runSound ok with ⟨_, rfl, _⟩ |
        ⟨_, equipped, t, _, _, _, shown, seen, _, _, evaluates⟩
      · simp [Report.idle, Observer.start] at here
      · obtain ⟨before, there⟩ : ∃ before, t = before ++ .called id step stage :: after := by
          rw [seen] at here
          rcases shown with rfl | ⟨_, rfl⟩
          · exact ⟨inner, here⟩
          · obtain ⟨before, _, there⟩ := Timeline.splitEquipped here (by simp [Occurrence.node?])
            exact ⟨before, there⟩
        exact (evaluates.owned earlier.built.forest there).attributed

structure Bracketed (subject : SubjectId) (tree : Tree W) (id : NodeId) (history : Timeline W) :
    Prop where
  opened : ∀ {before step stage after}, history = before ++ .called id step stage :: after →
    step = .tick ∨ step = .close →
    ∃ earlier between, before = earlier ++ .returned id .opening .completed :: between ∧
      ¬ Timeline.calls between id .close
  closed : ∀ {before outcome between stage after},
    history = before ++ .returned id .tick (.answered outcome) ::
      (between ++ .called id .opening stage :: after) →
    outcome.effective = .running → Timeline.calls between id .close
  performed : ∀ {before step stage after}, history = before ++ .called id step stage :: after →
    Attributed subject tree id step stage after

theorem openedOfWatch {id} {history : Timeline W} {last}
    (ok : Watch.run? ⟨false, false⟩ (history.marks id) = some last) {before step stage after}
    (split : history = before ++ .called id step stage :: after)
    (which : step = .tick ∨ step = .close) :
    ∃ earlier between, before = earlier ++ .returned id .opening .completed :: between ∧
      ¬ Timeline.calls between id .close := by
  rw [split, Timeline.marksCalling] at ok
  obtain ⟨middle, ran, rest⟩ := Watch.runAppend ok
  obtain ⟨next, accepted, _⟩ := Watch.runCons rest
  have ready : middle.ready = true := by
    rcases which with rfl | rfl <;>
      · simp only [Watch.see?] at accepted
        split at accepted
        · assumption
        · contradiction
  obtain ⟨_, between, earlier, quiet⟩ := Watch.readyRun rfl ran ready
  obtain ⟨first, later, rfl, rfl⟩ := Timeline.splitAtReturn earlier
  exact ⟨first, later, rfl, fun called => quiet (Timeline.marksCalled.mpr called)⟩

theorem closedOfWatch {id} {history : Timeline W} {last}
    (ok : Watch.run? ⟨false, false⟩ (history.marks id) = some last)
    {before outcome between stage after}
    (split : history = before ++ .returned id .tick (.answered outcome) ::
      (between ++ .called id .opening stage :: after))
    (running : outcome.effective = .running) : Timeline.calls between id .close := by
  by_contra quiet
  rw [split, Timeline.marksReturning, Timeline.marksCalling] at ok
  obtain ⟨_, _, rest⟩ := Watch.runAppend ok
  obtain ⟨next, accepted, rest⟩ := Watch.runCons rest
  obtain ⟨middle, ran, rest⟩ := Watch.runAppend rest
  obtain ⟨_, refused, _⟩ := Watch.runCons rest
  have owed : next.due = true := by
    cases accepted
    simp [running, Status.isRunning]
  have due := Watch.dueRun ran owed fun mem => quiet (Timeline.marksCalled.mp mem)
  simp [Watch.see?, due] at refused

theorem opensBracketTicks {subject} {tree : Tree W} {openNodes history}
    (session : Session subject tree openNodes history) (id : NodeId) :
    Bracketed subject tree id history := by
  obtain ⟨calls, marked, visits⟩ := session.visited id
  obtain ⟨last, ok, _⟩ := Watch.visitsRun visits
  rw [← marked] at ok
  exact ⟨openedOfWatch ok, closedOfWatch ok, session.attributed⟩

theorem bracketedTwice : ∃ history openNodes,
    Session ⟨0⟩ (Tree.sapling .echo) openNodes history ∧ history.calls ⟨0⟩ .close ∧
      Bracketed ⟨0⟩ (Tree.sapling .echo) ⟨0⟩ history := by
  have planted := Session.sapling ⟨0⟩ .echo
  have running := planted.ran {} 0 (.ok (.status .running)) (by decide +kernel)
  have ended := running.ran {} 0 (.ok (.status .success)) (by decide +kernel)
  exact ⟨_, _, ended, Timeline.marksCalled.mp (by decide +kernel), opensBracketTicks ended ⟨0⟩⟩

end BehaviorTree

import BehaviorTree.Codec
import BehaviorTree.Proofs.Json
import Mathlib.Data.List.Forall2

/-! Trace logs as data. The text written of a log is read back as the same log. What else is read as
one is told by its fields, wherever they stand and whatever stands beside them, and comes back from
what is written of it. -/
namespace BehaviorTree

theorem mapExact {α β : Type*} {f : α → Option β} {items : List α} {found : List β} :
    items.mapM f = some found ↔ List.Forall₂ (fun a b => f a = some b) items found := by
  induction items generalizing found with
  | nil => simp [eq_comm]
  | cons first rest ih =>
    simp only [List.mapM_cons, bind, Option.bind_eq_some_iff, List.forall₂_cons_left_iff, ih]
    constructor
    · rintro ⟨head, here, tail, there, same⟩
      cases same
      exact ⟨head, tail, here, there, rfl⟩
    · rintro ⟨head, tail, here, there, rfl⟩
      exact ⟨head, here, tail, there, rfl⟩

namespace Json

inductive Names (name : String) : Json → Prop where
  | text : Names name (.text name)
  | tagged : Names name (.object [(name, .null)])

theorem variantExact {j : Json} {name : String} : j.variant? = some name ↔ j.Names name := by
  constructor
  · intro read
    unfold variant? at read
    split at read <;> cases read
    · exact .text
    · exact .tagged
  · intro names
    cases names <;> rfl

theorem wordExact {j : Json} {n : UInt64} : j.word? = some n ↔ j = .ofWord n := by
  constructor
  · intro read
    unfold word? at read
    split at read
    · rename_i value
      split at read <;> cases read
      rename_i bounds
      have small : (UInt64.ofNat value.toNat).toNat = value.toNat :=
        UInt64.toNat_ofNat_of_lt' (by rw [UInt64.size]; omega)
      rw [ofWord, small, Int.toNat_of_nonneg bounds.1]
    · contradiction
  · rintro rfl
    exact wordOfWord n

end Json

namespace Trace

inductive StatusForm : Option Json → Option Status → Prop where
  | missing : StatusForm none none
  | null : StatusForm (some .null) none
  | given {j : Json} {s : Status} (names : j.Names s.name) : StatusForm (some j) (some s)

theorem phaseExact {j : Json} {p : Phase} : Phase.ofJson? j = some p ↔ j.Names p.name := by
  simp only [Phase.ofJson?, Option.bind_eq_some_iff, Phase.ofNameIff,
    ← Json.variantExact, exists_eq_right]

theorem statusExact {j : Json} {s : Option Status} :
    Event.status? j = some s ↔ StatusForm (some j) s := by
  unfold Event.status?
  split
  · constructor
    · intro same
      cases same
      exact .null
    · intro form
      cases form with
      | null => rfl
      | given names => cases names
  · rename_i other
    simp only [Status.ofJson?, Option.map_eq_some_iff, Option.bind_eq_some_iff,
      Status.ofNameIff, Json.variantExact]
    constructor
    · rintro ⟨s, ⟨_, names, rfl⟩, rfl⟩
      exact .given names
    · intro form
      cases form with
      | null => exact absurd rfl other
      | given names => exact ⟨_, ⟨_, names, rfl⟩, rfl⟩

theorem statusMissing {found : Option Json} {s : Option Status} :
    StatusForm (some (found.getD .null)) s ↔ StatusForm found s := by
  cases found with
  | some j => rfl
  | none =>
    constructor
    · intro form
      cases form with
      | null => exact .missing
      | given names => cases names
    · intro form
      cases form
      exact .null

namespace Event

inductive Form : Json → Event → Prop where
  | object {fields e phase}
      (subject : (Json.object fields).field? "subject" = some e.subject.toJson)
      (node : (Json.object fields).field? "node" = some e.node.toJson)
      (phased : (Json.object fields).field? "phase" = some phase) (names : phase.Names e.phase.name)
      (status : StatusForm ((Json.object fields).field? "status") e.status) :
      Form (.object fields) e
  | array {e phase status} (names : phase.Names e.phase.name)
      (given : StatusForm (some status) e.status) :
      Form (.array [e.subject.toJson, e.node.toJson, phase, status]) e

theorem fieldsExact {subject node phase status : Json} {e : Event} :
    ofFields? subject node phase status = some e ↔
      subject = e.subject.toJson ∧ node = e.node.toJson ∧ phase.Names e.phase.name ∧
        StatusForm (some status) e.status := by
  simp only [ofFields?, bind, Option.bind_eq_some_iff, phaseExact, statusExact, SubjectId.ofJson?,
    NodeId.ofJson?, Option.map_eq_some_iff, Json.wordExact]
  constructor
  · rintro ⟨_, ⟨n, rfl, rfl⟩, _, ⟨m, rfl, rfl⟩, _, names, _, form, same⟩
    cases same
    exact ⟨rfl, rfl, names, form⟩
  · rintro ⟨rfl, rfl, names, form⟩
    exact ⟨_, ⟨_, rfl, rfl⟩, _, ⟨_, rfl, rfl⟩, _, names, _, form, rfl⟩

theorem formExact {j : Json} {e : Event} : ofJson? j = some e ↔ Form j e := by
  constructor
  · intro read
    unfold ofJson? at read
    split at read
    · obtain ⟨rfl, rfl, names, given⟩ := fieldsExact.mp read
      exact .array names given
    · unfold ofObject? at read
      split at read
      · rename_i subject node phase foundSubject foundNode foundPhase
        obtain ⟨rfl, rfl, names, given⟩ := fieldsExact.mp read
        exact .object foundSubject foundNode foundPhase names (statusMissing.mp given)
      · contradiction
    · contradiction
  · intro form
    cases form with
    | object subject node phased names status =>
      rw [ofJson?, ofObject?, subject, node, phased]
      exact fieldsExact.mpr ⟨rfl, rfl, names, statusMissing.mpr status⟩
    | array names given => exact fieldsExact.mpr ⟨rfl, rfl, names, given⟩

theorem objectSame {fields fields' : List (String × Json)}
    (same : ∀ key ∈ ["subject", "node", "phase"],
      (Json.object fields).field? key = (Json.object fields').field? key)
    (status : ((Json.object fields).field? "status").getD .null =
      ((Json.object fields').field? "status").getD .null) :
    ofJson? (.object fields) = ofJson? (.object fields') := by
  have subject := same "subject" (by decide)
  have node := same "node" (by decide)
  have phase := same "phase" (by decide)
  simp only [ofJson?, ofObject?, subject, node, phase, status]

/- Changes to the fields of an event that say nothing new: another order, a field that events do not
have, null for a status that is missing. -/
inductive Respelled : List (String × Json) → List (String × Json) → Prop where
  | order {fields fields'} (perm : fields.Perm fields') (distinct : (fields.map Prod.fst).Nodup) :
      Respelled fields fields'
  | unknown {fields key} (j : Json) (aside : key ∉ ["status", "subject", "node", "phase"]) :
      Respelled fields ((key, j) :: fields)
  | status {fields} (missing : "status" ∉ fields.map Prod.fst) :
      Respelled fields (("status", .null) :: fields)

theorem Respelled.same {fields fields' : List (String × Json)}
    (respelled : Respelled fields fields') :
    ofJson? (.object fields) = ofJson? (.object fields') := by
  cases respelled with
  | order perm distinct =>
    have found (key : String) :
        (Json.object fields).field? key = (Json.object fields').field? key :=
      SortedMap.Entries.findPerm perm distinct
    exact objectSame (fun key _ => found key) (congrArg (·.getD .null) (found "status"))
  | @unknown key j aside =>
    have found {name : String} (known : name ∈ ["status", "subject", "node", "phase"]) :
        (Json.object fields).field? name = (Json.object ((key, j) :: fields)).field? name :=
      (SortedMap.Entries.findAside fun same : name = key => aside (same ▸ known)).symm
    exact objectSame (fun _ mem => found (List.mem_cons_of_mem _ mem))
      (congrArg (·.getD .null) (found List.mem_cons_self))
  | status missing =>
    have none : (Json.object fields).field? "status" = none :=
      SortedMap.Entries.findMissing missing
    refine objectSame (fun key mem => ?_) (by rw [none]; rfl)
    have other : key ≠ "status" := by
      rintro rfl
      contradiction
    exact (SortedMap.Entries.findAside other).symm

theorem tidy (e : Event) : e.toJson.Tidy := by
  have status : (Json.ofOption Status.toJson e.status).Tidy := by
    cases e.status with
    | none => exact .null
    | some s => exact .text s.name
  have keys : ["node", "phase", "status", "subject"].Pairwise fun a b => compare a b = .lt := by
    decide
  refine .ofKeys keys fun field mem => ?_
  simp only [List.mem_cons, List.not_mem_nil, or_false] at mem
  rcases mem with rfl | rfl | rfl | rfl
  · exact .ofWord _
  · exact .text _
  · exact status
  · exact .ofWord _

end Event

namespace Log

inductive Form : Json → Log → Prop where
  | object {fields items log} (found : (Json.object fields).field? "events" = some (.array items))
      (events : List.Forall₂ Event.Form items log.events) : Form (.object fields) log
  | array {items log} (events : List.Forall₂ Event.Form items log.events) :
      Form (.array [.array items]) log

theorem eventsExact {j : Json} {log : Log} :
    ofEvents? j = some log ↔
      ∃ items, j = .array items ∧ List.Forall₂ Event.Form items log.events := by
  constructor
  · intro read
    unfold ofEvents? at read
    split at read
    · rename_i items
      obtain ⟨events, found, rfl⟩ := Option.map_eq_some_iff.mp read
      rw [eventsOfEvents]
      exact ⟨items, rfl, (mapExact.mp found).imp fun _ _ => Event.formExact.mp⟩
    · contradiction
  · rintro ⟨items, rfl, forms⟩
    refine Option.map_eq_some_iff.mpr ⟨log.events, ?_, ?_⟩
    · exact mapExact.mpr (forms.imp fun _ _ => Event.formExact.mpr)
    · exact extEvents (eventsOfEvents _)

theorem formExact {j : Json} {log : Log} : ofJson? j = some log ↔ Form j log := by
  constructor
  · intro read
    unfold ofJson? at read
    split at read
    · obtain ⟨items, rfl, events⟩ := eventsExact.mp read
      exact .array events
    · obtain ⟨_, found, listed⟩ := Option.bind_eq_some_iff.mp read
      obtain ⟨items, rfl, events⟩ := eventsExact.mp listed
      exact .object found events
    · contradiction
  · intro form
    cases form with
    | object found events =>
      exact Option.bind_eq_some_iff.mpr ⟨_, found, eventsExact.mpr ⟨_, rfl, events⟩⟩
    | array events => exact eventsExact.mpr ⟨_, rfl, events⟩

theorem formToJson (log : Log) : Form log.toJson log := by
  refine .object rfl ?_
  rw [List.forall₂_map_left_iff, List.forall₂_same]
  exact fun e _ => Event.formExact.mp (Event.ofToJson e)

theorem tidy (log : Log) : log.toJson.Tidy := by
  have events : (Json.ofList Event.toJson log.events).Tidy := by
    refine .array fun item mem => ?_
    obtain ⟨e, -, rfl⟩ := List.mem_map.mp mem
    exact e.tidy
  refine .object (List.pairwise_singleton _ _) fun field mem => ?_
  rw [List.mem_singleton] at mem
  rw [mem]
  exact events

theorem readText (log : Log) : (Json.read? log.toJson.compact).bind ofJson? = some log := by
  rw [Json.readCompact log.tidy]
  exact formExact.mpr (formToJson log)

theorem rewritten (j : Json) :
    (((ofJson? j).map fun log => log.toJson.compact).bind Json.read?).bind ofJson? = ofJson? j := by
  cases ofJson? j with
  | none => rfl
  | some log => exact log.readText

theorem logsReadBack :
    (∀ log, (Json.read? log.toJson.compact).bind ofJson? = some log) ∧
    (∀ j log, ofJson? j = some log ↔ Form j log) ∧
    (∀ fields fields', Event.Respelled fields fields' →
      Event.ofJson? (.object fields) = Event.ofJson? (.object fields')) ∧
    ∀ j, (((ofJson? j).map fun log => log.toJson.compact).bind Json.read?).bind ofJson? =
      ofJson? j :=
  ⟨readText, fun _ _ => formExact, fun _ _ => Event.Respelled.same, rewritten⟩

theorem logsReadBackReversed :
    let fields := [("node", Json.whole 18446744073709551615), ("phase", .text "Tick"),
      ("subject", .whole 5)]
    Event.Respelled fields fields.reverse ∧
      Event.ofJson? (.object fields.reverse) =
        some { subject := ⟨5⟩, node := ⟨18446744073709551615⟩, phase := .tick } := by
  intro fields
  have respelled : Event.Respelled fields fields.reverse :=
    .order (List.reverse_perm fields).symm (by decide)
  exact ⟨respelled, (logsReadBack.2.2.1 _ _ respelled).symm.trans (by rfl)⟩

example :
    let event := "\x7b\"phase\": \"Tick\", \"more\": 0, \"node\": 1, \"subject\": 5\x7d"
    (Json.read? ("\x7b\"events\": [" ++ event ++ "]\x7d")).bind ofJson? =
      some (ofEvents [{ subject := ⟨5⟩, node := ⟨1⟩, phase := .tick }]) := by
  decide +kernel

end Log

end Trace
end BehaviorTree

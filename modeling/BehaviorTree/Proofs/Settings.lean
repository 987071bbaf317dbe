import BehaviorTree.Proofs.Codec
import BehaviorTree.Proofs.Yaml.Lines
import BehaviorTree.Proofs.Yaml.Value

/-! Settings from the pairs of a mapping. Each field is told by what stands under its own key: the
default where the key is absent, the value where it stands once. Keys have to be scalars; which others
there are, and in which order, does not matter. Settings come back from the text written of them. -/
namespace BehaviorTree

namespace Yaml
variable {key : String} {pairs : List Pair} {entries : List Entry}

def valuesUnder (key : String) (pairs : List Pair) : List Value :=
  pairs.filterMap fun pair => if pair.1.text? = some key then some pair.2 else none

theorem entryExact {pair : Pair} {entry : Entry} :
    pair.entry? = some entry ↔ pair.1.text? = some entry.1 ∧ pair.2 = entry.2 := by
  obtain ⟨key, value⟩ := entry
  simp [Pair.entry?, Prod.ext_iff]

theorem entriesExact : (∃ entries, pairs.mapM Pair.entry? = some entries) ↔
    ∀ pair ∈ pairs, pair.1 ≠ .collection := by
  induction pairs with
  | nil => simp
  | cons pair pairs ih =>
    obtain ⟨name, value⟩ := pair
    rw [List.forall_mem_cons, ← ih]
    cases name with
    | collection => simp [Pair.entry?, Value.text?]
    | scalar content =>
      have known : Pair.entry? (.scalar content, value) = some (content.text, value) := rfl
      simp [List.mapM_cons, known, Option.bind_eq_some_iff]

theorem valuesOfEntries (listed : pairs.mapM Pair.entry? = some entries) :
    (entries.filter fun e => e.1 = key).map Prod.snd = valuesUnder key pairs := by
  have each := mapExact.mp listed
  clear listed
  induction each with
  | nil => rfl
  | cons here _ ih =>
    obtain ⟨name, same⟩ := entryExact.mp here
    rw [valuesUnder, List.filterMap_cons, List.filter_cons, name, ← valuesUnder]
    split <;> simp_all

theorem memValues {value : Value} : value ∈ valuesUnder key pairs ↔
    ∃ pair ∈ pairs, pair.1.text? = some key ∧ pair.2 = value := by
  simp only [valuesUnder, List.mem_filterMap, Option.ite_none_right_eq_some, Option.some.injEq]

theorem valuesLength :
    (valuesUnder key pairs).length = pairs.countP fun pair => pair.1.text? = some key := by
  rw [valuesUnder, List.length_filterMap_eq_countP]
  congr 1
  funext pair
  split <;> simp_all

theorem valuesNone :
    valuesUnder key pairs = [] ↔ ∀ pair ∈ pairs, pair.1.text? ≠ some key := by
  simp [valuesUnder, List.filterMap_eq_nil_iff]

theorem valuesOne {value : Value} : valuesUnder key pairs = [value] ↔
    ∃ before name after, pairs = before ++ (name, value) :: after ∧ name.text? = some key ∧
      ∀ pair ∈ before ++ after, pair.1.text? ≠ some key := by
  have none (pairs : List Pair) :
      (∀ pair ∈ pairs, (if pair.1.text? = some key then some pair.2 else Option.none) = .none) ↔
        ∀ pair ∈ pairs, pair.1.text? ≠ some key := by simp
  simp only [valuesUnder, List.filterMap_eq_cons_iff, none, List.filterMap_eq_nil_iff]
  constructor
  · rintro ⟨before, ⟨name, held⟩, after, parted, earlier, here, later⟩
    split at here
    · rename_i named
      cases here
      refine ⟨before, name, after, parted, named, fun pair mem => ?_⟩
      exact (List.mem_append.mp mem).elim (earlier pair) (later pair)
    · contradiction
  · rintro ⟨before, name, after, parted, named, alone⟩
    exact ⟨before, (name, value), after, parted,
      fun pair mem => alone pair (List.mem_append_left after mem), if_pos named,
      fun pair mem => alone pair (List.mem_append_right before mem)⟩

end Yaml

namespace Settings
open Yaml

/- What a mapping gives under a key: the fallback where the key is absent, and the value, as it is
read, where the key stands once. -/
inductive Given {α : Type} (key : String) (reads : Value → α → Prop) (fallback : α)
    (pairs : List Pair) : α → Prop where
  | absent (away : ∀ pair ∈ pairs, pair.1.text? ≠ some key) :
      Given key reads fallback pairs fallback
  | once {before name value after a} (parted : pairs = before ++ (name, value) :: after)
      (named : name.text? = some key)
      (alone : ∀ pair ∈ before ++ after, pair.1.text? ≠ some key) (read : reads value a) :
      Given key reads fallback pairs a

structure Allowed {α : Type} (key : String) (reads : Value → α → Prop) (pairs : List Pair) :
    Prop where
  atMostOnce : pairs.countP (fun pair => pair.1.text? = some key) ≤ 1
  typed : ∀ pair ∈ pairs, pair.1.text? = some key → ∃ a, reads pair.2 a

structure Told (pairs : List Pair) (s : Settings) : Prop where
  strictArity : Given "strict_arity" Value.Boolean true pairs s.strictArity
  maxDepth : Given "max_depth" Value.Word 256 pairs s.maxDepth
  registerNatives : Given "register_natives" Value.Boolean true pairs s.registerNatives

section Fields
variable {α : Type} {key : String} {reads : Value → α → Prop} {fallback a : α} {pairs : List Pair}

theorem Given.ofNone (none : valuesUnder key pairs = []) :
    Given key reads fallback pairs fallback := .absent (valuesNone.mp none)

theorem Given.ofOne {value : Value} (one : valuesUnder key pairs = [value]) (read : reads value a) :
    Given key reads fallback pairs a := by
  obtain ⟨before, name, after, parted, named, alone⟩ := valuesOne.mp one
  exact .once parted named alone read

theorem givenExact : Given key reads fallback pairs a ↔
    (valuesUnder key pairs = [] ∧ a = fallback) ∨
      ∃ value, valuesUnder key pairs = [value] ∧ reads value a := by
  constructor
  · intro given
    cases given with
    | absent away => exact .inl ⟨valuesNone.mpr away, rfl⟩
    | once parted named alone read =>
      exact .inr ⟨_, valuesOne.mpr ⟨_, _, _, parted, named, alone⟩, read⟩
  · rintro (⟨none, rfl⟩ | ⟨value, one, read⟩)
    · exact .ofNone none
    · exact .ofOne one read

theorem allowedExact (fallback : α) :
    Allowed key reads pairs ↔ ∃ a, Given key reads fallback pairs a := by
  simp only [givenExact]
  constructor
  · rintro ⟨atMostOnce, typed⟩
    rw [← valuesLength] at atMostOnce
    cases values : valuesUnder key pairs with
    | nil => exact ⟨fallback, .inl ⟨rfl, rfl⟩⟩
    | cons value more =>
      rw [values, List.length_cons] at atMostOnce
      obtain rfl : more = [] := List.eq_nil_of_length_eq_zero (by omega)
      obtain ⟨pair, mem, named, rfl⟩ := memValues.mp (values ▸ List.mem_singleton_self value)
      obtain ⟨a, read⟩ := typed pair mem named
      exact ⟨a, .inr ⟨_, rfl, read⟩⟩
  · rintro ⟨a, ⟨none, -⟩ | ⟨value, one, read⟩⟩
    · refine ⟨?_, fun pair mem named => absurd named (valuesNone.mp none pair mem)⟩
      rw [← valuesLength, none]
      exact Nat.zero_le 1
    · refine ⟨?_, fun pair mem named => ⟨a, ?_⟩⟩
      · rw [← valuesLength, one]
        exact Nat.le_refl 1
      · have held : pair.2 ∈ valuesUnder key pairs := memValues.mpr ⟨pair, mem, named, rfl⟩
        rw [one, List.mem_singleton] at held
        exact held ▸ read

theorem Given.perm {pairs' : List Pair} (given : Given key reads fallback pairs a)
    (perm : (valuesUnder key pairs).Perm (valuesUnder key pairs')) :
    Given key reads fallback pairs' a := by
  rcases givenExact.mp given with ⟨none, rfl⟩ | ⟨value, one, read⟩
  · exact .ofNone (List.nil_perm.mp (none ▸ perm))
  · exact .ofOne (List.singleton_perm.mp (one ▸ perm)).symm read

theorem fieldExact {read : Value → Option α} {entries : List Entry}
    (exact : ∀ value a, read value = some a ↔ reads value a)
    (listed : pairs.mapM Pair.entry? = some entries) :
    field? key read fallback entries = some a ↔ Given key reads fallback pairs a := by
  rw [givenExact, ← valuesOfEntries listed, field?]
  cases entries.filter fun e => e.1 = key with
  | nil => simp [eq_comm]
  | cons entry more =>
    cases more with
    | nil => simp [exact]
    | cons second more => simp

end Fields

section Texts
variable {text : String} {pairs pairs' : List Pair} {s : Settings}

theorem toldExact {entries : List Entry} (listed : pairs.mapM Pair.entry? = some entries) :
    ofEntries? entries = some s ↔ Told pairs s := by
  simp only [ofEntries?, bind, Option.bind_eq_some_iff,
    fieldExact (fun _ _ => Value.boolExact) listed, fieldExact (fun _ _ => Value.wordExact) listed]
  constructor
  · rintro ⟨_, strictArity, _, maxDepth, _, registerNatives, same⟩
    cases same
    exact ⟨strictArity, maxDepth, registerNatives⟩
  · rintro ⟨strictArity, maxDepth, registerNatives⟩
    exact ⟨_, strictArity, _, maxDepth, _, registerNatives, rfl⟩

theorem ofTextRead (read : pairs? text = some pairs) :
    ofText text = ((pairs.mapM Pair.entry?).bind ofEntries?).elim (.error .unreadableText) .ok := by
  unfold ofText
  split
  · rename_i blank
    rw [blankPairs blank read]
    rfl
  · rw [entries?, read, Option.bind_some]
    cases (pairs.mapM Pair.entry?).bind ofEntries? <;> rfl

theorem ofTextExact (read : pairs? text = some pairs) :
    ofText text = .ok s ↔ (∀ pair ∈ pairs, pair.1 ≠ .collection) ∧ Told pairs s := by
  rw [ofTextRead read, ← entriesExact]
  cases listed : pairs.mapM Pair.entry? with
  | none => simp
  | some entries =>
    rw [← toldExact listed]
    cases found : ofEntries? entries <;> simp [found]

theorem toldSome : (∃ s, Told pairs s) ↔ Allowed "strict_arity" Value.Boolean pairs ∧
    Allowed "max_depth" Value.Word pairs ∧ Allowed "register_natives" Value.Boolean pairs := by
  rw [allowedExact true, allowedExact 256, allowedExact true]
  constructor
  · rintro ⟨s, told⟩
    exact ⟨⟨_, told.strictArity⟩, ⟨_, told.maxDepth⟩, ⟨_, told.registerNatives⟩⟩
  · rintro ⟨⟨strictArity, first⟩, ⟨maxDepth, second⟩, ⟨registerNatives, third⟩⟩
    exact ⟨⟨strictArity, maxDepth, registerNatives⟩, first, second, third⟩

theorem ofTextFailed {e : SettingsError} (failed : ofText text = .error e) :
    e = .unreadableText := by
  unfold ofText at failed
  split at failed
  · contradiction
  · split at failed <;> cases failed
    rfl

/- Texts that give the same settings, if any, are read alike. -/
theorem ofTextSame {text' : String} (same : ∀ s, ofText text = .ok s ↔ ofText text' = .ok s) :
    ofText text = ofText text' := by
  cases result : ofText text with
  | ok s => exact ((same s).mp result).symm
  | error e =>
    cases result' : ofText text' with
    | ok s => cases result.symm.trans ((same s).mpr result')
    | error e' => rw [ofTextFailed result, ofTextFailed result']

def isKnown (pair : Pair) : Bool :=
  pair.1.text?.any ["strict_arity", "max_depth", "register_natives"].contains

theorem valuesKnown (pairs : List Pair) {key : String}
    (known : key ∈ ["strict_arity", "max_depth", "register_natives"]) :
    valuesUnder key (pairs.filter isKnown) = valuesUnder key pairs := by
  rw [valuesUnder, List.filterMap_filter]
  refine congrArg (pairs.filterMap ·) (funext fun pair => ?_)
  split
  · rfl
  · rename_i unknown
    have other : pair.1.text? ≠ some key := by
      intro named
      rw [isKnown, named] at unknown
      exact unknown (by simpa using known)
    rw [if_neg other]

theorem Told.perm (told : Told pairs s)
    (perm : (pairs.filter isKnown).Perm (pairs'.filter isKnown)) : Told pairs' s := by
  have values {key : String} (known : key ∈ ["strict_arity", "max_depth", "register_natives"]) :
      (valuesUnder key pairs).Perm (valuesUnder key pairs') := by
    rw [← valuesKnown pairs known, ← valuesKnown pairs' known]
    exact perm.filterMap _
  exact ⟨told.strictArity.perm (values (by simp)), told.maxDepth.perm (values (by simp)),
    told.registerNatives.perm (values (by simp))⟩

end Texts

section Written
variable (s : Settings)

theorem flagWord (b : Bool) : IsWord (toString b).toList := by
  cases b <;> exact ⟨by decide, List.all_eq_true.mp (by decide)⟩

theorem digitsWord (n : Nat) : IsWord (toString n).toList := by
  have shown : (toString n).toList = Nat.toDigits 10 n := by simp
  rw [shown]
  refine ⟨Nat.toDigits_ne_nil, fun c mem => ?_⟩
  rw [isWordChar, Char.isAlphanum, Json.numeralDigits c mem]
  simp

theorem linesPlain : ∀ l ∈ s.lines, l.Plain := by
  have key (word : String) (letters : word.toList.all isWordChar = true)
      (long : 0 < word.toList.length ∧ word.toList.length ≤ 1024) :
      IsWord word.toList ∧ word.toList.length ≤ 1024 :=
    ⟨⟨List.ne_nil_of_length_pos long.1, List.all_eq_true.mp letters⟩, long.2⟩
  intro l mem
  simp only [lines, List.mem_cons, List.not_mem_nil, or_false] at mem
  rcases mem with rfl | rfl | rfl
  · obtain ⟨word, short⟩ := key "strict_arity" (by decide) (by decide)
    exact ⟨word, flagWord _, short⟩
  · obtain ⟨word, short⟩ := key "max_depth" (by decide) (by decide)
    exact ⟨word, digitsWord _, short⟩
  · obtain ⟨word, short⟩ := key "register_natives" (by decide) (by decide)
    exact ⟨word, flagWord _, short⟩

theorem flagRead (b : Bool) : Value.Boolean (.scalar { text := toString b }) b :=
  ⟨toString b, by cases b <;> decide, .plain none⟩

theorem wordRead (n : UInt64) : Value.Word (.scalar { text := toString n.toNat }) n := by
  have shown : (toString n.toNat).toList = Nat.toDigits 10 n.toNat := by simp
  refine ⟨_, .plain none, _, .decimal (Text.digitsSpell n.toNat) fun zero => ?_, .inl shown⟩
  rcases Nat.eq_zero_or_pos n.toNat with none | positive
  · rw [none, Nat.toDigits_zero]
  · exact absurd zero (Json.leadingDigit positive)

theorem toldByLines : Told (s.lines.map Line.pair) s := by
  have strictArity : valuesUnder "strict_arity" (s.lines.map Line.pair) =
      [.scalar { text := toString s.strictArity }] := by
    simp [valuesUnder, lines, Line.pair, Value.text?]
  have maxDepth : valuesUnder "max_depth" (s.lines.map Line.pair) =
      [.scalar { text := toString s.maxDepth.toNat }] := by
    simp [valuesUnder, lines, Line.pair, Value.text?]
  have registerNatives : valuesUnder "register_natives" (s.lines.map Line.pair) =
      [.scalar { text := toString s.registerNatives }] := by
    simp [valuesUnder, lines, Line.pair, Value.text?]
  exact ⟨.ofOne strictArity (flagRead _), .ofOne maxDepth (wordRead _),
    .ofOne registerNatives (flagRead _)⟩

theorem readText : ofText s.toText = .ok s := by
  refine (ofTextExact (pairsOfLines s.linesPlain)).mpr ⟨fun pair mem => ?_, s.toldByLines⟩
  obtain ⟨l, -, rfl⟩ := List.mem_map.mp mem
  simp [Line.pair]

theorem tidy : s.toJson.Tidy := by
  have keys : ["max_depth", "register_natives", "strict_arity"].Pairwise
      fun a b => compare a b = .lt := by decide
  refine .ofKeys keys fun field mem => ?_
  simp only [List.mem_cons, List.not_mem_nil, or_false] at mem
  rcases mem with rfl | rfl | rfl
  · exact .ofWord _
  · exact .bool _
  · exact .bool _

theorem fieldGiven {α : Type} (read : Json → Option α) (fallback : α) (j : Json) :
    fieldOfJson? read fallback (some j) = read j := rfl

theorem readJson : (Json.read? s.toJson.compact).bind ofJson? = some s := by
  have strictArity : s.toJson.field? "strict_arity" = some (.bool s.strictArity) := rfl
  have maxDepth : s.toJson.field? "max_depth" = some (.ofWord s.maxDepth) := rfl
  have registerNatives : s.toJson.field? "register_natives" = some (.bool s.registerNatives) := rfl
  have fields : ofJson? s.toJson = ofFields? (s.toJson.field? "strict_arity")
      (s.toJson.field? "max_depth") (s.toJson.field? "register_natives") := rfl
  rw [Json.readCompact s.tidy, Option.bind_some, fields, strictArity, maxDepth, registerNatives,
    ofFields?, fieldGiven, fieldGiven, fieldGiven, Json.wordOfWord]
  rfl

end Written

theorem settingsFromMapping :
    (∀ text pairs, pairs? text = some pairs →
      ((∃ s, ofText text = .ok s) ↔
        (∀ pair ∈ pairs, pair.1 ≠ .collection) ∧ Allowed "strict_arity" Value.Boolean pairs ∧
          Allowed "max_depth" Value.Word pairs ∧ Allowed "register_natives" Value.Boolean pairs) ∧
      ∀ s, ofText text = .ok s ↔ (∀ pair ∈ pairs, pair.1 ≠ .collection) ∧ Told pairs s) ∧
    (∀ text text' pairs pairs', pairs? text = some pairs → pairs? text' = some pairs' →
      (∀ pair ∈ pairs ++ pairs', pair.1 ≠ .collection) →
      (pairs.filter isKnown).Perm (pairs'.filter isKnown) → ofText text = ofText text') ∧
    (∀ text text', Text.isBlankText text → pairs? text' = some [] → ofText text = ofText text') ∧
    (∀ s : Settings, ofText s.toText = .ok s) ∧
    ∀ s : Settings, (Json.read? s.toJson.compact).bind ofJson? = some s := by
  refine ⟨fun text pairs read => ⟨?_, fun s => ofTextExact read⟩, ?_, ?_, readText, readJson⟩
  · simp only [ofTextExact read, exists_and_left, toldSome]
  · intro text text' pairs pairs' read read' scalar perm
    refine ofTextSame fun s => ?_
    rw [ofTextExact read, ofTextExact read']
    constructor
    · rintro ⟨-, told⟩
      exact ⟨fun pair mem => scalar pair (List.mem_append_right pairs mem), told.perm perm⟩
    · rintro ⟨-, told⟩
      exact ⟨fun pair mem => scalar pair (List.mem_append_left pairs' mem), told.perm perm.symm⟩
  · intro text text' blank empty
    rw [ofTextRead empty, ofText, if_pos blank]
    rfl

-- The form feed makes the blank text one that has no mapping at all.
theorem settingsFromMappingReordered :
    let text := "x: [1]\nmax_depth: 0x1F\nstrict_arity: False\n"
    let text' := "strict_arity: False\nmax_depth: 0x1F\n"
    let x : Pair := (.scalar { text := "x" }, .collection)
    let depth : Pair := (.scalar { text := "max_depth" }, .scalar { text := "0x1F" })
    let arity : Pair := (.scalar { text := "strict_arity" }, .scalar { text := "False" })
    let blank := "\u3000\x0c"
    pairs? text = some [x, depth, arity] ∧ pairs? text' = some [arity, depth] ∧
      ([x, depth, arity].filter isKnown).Perm ([arity, depth].filter isKnown) ∧
      ofText text = .ok { strictArity := false, maxDepth := 31 } ∧ ofText text = ofText text' ∧
      Text.isBlankText blank ∧ pairs? blank = none ∧ pairs? "\x7b\x7d" = some [] ∧
      ofText blank = ofText "\x7b\x7d" := by
  intro text text' x depth arity blank
  obtain ⟨mapping, reordered, blanks, -⟩ := settingsFromMapping
  have read : pairs? text = some [x, depth, arity] := by decide +kernel
  have read' : pairs? text' = some [arity, depth] := by decide +kernel
  have perm : ([x, depth, arity].filter isKnown).Perm ([arity, depth].filter isKnown) :=
    List.Perm.swap arity depth []
  have scalar : ∀ pair ∈ [x, depth, arity] ++ [arity, depth], pair.1 ≠ .collection := by
    simp [x, depth, arity]
  have told : Told [x, depth, arity] { strictArity := false, maxDepth := 31 } :=
    ⟨.ofOne rfl (Value.boolExact.mp rfl), .ofOne rfl (Value.wordExact.mp rfl), .ofNone rfl⟩
  have empty : pairs? "\x7b\x7d" = some [] := by decide +kernel
  have light : Text.isBlankText blank := by decide
  exact ⟨read, read', perm, ((mapping text _ read).2 _).mpr
      ⟨fun pair mem => scalar pair (List.mem_append_left _ mem), told⟩,
    reordered text text' _ _ read read' scalar perm, light, by decide +kernel, empty,
    blanks blank _ light empty⟩

example : ofText "max_depth: 18446744073709551615" = .ok { maxDepth := 18446744073709551615 } ∧
    ofText "max_depth: 18446744073709551616" = .error .unreadableText := by
  decide +kernel

theorem collectionKeyRefused :
    let text := "[a]: 1\nmax_depth: 5\n"
    let pairs : List Pair := [(.collection, .scalar { text := "1" }),
      (.scalar { text := "max_depth" }, .scalar { text := "5" })]
    pairs? text = some pairs ∧ Allowed "strict_arity" Value.Boolean pairs ∧
      Allowed "max_depth" Value.Word pairs ∧ Allowed "register_natives" Value.Boolean pairs ∧
      Told pairs { maxDepth := 5 } ∧ ofText text = .error .unreadableText := by
  intro text pairs
  have read : pairs? text = some pairs := by decide +kernel
  have told : Told pairs { maxDepth := 5 } :=
    ⟨.ofNone rfl, .ofOne rfl (Value.wordExact.mp rfl), .ofNone rfl⟩
  obtain ⟨strictArity, maxDepth, registerNatives⟩ := toldSome.mp ⟨_, told⟩
  exact ⟨read, strictArity, maxDepth, registerNatives, told, (ofTextRead read).trans rfl⟩

end Settings
end BehaviorTree

import BehaviorTree.Yaml.Value
import Mathlib.Data.List.Induction

/-! Scalars as booleans and unsigned words. A scalar may be read as such only where it stands bare:
unquoted, or as a literal one that is marked with the type. Then its text has to be one of the
spellings of a boolean, or a numeral of a word. -/
namespace BehaviorTree

namespace Text

inductive Spells (base : Nat) : List Char → Nat → Prop where
  | digit {c d} (shown : digit? c = some d) (small : d < base) : Spells base [c] d
  | more {cs n c d} (before : Spells base cs n) (shown : digit? c = some d) (small : d < base) :
      Spells base (cs ++ [c]) (n * base + d)

theorem spelledNonempty {base cs n} (spelled : Spells base cs n) : cs ≠ [] := by
  cases spelled <;> simp

theorem Spells.digits {base cs n} (spelled : Spells base cs n) :
    ∀ c ∈ cs, ∃ d, digit? c = some d ∧ d < base := by
  induction spelled with
  | digit shown small => simpa using ⟨_, shown, small⟩
  | more before shown small ih =>
    intro c mem
    rcases List.mem_append.mp mem with earlier | last
    · exact ih c earlier
    · cases List.mem_singleton.mp last
      exact ⟨_, shown, small⟩

theorem numeralSnoc {base cs c n} (nonempty : cs ≠ []) :
    numeral? base (cs ++ [c]) = some n ↔
      ∃ m d, numeral? base cs = some m ∧ digit? c = some d ∧ d < base ∧ m * base + d = n := by
  simp only [numeral?, List.isEmpty_iff, List.append_eq_nil_iff, nonempty, false_and, if_false,
    List.foldl_append, List.foldl_cons, List.foldl_nil, bind, Option.bind_eq_some_iff]
  constructor
  · rintro ⟨m, before, d, shown, here⟩
    split at here
    · rename_i small
      exact ⟨m, d, before, shown, small, Option.some.inj here⟩
    · contradiction
  · rintro ⟨m, d, before, shown, small, rfl⟩
    exact ⟨m, before, d, shown, if_pos small⟩

theorem numeralDigit {base c n} :
    numeral? base [c] = some n ↔ digit? c = some n ∧ n < base := by
  simp only [numeral?, List.isEmpty_cons, Bool.false_eq_true, if_false, List.foldl_cons,
    List.foldl_nil, bind, Option.bind_some, Option.bind_eq_some_iff, Nat.zero_mul, Nat.zero_add]
  constructor
  · rintro ⟨d, shown, here⟩
    split at here
    · rename_i small
      cases here
      exact ⟨shown, small⟩
    · contradiction
  · rintro ⟨shown, small⟩
    exact ⟨n, shown, if_pos small⟩

theorem numeralExact {base cs n} : numeral? base cs = some n ↔ Spells base cs n := by
  constructor
  · intro read
    induction cs using List.reverseRecOn generalizing n with
    | nil => simp [numeral?] at read
    | append_singleton cs c ih =>
      rcases List.eq_nil_or_concat cs with rfl | ⟨_, _, long⟩
      · obtain ⟨shown, small⟩ := numeralDigit.mp read
        exact .digit shown small
      · have nonempty : cs ≠ [] := by simp [long]
        obtain ⟨m, d, before, shown, small, rfl⟩ := (numeralSnoc nonempty).mp read
        exact .more (ih before) shown small
  · intro spelled
    induction spelled with
    | digit shown small => exact numeralDigit.mpr ⟨shown, small⟩
    | more before shown small ih =>
      exact (numeralSnoc (spelledNonempty before)).mpr ⟨_, _, ih, shown, small, rfl⟩

theorem digitShown {d : Nat} (small : d < 10) : digit? d.digitChar = some d := by
  have each : ∀ d < 10, digit? d.digitChar = some d := by decide
  exact each d small

theorem digitsSpell (n : Nat) : Spells 10 (Nat.toDigits 10 n) n := by
  induction n using Nat.strongRecOn with
  | ind n ih =>
    rcases Nat.lt_or_ge n 10 with small | large
    · rw [Nat.toDigits_of_lt_base small]
      exact .digit (digitShown small) small
    · rw [Nat.toDigits_of_base_le (by decide) large]
      have last : n % 10 < 10 := Nat.mod_lt n (by decide)
      have whole : n / 10 * 10 + n % 10 = n := by omega
      have spelled : Spells 10 (Nat.toDigits 10 (n / 10) ++ [(n % 10).digitChar])
          (n / 10 * 10 + n % 10) := .more (ih (n / 10) (by omega)) (digitShown last) last
      rwa [whole] at spelled

end Text

namespace Yaml.Value

/- A scalar with a text that may stand for a value of a type, whose tag is given. -/
inductive Bare (tag text : String) : Value → Prop where
  | plain (marked : Option String) : Bare tag text (.scalar ⟨.plain, marked, text⟩)
  | literal : Bare tag text (.scalar ⟨.literal, some tag, text⟩)

theorem bareExact {v : Value} {tag text : String} :
    v.plainText? tag = some text ↔ v.Bare tag text := by
  constructor
  · intro read
    unfold plainText? at read
    split at read
    · rename_i content
      obtain ⟨style, marked, held⟩ := content
      split at read
      · rename_i bare
        cases read
        rcases bare with rfl | ⟨rfl, rfl⟩
        · exact .plain marked
        · exact .literal
      · contradiction
    · contradiction
  · intro bare
    cases bare <;> simp [plainText?]

def spellings : Bool → List String
  | true => ["true", "True", "TRUE"]
  | false => ["false", "False", "FALSE"]

def Boolean (v : Value) (b : Bool) : Prop :=
  ∃ text ∈ spellings b, v.Bare "tag:yaml.org,2002:bool" text

theorem boolOfTextExact {text : String} {b : Bool} :
    boolOfText? text = some b ↔ text ∈ spellings b := by
  unfold boolOfText?
  split
  · rename_i yes
    rcases yes with rfl | rfl | rfl <;> cases b <;> decide
  · rename_i other
    split
    · rename_i no
      rcases no with rfl | rfl | rfl <;> cases b <;> decide
    · cases b <;> simp_all [spellings]

theorem boolExact {v : Value} {b : Bool} : v.bool? = some b ↔ v.Boolean b := by
  simp only [bool?, Option.bind_eq_some_iff, bareExact, boolOfTextExact]
  exact exists_congr fun _ => And.comm

/- The forms of a number without its sign: in decimal digits, the first of which is no zero unless
it is the only one, or in another base after its mark. -/
inductive Unsigned (n : Nat) : List Char → Prop where
  | decimal {cs} (spelled : Text.Spells 10 cs n) (leading : cs.head? = some '0' → cs = ['0']) :
      Unsigned n cs
  | marked {mark base cs} (known : (mark, base) ∈ [('x', 16), ('o', 8), ('b', 2)])
      (spelled : Text.Spells base cs n) : Unsigned n ('0' :: mark :: cs)

def Word (v : Value) (n : UInt64) : Prop :=
  ∃ text, v.Bare "tag:yaml.org,2002:int" text ∧
    ∃ cs, Unsigned n.toNat cs ∧ (text.toList = cs ∨ text.toList = '+' :: cs)

theorem wordOfNatExact {m : Nat} {n : UInt64} : wordOfNat? m = some n ↔ m = n.toNat := by
  unfold wordOfNat?
  split
  · rename_i small
    rw [Option.some.injEq]
    constructor
    · rintro rfl
      exact (UInt64.toNat_ofNat_of_lt' small).symm
    · rintro rfl
      exact UInt64.ofNat_toNat
  · rename_i large
    have bound := n.toNat_lt_size
    constructor
    · intro read
      contradiction
    · rintro rfl
      contradiction

theorem numeralWord {cs : List Char} {base : Nat} {n : UInt64} :
    (Text.numeral? base cs).bind wordOfNat? = some n ↔ Text.Spells base cs n.toNat := by
  simp only [Option.bind_eq_some_iff, Text.numeralExact, wordOfNatExact, exists_eq_right]

theorem unsignedExact {cs : List Char} {n : UInt64} :
    unsigned? cs = some n ↔ Unsigned n.toNat cs := by
  constructor
  · intro read
    unfold unsigned? at read
    split at read
    · exact .marked (by simp) (numeralWord.mp read)
    · exact .marked (by simp) (numeralWord.mp read)
    · exact .marked (by simp) (numeralWord.mp read)
    · cases read
      exact .decimal (Text.digitsSpell 0) fun _ => rfl
    · contradiction
    · rename_i other
      refine .decimal (numeralWord.mp read) fun zero => ?_
      obtain ⟨rest, rfl⟩ := List.head?_eq_some_iff.mp zero
      exact absurd rfl (other rest)
  · intro form
    cases form with
    | decimal spelled leading =>
      have decimal := numeralWord.mpr spelled
      by_cases zero : cs.head? = some '0'
      · obtain rfl := leading zero
        exact decimal
      · unfold unsigned?
        split <;> simp_all
    | marked known spelled =>
      have read := numeralWord.mpr spelled
      simp only [List.mem_cons, Prod.mk.injEq, List.not_mem_nil, or_false] at known
      rcases known with ⟨rfl, rfl⟩ | ⟨rfl, rfl⟩ | ⟨rfl, rfl⟩ <;> exact read

theorem unsignedBare {n : Nat} {cs : List Char} : ¬Unsigned n ('+' :: cs) := by
  intro form
  cases form with
  | decimal spelled leading =>
    obtain ⟨d, shown, small⟩ := spelled.digits '+' List.mem_cons_self
    cases shown

theorem wordOfTextExact {text : String} {n : UInt64} :
    wordOfText? text = some n ↔
      ∃ cs, Unsigned n.toNat cs ∧ (text.toList = cs ∨ text.toList = '+' :: cs) := by
  constructor
  · intro read
    unfold wordOfText? at read
    split at read
    · rename_i cs signed
      exact ⟨cs, unsignedExact.mp read, .inr signed⟩
    · exact ⟨_, unsignedExact.mp read, .inl rfl⟩
  · rintro ⟨cs, form, unsigned | signed⟩
    · unfold wordOfText?
      split
      · rename_i rest signed
        rw [← unsigned, signed] at form
        exact absurd form unsignedBare
      · rw [unsigned]
        exact unsignedExact.mpr form
    · rw [wordOfText?, signed]
      exact unsignedExact.mpr form

theorem wordExact {v : Value} {n : UInt64} : v.word? = some n ↔ v.Word n := by
  simp only [word?, Option.bind_eq_some_iff, bareExact, wordOfTextExact]
  rfl

end Yaml.Value

end BehaviorTree

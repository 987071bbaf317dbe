import BehaviorTree.Json.Reader
import BehaviorTree.Outcome

/-! Outcomes from data. A status is given by its name or by its code as a whole number, and by
nothing else; whatever is neither keeps the text it is written with. A text, a number of one byte
and the JSON values of both come to the same outcome. -/
namespace BehaviorTree

inductive Json.Denotes (s : Status) : Json → Prop where
  | name : Denotes s (.text s.name)
  | code : Denotes s (.whole s.code.toNat)

def Json.spelling : Json → String
  | text name => name
  | j => j.compact

namespace Outcome

theorem validateStatus {o : Outcome} {s : Status} : o.validate = .ok s ↔ o = .status s := by
  cases o <;> simp [validate]

theorem validateText {o : Outcome} {text : String} :
    o.validate = .error ⟨text⟩ ↔ o = .unrecognized text := by
  cases o <;> simp [validate]

section Texts
variable {name : String} {s : Status}

theorem ofNameStatus : ofName name = .status s ↔ name = s.name := by
  rw [← Status.ofNameIff, ofName]
  cases Status.ofName? name <;> simp

theorem ofNameText (other : ∀ s : Status, name ≠ s.name) : ofName name = .unrecognized name := by
  have unknown : Status.ofName? name = none :=
    Option.eq_none_iff_forall_ne_some.mpr fun s found =>
      other s (Status.ofNameIff.mp found)
  rw [ofName, unknown]

end Texts

section Codes
variable {code : UInt8} {n : Int} {s : Status}

theorem ofCodeStatus : ofCode code = .status s ↔ code = s.code := by
  rw [← Status.ofCodeIff, ofCode]
  cases Status.ofCode? code <;> simp

theorem ofCodeText (other : ∀ s : Status, code ≠ s.code) :
    ofCode code = .unrecognized (toString code) := by
  have unknown : Status.ofCode? code = none :=
    Option.eq_none_iff_forall_ne_some.mpr fun s found =>
      other s (Status.ofCodeIff.mp found)
  rw [ofCode, unknown]

theorem wholeCompact (n : Int) : (Json.whole n).compact = toString n := by
  simp [Json.compact, Json.write]

theorem ofWholeByte (code : UInt8) : ofJson (.whole code.toNat) = ofCode code := by
  have bound : (0 : Int) ≤ code.toNat ∧ (code.toNat : Int) < 256 := by
    have := code.toNat_lt
    omega
  simp only [ofJson, if_pos bound, Int.toNat_natCast, UInt8.ofNat_toNat]

-- No number beyond a byte is cut down to one.
theorem ofWholeWide (wide : n < 0 ∨ 255 < n) : ofJson (.whole n) = .unrecognized (toString n) := by
  have beyond : ¬(0 ≤ n ∧ n < 256) := by omega
  rw [ofJson, if_neg beyond, wholeCompact]

theorem wholeCases (n : Int) : (∃ code : UInt8, n = code.toNat) ∨ n < 0 ∨ 255 < n := by
  by_cases byte : 0 ≤ n ∧ n < 256
  · refine .inl ⟨UInt8.ofNat n.toNat, ?_⟩
    rw [UInt8.toNat_ofNat_of_lt' (by rw [UInt8.size]; omega)]
    omega
  · omega

end Codes

section Values
variable {j : Json} {s : Status}

theorem ofJsonStatus : ofJson j = .status s ↔ j.Denotes s := by
  constructor
  · intro taken
    cases j with
    | text name =>
      cases ofNameStatus.mp taken
      exact .name
    | whole n =>
      rcases wholeCases n with ⟨code, rfl⟩ | wide
      · rw [ofWholeByte, ofCodeStatus] at taken
        cases taken
        exact .code
      · rw [ofWholeWide wide] at taken
        contradiction
    | _ => contradiction
  · intro denotes
    cases denotes with
    | name => exact ofNameStatus.mpr rfl
    | code =>
      rw [ofWholeByte]
      exact ofCodeStatus.mpr rfl

theorem ofJsonText (other : ∀ s, ¬j.Denotes s) : ofJson j = .unrecognized j.spelling := by
  cases j with
  | text name => exact ofNameText fun s same => other s (same ▸ .name)
  | whole n =>
    have spelled : (Json.whole n).spelling = toString n := wholeCompact n
    rw [spelled]
    rcases wholeCases n with ⟨code, rfl⟩ | wide
    · rw [ofWholeByte]
      exact ofCodeText fun s same => other s (same ▸ .code)
    · exact ofWholeWide wide
  | _ => rfl

end Values

theorem statusesFromData :
    (∀ j s, (ofJson j).validate = .ok s ↔ j.Denotes s) ∧
    (∀ j : Json, (∀ s, ¬j.Denotes s) → (ofJson j).validate = .error ⟨j.spelling⟩) ∧
    (∀ n : Int, n < 0 ∨ 255 < n → (ofJson (.whole n)).validate = .error ⟨toString n⟩) ∧
    (∀ b, (ofJson (.float b)).validate = .error ⟨b.text⟩) ∧
    (∀ name, ofName name = ofJson (.text name) ∧
      ((∀ s : Status, name ≠ s.name) → ofName name = .unrecognized name)) ∧
    ∀ code : UInt8, ofCode code = ofJson (.whole code.toNat) := by
  refine ⟨fun j s => validateStatus.trans ofJsonStatus, fun j other => ?_, fun n wide => ?_,
    fun b => ?_, fun name => ⟨rfl, ofNameText⟩, fun code => (ofWholeByte code).symm⟩
  · exact validateText.mpr (ofJsonText other)
  · exact validateText.mpr (ofWholeWide wide)
  · have written : (Json.float b).compact = b.text := by simp [Json.compact, Json.write]
    rw [← written]
    rfl

theorem statusesFromDataWide :
    255 < (257 : Int) ∧ (ofJson (.whole 257)).validate = .error ⟨"257"⟩ ∧
      255 < (18446744073709551615 : Int) ∧
      (ofJson (.whole 18446744073709551615)).validate = .error ⟨"18446744073709551615"⟩ ∧
      (∀ s, ¬Json.null.Denotes s) ∧ (ofJson .null).validate = .error ⟨"null"⟩ := by
  obtain ⟨-, other, wide, -⟩ := statusesFromData
  have small : 255 < (257 : Int) := by decide
  have large : 255 < (18446744073709551615 : Int) := by decide
  have none (s : Status) : ¬Json.null.Denotes s := by
    intro denotes
    cases denotes
  exact ⟨small, wide _ (.inr small), large, wide _ (.inr large), none, other _ none⟩

-- Read from a text, `1` is a code and `1.0` is none.
example : (Json.read? "1").map ofJson = some (.status .success) ∧
    (Json.read? "1.0").map ofJson = some (.unrecognized "1.0") := by
  decide +kernel

end Outcome
end BehaviorTree

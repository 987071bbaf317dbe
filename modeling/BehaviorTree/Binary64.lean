import BehaviorTree.Decimal

/-!
Double-precision numbers as words, without any floating-point operation: a decimal
numeral is rounded to the nearest word (a tie goes to the even one), and a word is
written with the fewest digits that round back to it.
-/
namespace BehaviorTree

structure Binary64 where
  word : UInt64
  deriving DecidableEq, Repr

namespace Binary64

def hiddenBit : Nat := 4503599627370496

def signBit : Nat := 9223372036854775808

/-- The nearest whole number to `num / den`, the even one on a tie. -/
def nearest (num den : Nat) : Nat :=
  let whole := num / den
  let twice := 2 * (num % den)
  if twice < den then whole
  else if den < twice then whole + 1
  else if whole % 2 = 0 then whole else whole + 1

def scaled (num den : Nat) (shift : Int) : Nat × Nat :=
  if 0 ≤ shift then (num, den * Nat.pow 2 shift.toNat) else (num * Nat.pow 2 (-shift).toNat, den)

def magnitude? (num den : Nat) : Option Nat :=
  if num = 0 then some 0
  else
    let low : Int := max ((num.log2 : Int) - den.log2 - 53) (-1074)
    let (n, d) := scaled num den low
    let shift := if 2 * hiddenBit ≤ n / d then low + 1 else low
    let (n, d) := scaled num den shift
    let word := (shift + 1074).toNat * hiddenBit + nearest n d
    if word < 2047 * hiddenBit then some word else none

def ofDecimal? (negative : Bool) (d : Decimal) : Option Binary64 := do
  let width : Int := (Nat.toDigits 10 d.digits).length
  let magnitude ←
    if d.digits = 0 ∨ d.exponent + width < -400 then some 0
    else if 400 < d.exponent + width then none
    else if 0 ≤ d.exponent then magnitude? (d.digits * Nat.pow 10 d.exponent.toNat) 1
    else magnitude? d.digits (Nat.pow 10 (-d.exponent).toNat)
  some ⟨UInt64.ofNat (magnitude + if negative then signBit else 0)⟩

def isNegative (b : Binary64) : Bool := signBit ≤ b.word.toNat

def parts (b : Binary64) : Nat × Int :=
  let word := b.word.toNat % signBit
  if word < hiddenBit then (word, -1074)
  else (word % hiddenBit + hiddenBit, (word / hiddenBit : Nat) - 1075)

/-- How many decimal places stand before the point of `num / den`, or minus the
number of zeros after it. -/
def pointOf (num den : Nat) : Int :=
  if den ≤ num then (Nat.toDigits 10 (num / den)).length
  else Int.negOfNat (zerosAfter 400 (num * 10) den)
where
  zerosAfter : Nat → Nat → Nat → Nat
    | 0, _, _ => 0
    | fuel + 1, n, d => if d ≤ n then 0 else zerosAfter fuel (n * 10) d + 1

/-- The numeral of fewest digits between the midpoints around the number, the nearer
one of two; the midpoints count when the significand is even. -/
def shortest (b : Binary64) : Decimal :=
  let (significand, exponent) := b.parts
  if significand = 0 then ⟨0, 0⟩
  else
    -- The number and both midpoints over one denominator, in quarters of the last place.
    let (num, den) := scaled (4 * significand) 4 (-exponent)
    let (lowNum, _) := scaled
      (4 * significand - if significand = hiddenBit ∧ exponent ≠ -1074 then 1 else 2) 4 (-exponent)
    let (highNum, _) := scaled (4 * significand + 2) 4 (-exponent)
    let inside (d : Decimal) : Bool :=
      let (n, m) := if 0 ≤ d.exponent then (d.digits * Nat.pow 10 d.exponent.toNat, 1)
        else (d.digits, Nat.pow 10 (-d.exponent).toNat)
      if significand % 2 = 0 then lowNum * m ≤ n * den && n * den ≤ highNum * m
      else lowNum * m < n * den && n * den < highNum * m
    let point := pointOf num den
    let onGrid (width : Nat) : Option Decimal :=
      let grid := point - width
      let (n, d) := if 0 ≤ grid then (num, den * Nat.pow 10 grid.toNat)
        else (num * Nat.pow 10 (-grid).toNat, den)
      let below : Decimal := ⟨n / d, grid⟩
      let above : Decimal := ⟨n / d + 1, grid⟩
      let (near, far) := if nearest n d = n / d then (below, above) else (above, below)
      if inside near then some near else if inside far then some far else none
    (((List.range 18).findSome? onGrid).getD ⟨num / den, 0⟩).trim 400

def text (b : Binary64) : String :=
  (if b.isNegative then "-" else "") ++ b.shortest.text

end Binary64
end BehaviorTree

/-!
Decimal numerals `digits · 10 ^ exponent` and their written form. A numeral is
positional while its point stands at most sixteen places after the first digit and
at most four zeros follow the point; otherwise it has one leading digit and an exponent
with its sign.
-/
namespace BehaviorTree

structure Decimal where
  digits : Nat
  exponent : Int
  deriving DecidableEq, Repr

namespace Decimal

def trim : Nat → Decimal → Decimal
  | 0, d => d
  | fuel + 1, d =>
    if d.digits ≠ 0 ∧ d.digits % 10 = 0 then trim fuel ⟨d.digits / 10, d.exponent + 1⟩ else d

def zeros (n : Nat) : String := String.ofList (List.replicate n '0')

def text (d : Decimal) : String :=
  let shown := Nat.toDigits 10 d.digits
  let point : Int := shown.length + d.exponent
  if 0 ≤ d.exponent ∧ point ≤ 16 then
    String.ofList shown ++ zeros d.exponent.toNat ++ ".0"
  else if 0 < point ∧ point ≤ 16 then
    String.ofList (shown.take point.toNat) ++ "." ++ String.ofList (shown.drop point.toNat)
  else if -5 < point ∧ point ≤ 0 then
    "0." ++ zeros (-point).toNat ++ String.ofList shown
  else
    let fraction := String.ofList (shown.drop 1)
    String.ofList (shown.take 1) ++ (if fraction = "" then "" else "." ++ fraction) ++
      (if 0 < point then "e+" else "e-") ++ toString (point - 1).natAbs

end Decimal
end BehaviorTree

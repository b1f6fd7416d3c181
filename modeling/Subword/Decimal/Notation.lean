import Subword.Decimal.Shortest

/-!
The two ways in which doubles are written: with the fewest digits that read back, positional for
exponents from -5 to 15, and with two fixed places.
-/
namespace Subword.Binary64

def signedExponent (e : Int) : Text :=
  (if e < 0 then '-' else '+') :: Text.decimal e.natAbs

/-- A positive decimal in positional or in exponent notation. -/
def writeScientific (x : Decimal.Scientific) : Text :=
  let digits := Text.decimal x.coefficient
  let e := x.scale + digits.length - 1
  if -5 ≤ e ∧ e < 0 then
    "0.".toList ++ List.replicate (-e - 1).toNat '0' ++ digits
  else if 0 ≤ e ∧ e < 16 then
    if digits.length ≤ e.toNat + 1 then
      digits ++ List.replicate (e.toNat + 1 - digits.length) '0' ++ ".0".toList
    else digits.take (e.toNat + 1) ++ '.' :: digits.drop (e.toNat + 1)
  else
    let fraction := if digits.length ≤ 1 then [] else '.' :: digits.drop 1
    digits.take 1 ++ fraction ++ 'e' :: signedExponent e

def sign (x : Binary64) : Text := if x.negative then ['-'] else []

/-- The double with the fewest digits that read back; one that is no number has no such text. -/
def shortest? (x : Binary64) : Option Text :=
  match x.magnitude with
  | .finite m q =>
    some (x.sign ++ if m = 0 then "0.0".toList else writeScientific (Decimal.shortest m q))
  | .infinite | .undefined => none

/-- The double rounded to two decimal places, an exact half to the even neighbour. -/
def fixedTwo (x : Binary64) : Text :=
  match x.magnitude with
  | .finite m q =>
    let r := Decimal.Ratio.ofBinary (100 * m) q
    let h := Decimal.roundDiv r.n r.d
    x.sign ++ Text.decimal (h / 100) ++ '.' :: Text.decimal (h % 100 / 10) ++ Text.decimal (h % 10)
  | .infinite => x.sign ++ "inf".toList
  | .undefined => "NaN".toList

end Subword.Binary64

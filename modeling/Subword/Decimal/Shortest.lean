import Subword.Decimal.Binary64
import Subword.Text.Numeral

/-!
The shortest decimal that reads back as a given double: of the decimals with the fewest digits inside
the interval that rounds to the double, the one nearest to it, and of two such the even one.
-/
namespace Subword.Decimal

/-- The decimal number `coefficient * 10 ^ scale`. -/
structure Scientific where
  coefficient : Nat
  scale : Int
  deriving DecidableEq, Repr

structure Ratio where
  n : Nat
  d : Nat

def Ratio.ofBinary (m : Nat) (q : Int) : Ratio := ⟨m * Nat.pow 2 q.toNat, Nat.pow 2 (-q).toNat⟩

def Ratio.shift (r : Ratio) (k : Int) : Ratio :=
  ⟨r.n * Nat.pow 10 k.toNat, r.d * Nat.pow 10 (-k).toNat⟩

/-- The numbers that round to `m * 2 ^ q`, and whether the ends belong to them. -/
structure Interval where
  low : Ratio
  high : Ratio
  closed : Bool

/-- Below a power of two the doubles lie twice as close, except at the least normal one. -/
def Interval.around (m : Nat) (q : Int) : Interval :=
  let below := if m = Nat.pow 2 52 ∧ -1074 < q then 4 * m - 1 else 4 * m - 2
  ⟨.ofBinary below (q - 2), .ofBinary (4 * m + 2) (q - 2), m % 2 = 0⟩

def Interval.holds (i : Interval) (x : Scientific) : Bool :=
  let low := i.low.shift (-x.scale)
  let high := i.high.shift (-x.scale)
  if i.closed then low.n ≤ x.coefficient * low.d && x.coefficient * high.d ≤ high.n
  else low.n < x.coefficient * low.d && x.coefficient * high.d < high.n

/-- The exponent of ten of the leading digit of a positive number. -/
def Ratio.leading (r : Ratio) : Int :=
  if r.d ≤ r.n then (Nat.toDigits 10 (r.n / r.d)).length - 1
  else search 1 400
where
  /-- Looks for the least `k` with `10 ^ k * r` at least one. -/
  search (k : Nat) : Nat → Int
    | 0 => -k
    | steps + 1 => if r.d ≤ r.n * Nat.pow 10 k then -k else search (k + 1) steps

/-- Of the two neighbours of `value` with the given scale, the one to write, if one is in the interval. -/
def pick? (i : Interval) (value : Ratio) (scale : Int) : Option Scientific :=
  let v := value.shift (-scale)
  let low : Scientific := ⟨v.n / v.d, scale⟩
  let high : Scientific := ⟨v.n / v.d + 1, scale⟩
  match 0 < low.coefficient && i.holds low, i.holds high with
  | true, true => some ⟨roundDiv v.n v.d, scale⟩
  | true, false => some low
  | false, true => some high
  | false, false => none

/-- The same number without zeros at the end of its coefficient. -/
def Scientific.strip (x : Scientific) : Scientific :=
  go x.coefficient x.scale (Nat.toDigits 10 x.coefficient).length
where
  go (c : Nat) (s : Int) : Nat → Scientific
    | 0 => ⟨c, s⟩
    | steps + 1 => if c % 10 = 0 then go (c / 10) (s + 1) steps else ⟨c, s⟩

/-- The shortest decimal for the double `m * 2 ^ q`, with `m` positive; seventeen digits always do. -/
def shortest (m : Nat) (q : Int) : Scientific :=
  let value := Ratio.ofBinary m q
  let lead := value.leading
  let i := Interval.around m q
  let found := (List.range 17).findSome? fun (digits : Nat) => pick? i value (lead - digits)
  (found.getD ⟨m, q⟩).strip

end Subword.Decimal

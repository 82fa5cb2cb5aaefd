/-!
# Decimals

A binary floating-point number is written with the fewest decimal digits that still lie closer to
it than to any other such number. The search is exact: the interval of reals that round to the
number is a pair of fractions, and for each power of ten, from coarse to fine, the two multiples
of it beside the number are tried.

* `MailServer.Decimal.Window` is the interval with the number in it.
* `MailServer.Decimal.Window.pick?` is the nearest multiple of `10 ^ g` inside, if one is inside.
* `MailServer.Decimal.shortest` is the first hit from coarse to fine.
* `MailServer.Decimal.chars` writes the digits under a `MailServer.Decimal.Layout`.
-/

namespace MailServer

/-- The number `coefficient * 10 ^ exponent`. -/
structure Decimal where
  coefficient : Nat
  exponent : Int
deriving DecidableEq, Repr

namespace Decimal

/-- The reals that round to a number: `low`, `value` and `high` count the same `1 / unit`. -/
structure Window where
  low : Nat
  value : Nat
  high : Nat
  unit : Nat
  /-- The two ends round to the number as well. -/
  closed : Bool
deriving DecidableEq, Repr

namespace Window

/-- `c * 10 ^ g` lies in the window. -/
def holds (w : Window) (c : Nat) (g : Int) : Bool :=
  let there := c * w.unit * Nat.pow 10 g.toNat
  let scale := Nat.pow 10 (-g).toNat
  if w.closed then w.low * scale ≤ there && there ≤ w.high * scale
  else w.low * scale < there && there < w.high * scale

/-- The multiple of `10 ^ g` nearest to the value, among those two beside it that lie in the
window; of two equally near ones the even one. -/
def pick? (w : Window) (g : Int) : Option Nat :=
  let num := w.value * Nat.pow 10 (-g).toNat
  let den := w.unit * Nat.pow 10 g.toNat
  let below := num / den
  let twice := 2 * (num % den)
  let nearest :=
    if twice < den || (twice == den && below % 2 == 0) then [below, below + 1] else [below + 1, below]
  nearest.find? fun c => w.holds c g

/-- An exponent at which no power of ten below the value is missed. -/
def top (w : Window) : Int :=
  if w.unit ≤ w.value then (Nat.toDigits 10 (w.value / w.unit)).length
  else 1 - (Nat.toDigits 10 (w.unit / w.value)).length

/-- The first grid with a hit, trying `n` further grids below `10 ^ g`. -/
def search (w : Window) : (n : Nat) → (g : Int) → Decimal
  | 0, g => ⟨(w.pick? g).getD 0, g⟩
  | n + 1, g =>
    match w.pick? g with
    | some c => ⟨c, g⟩
    | none => w.search n (g - 1)

end Window

/-- The window of `m * 2 ^ q`. The number next below is half as far as the one above where
`narrow` says so, which is at a power of two. -/
def window (m : Nat) (q : Int) (narrow : Bool) : Window :=
  let up := Nat.pow 2 (q - 2).toNat
  { low := (if narrow then 4 * m - 1 else 4 * m - 2) * up
    value := 4 * m * up
    high := (4 * m + 2) * up
    unit := Nat.pow 2 (2 - q).toNat
    closed := m % 2 == 0 }

/-- The decimal with the fewest digits that rounds to `m * 2 ^ q`, for positive `m`. -/
def shortest (m : Nat) (q : Int) (narrow : Bool) : Decimal :=
  let w := window m q narrow
  w.search 20 w.top

/-- The shortest decimal of the magnitude of a finite floating-point number; zero for zero. -/
def ofFloat (x : Float) : Decimal :=
  let bits := x.toBits.toNat
  let fraction := bits % Nat.pow 2 52
  let exponent : Nat := bits / Nat.pow 2 52 % Nat.pow 2 11
  if exponent = 0 then
    if fraction = 0 then ⟨0, 0⟩ else shortest fraction (-1074) false
  else shortest (fraction + Nat.pow 2 52) ((exponent : Int) - 1075) (fraction == 0 && exponent != 1)

end Decimal

end MailServer

/-! ## Writing a decimal out

A decimal is written positionally while its leading digit is not too far from the point, and with
an exponent otherwise. Where the change happens is a choice of the format that uses it. -/

namespace MailServer.Decimal

/-- The powers of ten of the leading digit that are written positionally, both ends included. -/
structure Layout where
  lowest : Int
  highest : Int
deriving DecidableEq, Repr

/-- The digits of a number without the zeros at its end, and how many those were. -/
def significant (n : Nat) : List Char × Nat :=
  let digits := Nat.toDigits 10 n
  let zeros := (digits.reverse.takeWhile (· == '0')).length
  (digits.take (digits.length - zeros), zeros)

/-- The digits with a point after the first `k` of them, and a zero on either side that is bare. -/
def positional (digits : List Char) (k : Int) : List Char :=
  if k ≤ 0 then ['0', '.'] ++ List.replicate (-k).toNat '0' ++ digits
  else
    let whole := digits.take k.toNat
    let rest := digits.drop k.toNat
    whole ++ List.replicate (k.toNat - digits.length) '0' ++ ['.'] ++
      (if rest.isEmpty then ['0'] else rest)

/-- The digits with a point after the first and the power of ten behind an `e` with its sign. -/
def scientific (digits : List Char) (power : Int) : List Char :=
  let mantissa := match digits with
    | [] => ['0']
    | [d] => [d]
    | d :: rest => d :: '.' :: rest
  mantissa ++ ['e', if power < 0 then '-' else '+'] ++ Nat.toDigits 10 power.natAbs

/-- A decimal in the given layout. Zero is `0.0`. -/
def chars (layout : Layout) (x : Decimal) : List Char :=
  if x.coefficient = 0 then ['0', '.', '0']
  else
    let (digits, zeros) := significant x.coefficient
    let power := x.exponent + zeros + digits.length - 1
    if layout.lowest ≤ power && power ≤ layout.highest then positional digits (power + 1)
    else scientific digits power

end MailServer.Decimal

import Frontend.Binary64.Basic

namespace Frontend.Binary64

def fivePower : Nat := Nat.pow 5 1074

def decimalUnits (p : Nat) : Nat := units p * fivePower

/-- Whether `t` decimal units read back as the pattern `p`: `t` is between the midpoints to the
neighbouring patterns, and a midpoint itself goes to the even pattern. -/
def reaches (p t : Nat) : Bool :=
  let low := decimalUnits (p - 1) + decimalUnits p
  let high := decimalUnits p + decimalUnits (p + 1)
  if p % 2 = 0 then low ≤ 2 * t && 2 * t ≤ high else low < 2 * t && 2 * t < high

/-- Of the two neighbours of `p` on the grid of multiples of `step`, the one that reads back as
`p`; of two such neighbours the nearer, and from halfway the larger. -/
def onGrid? (p step : Nat) : Option Nat :=
  let exact := decimalUnits p
  let below := exact / step * step
  let above := below + step
  if reaches p below && reaches p above then
    some (if exact - below < above - exact then below else above)
  else if reaches p below then some below
  else if reaches p above then some above
  else none

/-- A decimal with the fewest digits that reads back as `p`, in decimal units: the grids of
1, 2, … 17 significant digits are tried in turn. -/
def shortest (p : Nat) : Nat :=
  let exact := decimalUnits p
  let size := (Nat.toDigits 10 exact).length
  ((List.range 17).findSome? fun i => onGrid? p (Nat.pow 10 (size - (i + 1)))).getD exact

def significant (ds : List Char) : List Char :=
  (ds.reverse.dropWhile (· = '0')).reverse

/-- Digits with the decimal point before place `point`, filled up with zeros so that at least one
digit stands on each side. -/
def positional (ds : List Char) (point : Int) : List Char :=
  let whole := ds.take point.toNat ++ List.replicate (point.toNat - ds.length) '0'
  let fraction := List.replicate (-point).toNat '0' ++ ds.drop point.toNat
  (if whole.isEmpty then ['0'] else whole) ++ '.' :: (if fraction.isEmpty then ['0'] else fraction)

def scientific (ds : List Char) (point : Int) : List Char :=
  ds.take 1 ++ (if ds.length ≤ 1 then [] else '.' :: ds.drop 1) ++
    'e' :: (toString (point - 1)).toList

/-- The magnitude of a finite pattern: positional from `10 ^ -4` up to `10 ^ 16`, scientific
outside. -/
def magnitudeText (p : Nat) : List Char :=
  if p = 0 then ['0', '.', '0']
  else
    let all := Nat.toDigits 10 (shortest p)
    let point : Int := all.length - 1074
    if -3 ≤ point ∧ point ≤ 16 then positional (significant all) point
    else scientific (significant all) point

def text (x : Binary64) : String :=
  if x.isNaN then "NaN"
  else
    String.ofList ((if x.isNegative then ['-'] else []) ++
      (if x.isFinite then magnitudeText x.pattern else ['i', 'n', 'f']))

end Frontend.Binary64

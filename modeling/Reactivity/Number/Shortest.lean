/-!
# Shortest decimal digits of a binary64 value

A finite double stands for every real that rounds to it: the reals between the two
midpoints to its neighbours, the midpoints themselves included exactly when the
significand is even. `Binary.shortest` returns a decimal of that interval with the
fewest significant digits, and of the two candidates on a grid the nearer one; an exact
tie between them goes as the caller's `Tie` says. All arithmetic is on naturals.
-/

namespace Reactivity.Decimal

/-- A finite non-negative binary64 value `m * 2^q`. -/
structure Binary where
  m : Nat
  q : Int
  /-- the gap to the value below is half the gap to the value above -/
  narrowBelow : Bool
deriving Repr, DecidableEq

/-- The magnitude of a finite double from its bits; the sign bit is ignored. -/
def Binary.ofBits (b : UInt64) : Binary :=
  let e := ((b >>> 52) &&& 0x7FF).toNat
  let f := (b &&& 0xFFFFFFFFFFFFF).toNat
  if e = 0 then ⟨f, -1074, false⟩ else ⟨Nat.pow 2 52 + f, (e : Int) - 1075, f = 0 && e > 1⟩

/-- The decimal `digits * 10^exp`. -/
structure Dec where
  digits : Nat
  exp : Int
deriving Repr, DecidableEq

/-- Which of two equally near candidates is taken. -/
inductive Tie where
  /-- the candidate with the even last digit -/
  | toEven
  /-- the candidate of larger magnitude -/
  | up
deriving Repr, DecidableEq

/-- Compares `a * 10^i` with `n * 2^j` exactly. -/
def cmpScaled (a : Nat) (i : Int) (n : Nat) (j : Int) : Ordering :=
  compare (a * Nat.pow 10 i.toNat * Nat.pow 2 (-j).toNat) (n * Nat.pow 2 j.toNat * Nat.pow 10 (-i).toNat)

/-- The decimal `d` lies among the reals that round to `x`. In units of `2^(q-2)` the value
is `4m`, the upper end `4m + 2` and the lower end `4m - 2`, or `4m - 1` below a power of two. -/
def Binary.readsBack (x : Binary) (d : Dec) : Bool :=
  let lower := if x.narrowBelow then 4 * x.m - 1 else 4 * x.m - 2
  let upper := 4 * x.m + 2
  let closed := x.m % 2 = 0
  let atLower := cmpScaled d.digits d.exp lower (x.q - 2)
  let atUpper := cmpScaled d.digits d.exp upper (x.q - 2)
  (atLower = .gt || (closed && atLower = .eq)) && (atUpper = .lt || (closed && atUpper = .eq))

/-- The number of decimal digits of `n`; zero has none. -/
def digitCount (n : Nat) : Nat :=
  if n = 0 then 0 else digitCount (n / 10) + 1
termination_by n
decreasing_by omega

/-- The least `k` with `x < 10^k`, for a non-zero `x`. -/
def Binary.scale (x : Binary) : Int :=
  let whole := x.m * Nat.pow 2 x.q.toNat / Nat.pow 2 (-x.q).toNat
  if whole ≥ 1 then digitCount whole
  else 1 - (digitCount ((Nat.pow 2 (-x.q).toNat - 1) / x.m) : Int)

/-- The multiple of `10^e` at or below `x`, counted in units of `10^e`. -/
def Binary.floorOn (x : Binary) (e : Int) : Nat :=
  x.m * Nat.pow 2 x.q.toNat * Nat.pow 10 (-e).toNat / (Nat.pow 2 (-x.q).toNat * Nat.pow 10 e.toNat)

/-- Compares `x` with the midpoint between `c * 10^e` and `(c + 1) * 10^e`. -/
def Binary.cmpMid (x : Binary) (c : Nat) (e : Int) : Ordering :=
  compare (2 * x.m * Nat.pow 2 x.q.toNat * Nat.pow 10 (-e).toNat)
    ((2 * c + 1) * Nat.pow 2 (-x.q).toNat * Nat.pow 10 e.toNat)

/-- The better of the two neighbours of `x` on the grid `10^e`, if either reads back. -/
def Binary.onGrid (x : Binary) (tie : Tie) (e : Int) : Option Dec :=
  let c := x.floorOn e
  let below : Dec := ⟨c, e⟩
  let above : Dec := ⟨c + 1, e⟩
  match x.readsBack below, x.readsBack above with
  | false, false => none
  | true, false => some below
  | false, true => some above
  | true, true =>
    match x.cmpMid c e with
    | .lt => some below
    | .gt => some above
    | .eq =>
      match tie with
      | .toEven => if c % 2 = 0 then some below else some above
      | .up => some above

/-- The exact decimal value of `x`. -/
def Binary.exact (x : Binary) : Dec :=
  if x.q ≥ 0 then ⟨x.m * Nat.pow 2 x.q.toNat, 0⟩ else ⟨x.m * Nat.pow 5 (-x.q).toNat, x.q⟩

/-- Moves trailing zeros of the digits into the exponent. -/
def Dec.trim (d : Dec) : Dec :=
  if d.digits ≠ 0 ∧ d.digits % 10 = 0 then Dec.trim ⟨d.digits / 10, d.exp + 1⟩ else d
termination_by d.digits
decreasing_by omega

/-- The shortest decimal that reads back as `x`, found on the grids of one, two, …,
seventeen significant digits; zero is `0 * 10^0`. -/
def Binary.shortest (x : Binary) (tie : Tie) : Dec :=
  if x.m = 0 then ⟨0, 0⟩
  else
    let k := x.scale
    match (List.range 17).findSome? (fun n => x.onGrid tie (k - (n + 1 : Nat))) with
    | some d => d.trim
    | none => x.exact.trim

/-- The decimal digits of `n`, most significant first; zero is written `0`. -/
def digitsOf (n : Nat) : List Char :=
  if n < 10 then [Char.ofNat (48 + n)] else digitsOf (n / 10) ++ [Char.ofNat (48 + n % 10)]
termination_by n
decreasing_by omega

example : (Binary.ofBits 0x3FF0000000000000).shortest .toEven = ⟨1, 0⟩ := by decide +kernel
example : (Binary.ofBits 0x3FB999999999999A).shortest .toEven = ⟨1, -1⟩ := by decide +kernel

end Reactivity.Decimal

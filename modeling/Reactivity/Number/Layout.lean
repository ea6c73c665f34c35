import Reactivity.Number.Shortest

/-!
# Spelling a double in text

A `NumberLayout` records the decisions of one output format: which decimal exponents are
written positionally, whether a whole number keeps a `.0`, how an exponent is signed,
which integers are written digit for digit, and how a tie between two shortest candidates
goes. `NumberLayout.spell` writes a finite double under those decisions from the shortest
digits of `Reactivity.Decimal`; the texts of NaN and the infinities belong to each caller.
-/

namespace Reactivity

open Decimal

/-- The decisions of one way of writing finite doubles. -/
structure NumberLayout where
  /-- the scientific exponents (of the form `d.ddd × 10^e`) written positionally -/
  positional : Int → Bool
  /-- a whole number written positionally ends in `.0` -/
  pointZero : Bool
  /-- a non-negative exponent is written with `+` -/
  plusExponent : Bool
  /-- whole numbers of magnitude below this bound are written by their exact digits -/
  wholeBelow : Nat
  /-- how a tie between two shortest candidates goes -/
  tie : Tie

/-- `n` zeros. -/
def zeros (n : Nat) : List Char := List.replicate n '0'

/-- Digits `ds` (most significant first, non-empty) of a number `0.d1d2… × 10^(e+1)`, written
without an exponent; `pointZero` adds `.0` to a whole number. -/
def positionalText (ds : List Char) (e : Int) (pointZero : Bool) : List Char :=
  if e < 0 then '0' :: '.' :: (zeros ((-e).toNat - 1) ++ ds)
  else
    let whole := e.toNat + 1
    if whole ≥ ds.length then
      ds ++ zeros (whole - ds.length) ++ (if pointZero then ['.', '0'] else [])
    else ds.take whole ++ '.' :: ds.drop whole

/-- Digits `ds` of `d1.d2… × 10^e`, written with an exponent mark `e`. -/
def scientificText (ds : List Char) (e : Int) (plus : Bool) : List Char :=
  let mantissa := match ds with
    | [] => ['0']
    | [d] => [d]
    | d :: rest => d :: '.' :: rest
  let sign := if e < 0 then ['-'] else if plus then ['+'] else []
  mantissa ++ 'e' :: (sign ++ digitsOf e.natAbs)

/-- The text of a finite double under layout `L`, with a leading `-` when the sign bit is set. -/
def NumberLayout.spell (L : NumberLayout) (x : Float) : String :=
  let bits := x.toBits
  let negative := bits >>> 63 = 1
  let b := Binary.ofBits bits
  let sign := if negative then "-" else ""
  let whole := b.q ≥ 0 || b.m % Nat.pow 2 (-b.q).toNat = 0
  let magnitude := b.m * Nat.pow 2 b.q.toNat / Nat.pow 2 (-b.q).toNat
  if whole && magnitude < L.wholeBelow then
    sign ++ String.ofList (digitsOf magnitude)
  else
    let d := b.shortest L.tie
    let ds := digitsOf d.digits
    let e := d.exp + ds.length - 1
    if L.positional e then sign ++ String.ofList (positionalText ds e L.pointZero)
    else sign ++ String.ofList (scientificText ds e L.plusExponent)


namespace NumberLayout

/-- Plain text: every number positional with all its digits, a whole number without a point;
of two equally near shortest candidates the larger. -/
def plain : NumberLayout :=
  ⟨fun _ => true, false, false, 0, .up⟩

/-- Diagnostic text: positional from `10^-4` up to below `10^16` with at least one digit after
the point, otherwise with an exponent written `e7` or `e-7`. -/
def diagnostic : NumberLayout :=
  ⟨fun e => decide (-4 ≤ e ∧ e < 16), true, false, 0, .up⟩

/-- JSON documents: positional for exponents from -5 to 15 with a whole number ending in `.0`,
otherwise with an exponent written `e+16` or `e-7`; ties to even. -/
def document : NumberLayout :=
  ⟨fun e => decide (-6 < e ∧ e < 16), true, true, 0, .toEven⟩

/-- Results: like `document`, but a whole number below `10^17` is written as an integer. -/
def result : NumberLayout :=
  ⟨fun e => decide (-6 < e ∧ e < 16), false, true, Nat.pow 10 17, .toEven⟩

end NumberLayout

end Reactivity

/-!
# Identifiers in diagnostic texts

Watchers and dependency sets are named in diagnostic texts as `SubscriberId(n)` and
`DepId(n)`. Such a label is written with its number in plain decimal: leading zeros are
dropped. A label whose number does not fit in 64 bits, or whose parentheses hold anything
but digits, is left as it stands.
-/

namespace Reactivity.Text

/-- The two label heads, up to and including the opening parenthesis. -/
def labelHeads : List (List Char) := ["SubscriberId(".toList, "DepId(".toList]

/-- The largest number of 64 bits. -/
def labelLimit : Nat := 18446744073709551615

/-- The label at the front of `cs`, if one stands there: its text in plain decimal and what
follows it. -/
def frontLabel (cs : List Char) : Option (List Char × List Char) :=
  labelHeads.findSome? fun head => do
    let rest ← head.isPrefixOf? cs
    let digits := rest.takeWhile Char.isDigit
    let after := rest.dropWhile Char.isDigit
    let n := digits.foldl (fun n d => 10 * n + (d.toNat - 48)) 0
    match after with
    | ')' :: tail =>
      if digits ≠ [] ∧ n ≤ labelLimit then some (head ++ (toString n).toList ++ [')'], tail)
      else none
    | _ => none

/-- Rewrites the labels of `cs` from left to right; `fuel` bounds the characters looked at. -/
def relabelChars (fuel : Nat) (cs : List Char) : List Char :=
  match fuel, cs with
  | 0, cs => cs
  | _, [] => []
  | fuel + 1, c :: rest =>
    match frontLabel (c :: rest) with
    | some (label, tail) => label ++ relabelChars fuel tail
    | none => c :: relabelChars fuel rest

/-- A text with each identifier label in plain decimal. -/
def relabel (s : String) : String :=
  String.ofList (relabelChars s.length s.toList)

end Reactivity.Text

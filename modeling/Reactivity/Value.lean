import Reactivity.Handle

/-!
# Dynamic values

`Value` is what tracked containers hold. Scalars are stored inline; objects and lists are
handles into the engine's heap, so two values holding the same handle hold the same
container, and `Value.same` compares containers by handle. `Key` addresses a slot of a
container: a list index or an object key.
-/

namespace Reactivity

/-- A value stored in a container. -/
inductive Value where
  /-- an absent value: missing keys and failed user getters give this -/
  | undefined
  | null
  | bool (b : Bool)
  | num (x : Float)
  | str (s : String)
  | obj (o : ObjRef)
  | list (l : ListRef)
deriving Inhabited

namespace Value

/-- The change test of properties and watchers: scalars by value with NaN equal to itself
(so `0` and `-0` are the same), containers by handle. -/
def same : Value → Value → Bool
  | .undefined, .undefined => true
  | .null, .null => true
  | .bool a, .bool b => a == b
  | .num a, .num b => a == b || (a.isNaN && b.isNaN)
  | .str a, .str b => a == b
  | .obj a, .obj b => a == b
  | .list a, .list b => a == b
  | _, _ => false

/-- Objects and lists. -/
def isContainer : Value → Bool
  | .obj _ | .list _ => true
  | _ => false

/-- The name of the variant, as messages use it. -/
def kind : Value → String
  | .undefined => "undefined"
  | .null => "null"
  | .bool _ => "boolean"
  | .num _ => "number"
  | .str _ => "string"
  | .obj _ => "object"
  | .list _ => "array"

/-- The number, if the value is one. -/
def asNum? : Value → Option Float
  | .num x => some x
  | _ => none

/-- The string, if the value is one. -/
def asStr? : Value → Option String
  | .str s => some s
  | _ => none

end Value

/-- Reads a list index as an unsigned decimal: digits with an optional leading `+`, nothing
else, and below `2^64`. -/
def parseIndex (s : String) : Option Nat :=
  let cs := s.toList
  let ds := match cs with
    | '+' :: rest => rest
    | _ => cs
  if ds.isEmpty || !ds.all Char.isDigit then none
  else
    let n := ds.foldl (fun n d => 10 * n + (d.toNat - 48)) 0
    if n < Nat.pow 2 64 then some n else none

/-- A key addressing a slot: a list index or an object key. -/
inductive Key where
  | index (n : Nat)
  | name (s : String)

namespace Key

/-- The key as a list index, reading a name as a decimal. -/
def asIndex? : Key → Option Nat
  | .index n => some n
  | .name s => parseIndex s

/-- The key as an object key. -/
def toName : Key → String
  | .index n => toString n
  | .name s => s

end Key

end Reactivity

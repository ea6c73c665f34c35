import Reactivity.Script.Decode

/-!
# Operations on containers

The operations of a script that observe values and read or change objects and lists. Reads
go through the tracked accessors, so inside an evaluation they are recorded; writes notify
as the engine's writes do.

Lists are sorted stably by one of three orders: by number ascending or descending (values
that are not numbers come first, or last, and two numbers that do not compare are taken as
equal), or by string in byte order (values that are not strings come first).
-/

namespace Reactivity

namespace Script

open Interp

/-- Ascending numbers, with values that are not numbers before all numbers. -/
def numberBefore (x y : Value) : Bool :=
  match x.asNum?, y.asNum? with
  | none, some _ => true
  | some a, some b => a < b
  | _, _ => false

/-- Strings in the order of their bytes, with values that are not strings first. -/
def stringBefore (x y : Value) : Bool :=
  match x.asStr?, y.asStr? with
  | none, some _ => true
  | some a, some b => decide (a < b)
  | _, _ => false

/-- The order named by a sort operation. -/
def sortOrder : String → Script (Value → Value → Bool)
  | "num" => pure numberBefore
  | "num_desc" => pure fun x y => numberBefore y x
  | "str" => pure stringBefore
  | _ => refuse "unknown sort order"

/-- What is known of a value's container: kind, raw mark, observer, tracked keys. -/
def describe (v : Value) : Script Value := do
  let m ← get
  let kind := [("kind", Value.str v.kind)]
  let shape : List (String × Value) := match v with
    | .obj o =>
      let c := m.object o
      [("raw", .bool c.raw), ("observed", .bool c.observer.isSome)]
    | .list l =>
      let c := m.listCell l
      [("raw", .bool c.raw), ("observed", .bool c.observer.isSome)]
    | _ => []
  let observed : List (String × Value) := match m.observerOf v with
    | some ob =>
      let n := count (m.dep ob.dep).subs.length
      [("root_count", count ob.rootCount), ("subs", n), ("entries", n)]
    | none => []
  let tracked : List (String × Value) ← match v with
    | .obj o => do
      let keys := (m.object o).slots.filterMap fun
        | (k, .tracked _) => some (Value.str k)
        | _ => none
      pure [("tracked", ← list keys)]
    | _ => pure []
  object (kind ++ shape ++ observed ++ tracked)

/-- A removed value as a list of at most one value. -/
def removed (v : Option Value) : Script Value := list v.toList

/-- The container operations; none for any other name. -/
def containers (I : Interp) (op : String) (raw : Json) : Option (Script Value) :=
  let p := raw.arguments
  let r := I.runner
  match op with
  | "observe" => some do
    let v ← I.valueAt p 0
    let asRoot := flagAt p 1
    return .bool (← Eff.observe v asRoot).isSome
  | "mark_raw" => some do
    match ← I.valueAt p 0 with
    | .obj o => Eff.modifyObject o fun c => { c with raw := true }; pure (.obj o)
    | .list l => Eff.modifyList l fun c => { c with raw := true }; pure (.list l)
    | v => refuse ("cannot mark a " ++ v.kind ++ " value raw")
  | "toggle_observing" => some do
    let b := flagAt p 0
    modify fun m => { m with observing := b }
    return .undefined
  | "is_observing" => some do return .bool (← get).observing
  | "define_reactive" => some do
    let o ← I.objectAt p 0
    let key ← textAt p 1
    let v ← I.valueAt p 2
    let shallow := flagAt p 3
    let hook ← closureAt? p 4
    Eff.defineReactive o key v (hook.map .action) shallow
    return .undefined
  | "set" => some do
    let target ← I.valueAt p 0
    let key ← keyAt p 1
    let v ← I.valueAt p 2
    Eff.set r target key v
  | "delete" => some do
    let target ← I.valueAt p 0
    let key ← keyAt p 1
    Eff.remove r target key
    return .undefined
  | "put" => some do
    let o ← I.objectAt p 0
    let key ← textAt p 1
    let v ← I.valueAt p 2
    Eff.objPut r o key v
    return .undefined
  | "get" => some do
    let v ← I.valueAt p 0
    Eff.member v (← textAt p 1)
  | "get_untracked" => some do
    let o ← I.objectAt p 0
    Eff.objPeek o (← textAt p 1)
  | "keys" => some do
    let o ← I.objectAt p 0
    list ((← Eff.objKeys o).map .str)
  | "len" => some do
    match ← I.valueAt p 0 with
    | .obj o => return count (← Eff.objSize o)
    | .list l => return count (← Eff.listSize l)
    | v => refuse ("a " ++ v.kind ++ " value has no length")
  | "is_empty" => some do
    match ← I.valueAt p 0 with
    | .obj o => return .bool ((← Eff.objSize o) = 0)
    | .list l => return .bool ((← Eff.listSize l) = 0)
    | v => refuse ("a " ++ v.kind ++ " value has no length")
  | "contains_key" => some do
    let o ← I.objectAt p 0
    return .bool (← Eff.objHas o (← textAt p 1))
  | "is_tracked" => some do
    let o ← I.objectAt p 0
    return .bool (← Eff.isTracked o (← textAt p 1))
  | "info" => some do describe (← I.valueAt p 0)
  | "idx" => some do
    let l ← I.listAt p 0
    Eff.listGet l (← natAt p 1)
  | "to_vec" => some do
    let l ← I.listAt p 0
    list (← Eff.listItems l)
  | "push" => some do
    let l ← I.listAt p 0
    let v ← I.valueAt p 1
    return count (← Eff.push r l v)
  | "unshift" => some do
    let l ← I.listAt p 0
    let v ← I.valueAt p 1
    return count (← Eff.unshift r l v)
  | "pop" => some do removed (← Eff.pop r (← I.listAt p 0))
  | "shift" => some do removed (← Eff.shift r (← I.listAt p 0))
  | "splice" => some do
    let l ← I.listAt p 0
    let start ← natAt p 1
    let n ← natAt p 2
    let added ← match (p[3]? : Option Json) with
      | none => pure []
      | some es => es.arguments.mapM I.eval
    list (← Eff.splice r l start n added)
  | "sort" => some do
    let l ← I.listAt p 0
    let before ← sortOrder (← textAt p 1)
    Eff.sortBy r l before
    return .undefined
  | "reverse" => some do
    Eff.reverse r (← I.listAt p 0)
    return .undefined
  | "traverse" => some do
    Eff.traverse (← I.valueAt p 0)
    return .undefined
  | "dep_debug" => some do
    let v ← I.valueAt p 0
    let m ← get
    match m.observerOf v with
    | some ob => pure (.str (m.observerText ob))
    | none => pure .null
  | _ => none

end Script

end Reactivity

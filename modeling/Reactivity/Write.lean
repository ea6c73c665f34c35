import Reactivity.Schedule
import Reactivity.Sorting

/-!
# Writing to containers

A write to a tracked property that changes its value runs the property's assign hook, observes
the new value (unless the property is shallow), stores it and notifies the property's set.
`Eff.set` and `Eff.remove` are the checked writes: on a list the key must be an index (a write
past the end pads the list with undefined), on an object a new key becomes a tracked property
of an observed object and notifies the object's own set, and the keys of an object that is
the root data of a scope are never added or removed (a warning is given instead).

The list mutators behave as on a sequence; when the list is observed they observe the values
put in and notify the list's set once.
-/

namespace Reactivity

namespace Eff

variable {η : Type}

/-- Runs the assign hook of a tracked property, before a changed value is stored: host code,
or a warning when a prop of a scope is written while the scope is not updating its props. -/
def assign (r : Runner η) : Option AssignHook → Eff η Unit
  | none => pure ()
  | some (.action c) => perform r c
  | some (.propGuard s key) => do
    let cell := (← get).scope s
    if !cell.updating then
      warn ("avoid mutating prop \"" ++ key ++ "\" of scope \"" ++ cell.name ++
        "\" directly: the value is overwritten whenever the parent re-renders")

/-- Stores a new value in a tracked property. -/
def propSet (r : Runner η) (p : PropId) (v : Value) : Eff η Unit := do
  let prop := (← get).prop p
  if prop.value.same v then return
  assign r prop.hook
  let child ← if prop.shallow then pure none else observe v false
  modifyProp p fun c => { c with value := v, childDep := child }
  notify r prop.dep

/-- Writes `key` of an object: through the setter of a tracked key, else as a plain value in
place or at the end. -/
def objPut (r : Runner η) (o : ObjRef) (key : String) (v : Value) : Eff η Unit := do
  match ← slot? o key with
  | some (.tracked p) => propSet r p v
  | _ => install o key (.plain v)

/-- Tells the observer of a list, if it has one, that the list changed, observing the values
put in first. -/
def mutated (r : Runner η) (l : ListRef) (added : List Value) : Eff η Unit := do
  if let some ob := ((← get).listCell l).observer then
    for v in added do
      let _ ← observe v false
    notify r ob.dep

/-- Replaces the items of a list. -/
def setItems (l : ListRef) (items : List Value) : Eff η Unit :=
  modifyList l fun c => { c with items := items }

/-- Appends a value; the result is the new length. -/
def push (r : Runner η) (l : ListRef) (v : Value) : Eff η Nat := do
  let items := (← itemsUntracked l) ++ [v]
  setItems l items
  mutated r l [v]
  return items.length

/-- Prepends a value; the result is the new length. -/
def unshift (r : Runner η) (l : ListRef) (v : Value) : Eff η Nat := do
  let items := v :: (← itemsUntracked l)
  setItems l items
  mutated r l [v]
  return items.length

/-- Removes the last value, if any. -/
def pop (r : Runner η) (l : ListRef) : Eff η (Option Value) := do
  let items ← itemsUntracked l
  setItems l items.dropLast
  mutated r l []
  return items.getLast?

/-- Removes the first value, if any. -/
def shift (r : Runner η) (l : ListRef) : Eff η (Option Value) := do
  let items ← itemsUntracked l
  setItems l items.tail
  mutated r l []
  return items.head?

/-- Replaces `count` values from `start` (both cut to the length) by `added`; the result is
the values removed. -/
def splice (r : Runner η) (l : ListRef) (start count : Nat) (added : List Value) :
    Eff η (List Value) := do
  let items ← itemsUntracked l
  let s := min start items.length
  let e := min (s + count) items.length
  setItems l (items.take s ++ added ++ items.drop e)
  mutated r l added
  return (items.drop s).take (e - s)

/-- Sorts a list stably by `before`. A comparison that the sort finds is not a strict weak
order halts the run, leaving the list as it was. -/
def sortBy (r : Runner η) (l : ListRef) (before : Value → Value → Bool) : Eff η Unit := do
  match Sorting.sort before (← itemsUntracked l) with
  | some sorted =>
    setItems l sorted
    mutated r l []
  | none =>
    halt (.abort "user-provided comparison function does not correctly implement a total order")

/-- Reverses a list. -/
def reverse (r : Runner η) (l : ListRef) : Eff η Unit := do
  setItems l (← itemsUntracked l).reverse
  mutated r l []

/-- Pads a list with undefined up to length `n`. -/
def padTo (l : ListRef) (n : Nat) : Eff η Unit := do
  let items ← itemsUntracked l
  if items.length < n then setItems l (items ++ List.replicate (n - items.length) .undefined)

/-- The root count of an object's observer, zero when unobserved. -/
def rootCount (o : ObjRef) : Eff η Nat :=
  return (((← get).object o).observer.map (·.rootCount)).getD 0

/-- Writes `v` under `key` of a container; the result is `v`. -/
def set (r : Runner η) (target : Value) (key : Key) (v : Value) : Eff η Value := do
  match target with
  | .list l =>
    match key.asIndex? with
    | none => fault (.invalidKey key.toName "array")
    | some i =>
      padTo l i
      let _ ← splice r l i 1 [v]
      return v
  | .obj o =>
    let name := key.toName
    if ← hasOwn o name then
      objPut r o name v
      return v
    if (← rootCount o) > 0 then
      warn ("avoid adding reactive property \"" ++ name ++
        "\" to root data at runtime; declare it upfront")
      return v
    match ((← get).object o).observer with
    | none => objPut r o name v
    | some ob =>
      defineReactive o name v none false
      notify r ob.dep
    return v
  | other => fault (.notContainer "set" other.kind)

/-- Removes `key` of a container. -/
def remove (r : Runner η) (target : Value) (key : Key) : Eff η Unit := do
  match target with
  | .list l =>
    match key.asIndex? with
    | none => fault (.invalidKey key.toName "array")
    | some i =>
      if i < (← itemsUntracked l).length then
        let _ ← splice r l i 1 []
  | .obj o =>
    let name := key.toName
    let ob := ((← get).object o).observer
    if (← rootCount o) > 0 then
      warn ("avoid deleting property \"" ++ name ++ "\" from root data; set it to null instead")
      return
    if !(← hasOwn o name) then return
    modifyObject o fun c => { c with slots := c.slots.filter (·.1 ≠ name) }
    if let some ob := ob then notify r ob.dep
  | other => fault (.notContainer "delete" other.kind)

end Eff

end Reactivity

import Reactivity.Track

/-!
# Observed containers

Reading containers, and turning them into observed ones.

A read of a tracked property records its dependency set and, when the value was observed as
it was stored, the observer's set too; a list value then also records the observers of the
containers in it, through nested lists. Reading the keys or the size of an observed object
records its own set. Reading a list records its observer's set and those of the containers in
it, unless its set was already read in this evaluation.

`Eff.observe` gives a container an observer, once for its whole life: an object's keys all
become tracked properties, a list's items are observed in turn, and containers already
observed or marked raw are left as they are. `Eff.traverse` reads a value deeply, visiting each
container once.

Recursion through nested containers is bounded by the number of containers: observing and
traversing visit each container once, and reading the observers inside a list that holds
itself halts.
-/

namespace Reactivity

/-- Puts `slot` under `key`, in place if the key exists, else at the end. -/
def putSlot (key : String) (slot : Slot) : List (String × Slot) → List (String × Slot)
  | [] => [(key, slot)]
  | (k, s) :: rest => if k = key then (k, slot) :: rest else (k, s) :: putSlot key slot rest

namespace Eff

variable {η : Type}

/-- The number of containers, which bounds any walk that visits each at most once. -/
def containerCount : Eff η Nat := do
  let m ← get
  return m.objects.size + m.lists.size + 1

/-- Records reads of the observers of the containers in a list, through nested lists. -/
def dependItems (fuel : Nat) (l : ListRef) : Eff η Unit :=
  match fuel with
  | 0 => halt .exhausted
  | fuel + 1 => do
    for item in ((← get).listCell l).items do
      match item with
      | .obj o =>
        if let some ob := ((← get).object o).observer then depend ob.dep
      | .list inner =>
        if let some ob := ((← get).listCell inner).observer then depend ob.dep
        dependItems fuel inner
      | _ => pure ()

/-- `dependItems` with the bound of all containers. -/
def dependList (l : ListRef) : Eff η Unit := do
  dependItems (← containerCount) l

/-- The value of a tracked property, recording the read. -/
def propGet (p : PropId) : Eff η Value := do
  let m ← get
  let prop := m.prop p
  if m.target.isSome then
    depend prop.dep
    if let some child := prop.childDep then
      depend child
      if let .list l := prop.value then dependList l
  return prop.value

/-- The slot of `key` in an object. -/
def slot? (o : ObjRef) (key : String) : Eff η (Option Slot) :=
  return ((← get).object o).slots.lookup key

/-- Records a read of an observed object's own set. -/
def trackObject (o : ObjRef) : Eff η Unit := do
  let m ← get
  if m.target.isSome then
    if let some ob := (m.object o).observer then depend ob.dep

/-- The value under `key`, recording the read. -/
def objGet (o : ObjRef) (key : String) : Eff η Value := do
  match ← slot? o key with
  | some (.plain v) => pure v
  | some (.tracked p) => propGet p
  | none => pure .undefined

/-- The value under `key`, without recording anything. -/
def objPeek (o : ObjRef) (key : String) : Eff η Value := do
  match ← slot? o key with
  | some (.plain v) => pure v
  | some (.tracked p) => return ((← get).prop p).value
  | none => pure .undefined

/-- The keys of an object in order, without recording anything. -/
def objKeysUntracked (o : ObjRef) : Eff η (List String) :=
  return ((← get).object o).slots.map (·.1)

/-- The keys of an object in order, recording the read. -/
def objKeys (o : ObjRef) : Eff η (List String) := do
  trackObject o
  objKeysUntracked o

/-- Whether the object has `key`, without recording anything. -/
def hasOwn (o : ObjRef) (key : String) : Eff η Bool :=
  return (((← get).object o).slots.lookup key).isSome

/-- Whether the object has `key`, recording the read. -/
def objHas (o : ObjRef) (key : String) : Eff η Bool := do
  trackObject o
  hasOwn o key

/-- The number of keys, recording the read. -/
def objSize (o : ObjRef) : Eff η Nat := do
  trackObject o
  return ((← get).object o).slots.length

/-- Whether `key` is backed by a tracked property. -/
def isTracked (o : ObjRef) (key : String) : Eff η Bool := do
  match ← slot? o key with
  | some (.tracked _) => pure true
  | _ => pure false

/-- Records a read of a list: its observer's set and the observers inside it, unless the
set was already read in this evaluation. -/
def trackList (l : ListRef) : Eff η Unit := do
  let m ← get
  match m.target with
  | none => pure ()
  | some t =>
    match (m.listCell l).observer with
    | some ob =>
      if (m.watcher t).newDeps.contains ob.dep then return
      depend ob.dep
    | none => pure ()
    dependList l

/-- The items of a list, without recording anything. -/
def itemsUntracked (l : ListRef) : Eff η (List Value) :=
  return ((← get).listCell l).items

/-- The items of a list, recording the read. -/
def listItems (l : ListRef) : Eff η (List Value) := do
  trackList l
  itemsUntracked l

/-- The length of a list, recording the read. -/
def listSize (l : ListRef) : Eff η Nat := do
  trackList l
  return ((← get).listCell l).items.length

/-- The item at `i`, undefined past the end, recording the read. -/
def listGet (l : ListRef) (i : Nat) : Eff η Value := do
  trackList l
  return ((← get).listCell l).items[i]?.getD .undefined

/-- Member access: a key of an object, or an index of a list written in decimal; anything
else is undefined. The read is recorded. -/
def member (v : Value) (key : String) : Eff η Value :=
  match v with
  | .obj o => objGet o key
  | .list l =>
    match parseIndex key with
    | some i => listGet l i
    | none => pure .undefined
  | _ => pure .undefined

/-- Puts a slot into an object. -/
def install (o : ObjRef) (key : String) (s : Slot) : Eff η Unit :=
  modifyObject o fun c => { c with slots := putSlot key s c.slots }

/-- Adds one to the root count of a container's observer. -/
def bumpRoot (v : Value) : Eff η Unit :=
  match v with
  | .obj o => modifyObject o fun c => { c with observer := c.observer.map fun ob => { ob with rootCount := ob.rootCount + 1 } }
  | .list l => modifyList l fun c => { c with observer := c.observer.map fun ob => { ob with rootCount := ob.rootCount + 1 } }
  | _ => pure ()

mutual

/-- Observes a value; the result is the set of its observer. -/
def observeWith (fuel : Nat) (v : Value) (asRoot : Bool) : Eff η (Option DepId) :=
  match fuel with
  | 0 => halt .exhausted
  | fuel + 1 => do
    let r ← match v with
      | .obj o => do
        let m ← get
        match (m.object o).observer with
        | some ob => pure (some ob.dep)
        | none =>
          if m.observing && !(m.object o).raw then
            let d ← newDep
            modifyObject o fun c => { c with observer := some ⟨d, 0⟩ }
            for key in ← objKeysUntracked o do
              let value ← objPeek o key
              defineWith fuel o key value none false
            pure (some d)
          else pure none
      | .list l => do
        let m ← get
        match (m.listCell l).observer with
        | some ob => pure (some ob.dep)
        | none =>
          if m.observing && !(m.listCell l).raw then
            let d ← newDep
            modifyList l fun c => { c with observer := some ⟨d, 0⟩ }
            for item in ← itemsUntracked l do
              let _ ← observeWith fuel item false
            pure (some d)
          else pure none
      | _ => pure none
    if asRoot && r.isSome then bumpRoot v
    return r

/-- Installs a tracked property, keeping the set of a property already under the key. -/
def defineWith (fuel : Nat) (o : ObjRef) (key : String) (v : Value) (hook : Option AssignHook)
    (shallow : Bool) : Eff η Unit :=
  match fuel with
  | 0 => halt .exhausted
  | fuel + 1 => do
    let dep ← match ← slot? o key with
      | some (.tracked p) => pure ((← get).prop p).dep
      | _ => newDep
    let child ← if shallow then pure none else observeWith fuel v false
    let p ← newProp ⟨v, dep, child, shallow, hook⟩
    install o key (.tracked p)

end

/-- Observes a value, adding one to its root count when `asRoot`; the result is the set of
its observer, if it has or gets one. -/
def observe (v : Value) (asRoot : Bool) : Eff η (Option DepId) := do
  observeWith (2 * (← containerCount) + 2) v asRoot

/-- Installs a tracked property under `key`. -/
def defineReactive (o : ObjRef) (key : String) (v : Value) (hook : Option AssignHook)
    (shallow : Bool) : Eff η Unit := do
  defineWith (2 * (← containerCount) + 2) o key v hook shallow

/-- Reads a value deeply, recording every read: each key and value of an object and each item
of a list, skipping raw containers and visiting each container once. -/
def visit (fuel : Nat) (seen : List Value) (v : Value) : Eff η (List Value) :=
  match fuel with
  | 0 => halt .exhausted
  | fuel + 1 =>
    match v with
    | .obj o => do
      if ((← get).object o).raw || seen.any (·.same v) then return seen
      let mut seen := v :: seen
      for key in ← objKeys o do
        seen ← visit fuel seen (← objGet o key)
      return seen
    | .list l => do
      if ((← get).listCell l).raw || seen.any (·.same v) then return seen
      let mut seen := v :: seen
      for item in ← listItems l do
        seen ← visit fuel seen item
      return seen
    | _ => return seen

/-- Reads a value deeply; see `visit`. -/
def traverse (v : Value) : Eff η Unit := do
  let _ ← visit (← containerCount) [] v

end Eff

end Reactivity

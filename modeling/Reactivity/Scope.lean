import Reactivity.Write

/-!
# Scopes

A scope is a node of a tree. It has props, set by its parent and guarded against direct
writes; data, which is observed as root data (so its keys are fixed); computed values; user
watches; a render watcher and lifecycle hooks. Destroying a scope destroys its children
first, stops all its watchers, forgets its render watcher and computed values, and gives up
its claim on its data.
-/

namespace Reactivity

namespace Eff

variable {η : Type}

/-- Makes a scope named `name` under `parent` (which lists it as a child), with tracked props
guarded against direct writes and `data` observed as root data: data that is not an object is
replaced by an empty one, with a warning unless it is undefined. -/
def newScope (name : String) (parent : Option ScopeId) (props : List (String × Value))
    (data : Value) : Eff η ScopeId := do
  let s : ScopeId := ⟨(← get).scopes.size⟩
  let propObj ← newObject []
  let wasObserving := (← get).observing
  modify fun m => { m with observing := false }
  for (k, v) in props do
    defineReactive propObj k v (some (.propGuard s k)) false
  modify fun m => { m with observing := wasObserving }
  let dataObj ← match data with
    | .obj o => pure o
    | .undefined => newObject []
    | other => do
      warn ("data of scope \"" ++ name ++ "\" should be an object, got " ++ other.kind)
      newObject []
  for k in ← objKeysUntracked propObj do
    if ← hasOwn dataObj k then
      warn ("data property \"" ++ k ++ "\" of scope \"" ++ name ++ "\" is already declared as a prop")
  let _ ← observe (.obj dataObj) true
  let cell : ScopeCell := { name := name, parent := parent, props := propObj, data := dataObj }
  modify fun m => { m with scopes := m.scopes.push cell }
  if let some p := parent then
    modifyScope p fun c => { c with children := c.children ++ [s] }
  return s

/-- Sets known props of a scope as its parent does, without warnings. -/
def updateProps (r : Runner η) (s : ScopeId) (props : List (String × Value)) : Eff η Unit := do
  modifyScope s fun c => { c with updating := true }
  for (k, v) in props do
    let propObj := ((← get).scope s).props
    if ← hasOwn propObj k then objPut r propObj k v
  modifyScope s fun c => { c with updating := false }

/-- Registers a computed value under `name`, in place of one of the same name. -/
def putComputed (name : String) (w : WatcherId) :
    List (String × WatcherId) → List (String × WatcherId)
  | [] => [(name, w)]
  | (k, v) :: rest => if k = name then (k, w) :: rest else (k, v) :: putComputed name w rest

/-- Makes a computed value of a scope (or of none); a name already used by data or props is
warned about and not registered. -/
def newComputed (scope : Option ScopeId) (name : String) (c : Closure) : Eff η WatcherId := do
  let w ← build scope (.function c) none { lazy := true } false
  if let some s := scope then
    let cell := (← get).scope s
    if ← hasOwn cell.data name then
      warn ("the computed property \"" ++ name ++ "\" is already defined in data")
    else if ← hasOwn cell.props name then
      warn ("the computed property \"" ++ name ++ "\" is already defined as a prop")
    else
      modifyScope s fun c => { c with computed := putComputed name w c.computed }
      release
  return w

/-- Options of a user watch. -/
structure WatchOptions where
  deep : Bool := false
  immediate : Bool := false
  sync : Bool := false

/-- Watches a getter in a scope: a user watcher whose faults are reported; with `immediate`
the callback is first called with the current value and undefined. The new watcher is held
by the operation until the caller releases it with `unhold`. -/
def watch (r : Runner η) (s : ScopeId) (getter : Getter) (callback : Option Closure)
    (o : WatchOptions) : Eff η WatcherId := do
  let w ← build (some s) getter callback { deep := o.deep, user := true, sync := o.sync } false
  pin (.watcher w)
  match ← attempt (evaluate r w) with
  | .ok v => modifyWatcher w fun c => { c with value := v }
  | .error e =>
    handleError r e (some s) ("getter for watcher \"" ++ ((← get).watcher w).expression ++ "\"")
  if o.immediate then
    if let some cb := callback then
      let cell := (← get).watcher w
      if let .error e ← attempt (untracked (r.invoke cb (.change cell.value .undefined))) then
        handleError r (.callback cell.expression e.message) (some s)
          ("callback for immediate watcher \"" ++ cell.expression ++ "\"")
  return w

/-- Mounts a scope: the previous render watcher is stopped and a new one renders at once;
a failed first render is raised and leaves the scope as it was. -/
def mount (r : Runner η) (s : ScopeId) (render : Closure) : Eff η Unit := do
  if let some prev := ((← get).scope s).render then teardown prev
  let _ ← create r (some s) (.render render) none { before := some (.renderOf s) } true
  unhold
  modifyScope s fun c => { c with mounted := true }

/-- Tells a scope's render watcher to render again. -/
def forceUpdate (r : Runner η) (s : ScopeId) : Eff η Unit := do
  if let some w := ((← get).scope s).render then update r w

/-- Destroys a scope: once, children first; its watchers stop and its claim on its data
ends. -/
def destroyWith (fuel : Nat) (s : ScopeId) : Eff η Unit :=
  match fuel with
  | 0 => halt .exhausted
  | fuel + 1 => do
    if ((← get).scope s).beingDestroyed then return
    modifyScope s fun c => { c with beingDestroyed := true }
    if let some p := (← get).parentOf s then
      if !((← get).scope p).beingDestroyed then
        modifyScope p fun c => { c with children := c.children.filter (· ≠ s) }
    let children := ((← get).scope s).children
    modifyScope s fun c => { c with children := [] }
    for c in children do destroyWith fuel c
    let watchers := ((← get).scope s).watchers
    modifyScope s fun c => { c with watchers := [] }
    for w in watchers do teardown w
    modifyScope s fun c => { c with render := none, computed := [] }
    let data := ((← get).scope s).data
    modifyObject data fun c => { c with observer := c.observer.map fun ob =>
      { ob with rootCount := ob.rootCount - 1 } }
    modifyScope s fun c => { c with destroyed := true }

/-- Destroys a scope; see `destroyWith`. -/
def destroy (s : ScopeId) : Eff η Unit := do
  destroyWith ((← get).scopes.size + 1) s
  released

end Eff

end Reactivity

import Reactivity.Observe

/-!
# Watchers

A watcher evaluates a getter and remembers the dependency sets the evaluation read. Each
evaluation (`Eff.evaluate`) opens a tracking frame, collects reads into the watcher's new
list, and then reconciles: the watcher leaves every set it read last time but not this time,
and the new list becomes its list. A user watcher's failed getter is reported and counts as
undefined. A deep watcher also reads its value deeply.

A path getter resolves its first key in the scope (props, then data, then computed values)
and the rest as member accesses. A computed value is a lazy watcher: it is evaluated only when
marked dirty, and reading it makes the reader depend on everything it read.

Faults are routed by `Eff.handleError`: up the living ancestors of a scope, through each
ancestor's error-captured hooks in order, until a hook answers `false`; otherwise to the
host's handler, or to the log when none is installed.
-/

namespace Reactivity

namespace Eff

variable {η : Type}

/-- The hooks of host code that answer whether a fault should travel further up. -/
def captureAt (r : Runner η) (hooks : List Closure) (err : Fault) (info : String) :
    Eff η Bool := do
  for h in hooks do
    if let .ok (.bool false) ← attempt (r.invoke h (.fault err.message err.kindName info)) then
      return false
  return true

/-- Reports a fault that nothing captured: to the host's handler, or to the log. -/
def unhandled (err : Fault) (info : String) : Eff η Unit := do
  if (← get).handler then
    report (.arr [.str "handler", .str err.kindName, .str err.message, .str info])
  else
    report (.arr [.str "error", .str "unhandled reactive error", .str ("error=" ++ err.message),
      .str ("info=" ++ info)])

/-- Routes a fault raised for `scope` with the description `info`. -/
def handleError (r : Runner η) (err : Fault) (scope : Option ScopeId) (info : String) :
    Eff η Unit := do
  let m ← get
  let mut current := scope.bind m.parentOf
  -- each step moves to a scope created earlier
  for _ in [0:m.scopes.size + 1] do
    match current with
    | none => break
    | some a =>
      pin (.scope a)
      let goOn ← captureAt r ((← get).scope a).errorCaptured err info
      unhold
      if !goOn then return
      current := (← get).parentOf a
  unhandled err info

/-- Runs host code for its effects: its value and faults are ignored. -/
def perform (r : Runner η) (c : Closure) : Eff η Unit := do
  let _ ← attempt (r.invoke c .none)

/-- Runs lifecycle hooks with tracking masked. -/
def callHooks (r : Runner η) (hooks : List Closure) : Eff η Unit :=
  untracked (hooks.forM (perform r))

/-- After an evaluation: leave the sets not read again, keep the new list. -/
def reconcile (w : WatcherId) : Eff η Unit := do
  let cell := (← get).watcher w
  for d in cell.deps do
    if !cell.newDeps.contains d then removeSub d w
  modifyWatcher w fun c => { c with deps := c.newDeps, newDeps := [] }

/-- Makes the watcher collecting reads depend on everything `w` read. -/
def dependOn (w : WatcherId) : Eff η Unit := do
  for d in ((← get).watcher w).deps do depend d

/-- Removes a watcher from its scope's lists. -/
def unregister (s : ScopeId) (w : WatcherId) : Eff η Unit := do
  modifyScope s fun c => { c with
    watchers := c.watchers.filter (· ≠ w)
    render := if c.render = some w then none else c.render }
  released

/-- Stops a watcher: it leaves its scope (unless the scope is being destroyed) and every
dependency set, and is inactive from then on. -/
def teardown (w : WatcherId) : Eff η Unit := do
  let m ← get
  if !(m.watcher w).active then return
  if let some s := m.scopeOf w then
    if !(m.scope s).beingDestroyed then unregister s w
  for d in ((← get).watcher w).deps do removeSub d w
  modifyWatcher w fun c => { c with deps := [], active := false }

mutual

/-- Evaluates a watcher's getter in a tracking frame of its own and reconciles its reads. -/
def evaluateWith (r : Runner η) (fuel : Nat) (w : WatcherId) : Eff η Value :=
  match fuel with
  | 0 => halt .exhausted
  | fuel + 1 => do
    let m ← get
    let cell := m.watcher w
    let scope := m.scopeOf w
    if let some s := scope then pin (.scope s)
    enter (some w)
    let result ← attempt (getterValue r fuel cell.getter scope)
    let result ← match result with
      | .error e =>
        if cell.user then
          handleError r (.getter cell.expression e.message) scope
            ("getter for watcher \"" ++ cell.expression ++ "\"")
          pure (.ok .undefined)
        else pure (.error e)
      | ok => pure ok
    if cell.deep then
      if let .ok v := result then traverse v
    leave
    reconcile w
    if scope.isSome then unhold
    match result with
    | .ok v => pure v
    | .error e => fault e

/-- The value of a getter for a watcher of scope `scope`. -/
def getterValue (r : Runner η) (fuel : Nat) (g : Getter) (scope : Option ScopeId) :
    Eff η Value :=
  match fuel with
  | 0 => halt .exhausted
  | fuel + 1 =>
    match g with
    | .function c => r.invoke c .none
    | .render c => do
      let _ ← r.invoke c .none
      pure .undefined
    | .noop _ => pure .undefined
    | .path segments =>
      match scope, segments with
      | none, _ => pure .undefined
      | some _, [] => pure .undefined
      | some s, first :: rest => do
        let mut v ← lookupWith r fuel s first
        for key in rest do
          v ← member v key
        return v

/-- A name of a scope: a prop, else a data key, else a computed value, else undefined. -/
def lookupWith (r : Runner η) (fuel : Nat) (s : ScopeId) (name : String) : Eff η Value :=
  match fuel with
  | 0 => halt .exhausted
  | fuel + 1 => do
    let cell := (← get).scope s
    if ← hasOwn cell.props name then objGet cell.props name
    else if ← hasOwn cell.data name then objGet cell.data name
    else match cell.computed.lookup name with
      | some w => computedWith r fuel w
      | none => pure .undefined

/-- The value of a computed value: evaluated first if dirty; the reader depends on what it
read. -/
def computedWith (r : Runner η) (fuel : Nat) (w : WatcherId) : Eff η Value :=
  match fuel with
  | 0 => halt .exhausted
  | fuel + 1 => do
    if ((← get).watcher w).dirty then
      let v ← evaluateWith r fuel w
      modifyWatcher w fun c => { c with value := v, dirty := false }
    if (← target).isSome then dependOn w
    return ((← get).watcher w).value

end

/-- Evaluates a watcher; see `evaluateWith`. -/
def evaluate (r : Runner η) (w : WatcherId) : Eff η Value :=
  evaluateWith r r.fuel w

/-- Evaluates a lazy watcher, stores the value and clears its dirty mark. -/
def refresh (r : Runner η) (w : WatcherId) : Eff η Unit := do
  let v ← evaluate r w
  modifyWatcher w fun c => { c with value := v, dirty := false }

/-- Resolves a name in a scope; see `lookupWith`. -/
def lookup (r : Runner η) (s : ScopeId) (name : String) : Eff η Value :=
  lookupWith r r.fuel s name

/-- Reads a computed value; see `computedWith`. -/
def computedGet (r : Runner η) (w : WatcherId) : Eff η Value :=
  computedWith r r.fuel w

/-- The options a watcher is made with. -/
structure WatcherOptions where
  deep : Bool := false
  user : Bool := false
  lazy : Bool := false
  sync : Bool := false
  before : Option BeforeHook := none

/-- Makes a watcher without evaluating it; a scope lists it, and takes it as its render
watcher when `render` is set. -/
def build (scope : Option ScopeId) (getter : Getter) (callback : Option Closure)
    (o : WatcherOptions) (render : Bool) : Eff η WatcherId := do
  let m ← get
  let w : WatcherId := ⟨m.watchers.size⟩
  set { m with watchers := m.watchers.push {
    scope := scope, expression := getter.describe, getter := getter, callback := callback,
    deep := o.deep, user := o.user, lazy := o.lazy, sync := o.sync, before := o.before,
    render := render, dirty := o.lazy } }
  if let some s := scope then
    if render then
      modifyScope s fun c => { c with render := some w }
      release
    modifyScope s fun c => { c with watchers := c.watchers ++ [w] }
  return w

/-- Makes a watcher and evaluates it unless it is lazy. The new watcher is held by the
operation (`pin`) until the caller releases it with `unhold`; if the first evaluation fails,
the watcher is torn down and the fault raised. -/
def create (r : Runner η) (scope : Option ScopeId) (getter : Getter) (callback : Option Closure)
    (o : WatcherOptions) (render : Bool) : Eff η WatcherId := do
  let w ← build scope getter callback o render
  pin (.watcher w)
  if !o.lazy then
    match ← attempt (evaluate r w) with
    | .ok v => modifyWatcher w fun c => { c with value := v }
    | .error e =>
      teardown w
      release
      unhold
      fault e
  return w

end Eff

end Reactivity

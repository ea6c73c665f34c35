import Reactivity.Value
import Reactivity.Fault
import Reactivity.Config
import Reactivity.Json.Basic

/-!
# The engine state

`Machine η` is the whole state of the engine: the heap of objects, lists and tracked
properties, the dependency sets, the watchers, the scopes, the tracking context, the flush
queue, the tick batch, the settings and the log of what was reported. `η` is the state of the
host that drives the engine; the host's code is referred to by `Closure` handles and run
through a `Runner`.

The engine's operations run in `Eff η`: a state monad over `Machine η` whose faults leave the
state as it is when they are raised, and which can halt as a whole.

A watcher or scope lives while something holds it: the host, a scope, the flush queue, the
tracking context, or an operation under way (`pins`). `Machine.collect` drops what nothing
holds any more; a dropped watcher leaves every dependency set.
-/

namespace Reactivity

/-- A handle to code of the host. -/
abbrev Closure := Nat

/-- What the engine passes to host code. -/
inductive Args where
  /-- nothing -/
  | none
  /-- the new and the old value of a watcher -/
  | change (new old : Value)
  /-- a fault: its text, the name of its kind, and where it arose -/
  | fault (message kind info : String)

/-- An object's or list's observer: its own dependency set and how many scopes use it as
their root data. -/
structure Observer where
  dep : DepId
  rootCount : Nat
deriving Inhabited

/-- What runs when a tracked property is given a new value. -/
inductive AssignHook where
  /-- host code, whose value and faults are ignored -/
  | action (c : Closure)
  /-- a warning about writing prop `key` of scope `scope` directly, unless the scope is
  updating its props -/
  | propGuard (scope : ScopeId) (key : String)

/-- A tracked property: its value, its dependency set, the observer of the value when it was
stored, whether values stored are left unobserved, and its assign hook. -/
structure Property where
  value : Value
  dep : DepId
  childDep : Option DepId
  shallow : Bool
  hook : Option AssignHook
deriving Inhabited

/-- A slot of an object. -/
inductive Slot where
  | plain (v : Value)
  | tracked (p : PropId)
deriving Inhabited

/-- An object: its slots in insertion order, its observer, and whether it is never observed. -/
structure ObjectCell where
  slots : List (String × Slot) := []
  observer : Option Observer := none
  raw : Bool := false
deriving Inhabited

/-- A list: its items, its observer, and whether it is never observed. -/
structure ListCell where
  items : List Value := []
  observer : Option Observer := none
  raw : Bool := false
deriving Inhabited

/-- A dependency set: the watchers subscribed to it, in subscription order. -/
structure DepCell where
  subs : List WatcherId := []
deriving Inhabited

/-- How a watcher computes its value. -/
inductive Getter where
  /-- a path of keys resolved against the watcher's scope -/
  | path (segments : List String)
  /-- host code -/
  | function (c : Closure)
  /-- host code run for its effects; the value is undefined -/
  | render (c : Closure)
  /-- a path that could not be read: always undefined -/
  | noop (text : String)
deriving Inhabited

/-- The text a getter is described by. -/
def Getter.describe : Getter → String
  | .path segments => ".".intercalate segments
  | .function _ => "<function>"
  | .render _ => "<function>"
  | .noop text => text

/-- What runs before a watcher runs in a flush. -/
inductive BeforeHook where
  /-- host code, whose value and faults are ignored -/
  | action (c : Closure)
  /-- the before-update hooks of a scope, while it is mounted and not destroyed -/
  | renderOf (s : ScopeId)

/-- A watcher. -/
structure WatcherCell where
  scope : Option ScopeId
  expression : String
  getter : Getter
  callback : Option Closure
  deep : Bool
  user : Bool
  lazy : Bool
  sync : Bool
  before : Option BeforeHook
  render : Bool
  active : Bool := true
  dirty : Bool
  value : Value := .undefined
  /-- the dependency sets read by the last evaluation, in order of first read -/
  deps : List DepId := []
  /-- the dependency sets read so far by the evaluation under way -/
  newDeps : List DepId := []
  dropped : Bool := false

/-- What a handle past the table of watchers reads as: a watcher that does not exist, so it is
inactive and has read nothing. -/
instance : Inhabited WatcherCell :=
  ⟨{ scope := none, expression := "", getter := default, callback := none, deep := false,
     user := false, lazy := false, sync := false, before := none, render := false,
     active := false, dirty := false }⟩

/-- A scope: a named node of a tree with props, data, computed values, watchers, a render
watcher and lifecycle hooks. -/
structure ScopeCell where
  name : String
  parent : Option ScopeId
  children : List ScopeId := []
  props : ObjRef
  updating : Bool := false
  data : ObjRef
  computed : List (String × WatcherId) := []
  watchers : List WatcherId := []
  render : Option WatcherId := none
  mounted : Bool := false
  beingDestroyed : Bool := false
  destroyed : Bool := false
  beforeUpdate : List Closure := []
  updated : List Closure := []
  errorCaptured : List Closure := []
  dropped : Bool := false
deriving Inhabited

/-- The contents of a tracked cell. -/
inductive CellValue where
  | num (x : Float)
  | str (s : String)
  | val (v : Value)
deriving Inhabited

/-- A tracked cell: a value, its dependency set, and the borrows of the value held while
closures read it. -/
structure Cell where
  value : CellValue
  dep : DepId
  borrows : Nat := 0
deriving Inhabited

/-- The flush queue: the watchers queued, which of them are still waiting, their runs in the
flush under way, those dropped as runaway, and where the flush stands. -/
structure FlushQueue where
  queue : Array WatcherId := #[]
  has : List WatcherId := []
  runs : List (WatcherId × Nat) := []
  dropped : List WatcherId := []
  waiting : Bool := false
  flushing : Bool := false
  index : Nat := 0
deriving Inhabited

/-- A job of the tick batch. -/
inductive TickJob where
  /-- flush the queue -/
  | flush
  /-- host code; a fault is reported for the scope if it is still alive -/
  | call (c : Closure) (scope : Option ScopeId)
  /-- mark a settled signal -/
  | signal (s : Nat)

/-- Who will run the pending tick batch. -/
inductive Armed where
  | idle
  | host
  /-- a task of the asynchronous runtime, by generation -/
  | task (generation : Nat)
deriving DecidableEq

/-- The tick batch. -/
structure TickBatch where
  jobs : Array TickJob := #[]
  armed : Armed := .idle
  generation : Nat := 0

/-- An asynchronous runtime driving a block of work on this thread. -/
structure Runtime where
  /-- runs on this thread only; only such a runtime runs tick tasks -/
  currentThread : Bool
  /-- spawned tick tasks not yet run, by generation, oldest first -/
  tasks : List Nat := []

/-- Something that keeps a watcher or a scope alive. -/
inductive Anchor where
  | watcher (w : WatcherId)
  | scope (s : ScopeId)
deriving DecidableEq

/-- The state of the engine and of its host. -/
structure Machine (η : Type) where
  objects : Array ObjectCell := #[]
  lists : Array ListCell := #[]
  props : Array Property := #[]
  deps : Array DepCell := #[]
  watchers : Array WatcherCell := #[]
  scopes : Array ScopeCell := #[]
  cells : Array Cell := #[]
  /-- new containers are observed when reached -/
  observing : Bool := true
  /-- the tracking context, innermost first; `none` masks tracking -/
  context : List (Option WatcherId) := []
  queue : FlushQueue := {}
  ticks : TickBatch := {}
  runtime : Option Runtime := none
  /-- settled signals and whether each has fired -/
  signals : Array Bool := #[]
  config : Config := {}
  /-- the host's handler of unhandled faults is installed -/
  handler : Bool := true
  /-- what was reported, in order -/
  log : Array Json := #[]
  /-- what the host holds -/
  anchors : List Anchor := []
  /-- what operations under way hold -/
  pins : List Anchor := []
  /-- something may have lost its last holder -/
  unheld : Bool := false
  host : η

/-- A computation of the engine. -/
abbrev Eff (η : Type) := ExceptT Fault (StateT (Machine η) (Except Halt))

/-- How the engine runs host code: `invoke` runs a closure with arguments, and `fuel` bounds
the engine's own loops and nested evaluations within one call. -/
structure Runner (η : Type) where
  invoke : Closure → Args → Eff η Value
  fuel : Nat

namespace Eff

variable {η : Type}

/-- Stops the whole run. -/
def halt (h : Halt) : Eff η α := throwThe Halt h

/-- Raises a fault. -/
def fault (e : Fault) : Eff η α := throwThe Fault e

/-- Runs `x` and returns its fault as a value instead of raising it. -/
def attempt (x : Eff η α) : Eff η (Except Fault α) := ExceptT.lift x.run

/-- Appends an entry to the log. -/
def report (entry : Json) : Eff η Unit :=
  modify fun m => { m with log := m.log.push entry }

/-- Reports a warning unless warnings are silenced. -/
def warn (text : String) : Eff η Unit := do
  if !(← get).config.silent then report (.arr [.str "warn", .str text])

end Eff

namespace Machine

variable {η : Type}

/-- The object behind a handle. -/
def object (m : Machine η) (o : ObjRef) : ObjectCell := m.objects[o.idx]?.getD default

/-- The list behind a handle. -/
def listCell (m : Machine η) (l : ListRef) : ListCell := m.lists[l.idx]?.getD default

/-- The property behind a handle. -/
def prop (m : Machine η) (p : PropId) : Property := m.props[p.idx]?.getD default

/-- The dependency set behind a handle. -/
def dep (m : Machine η) (d : DepId) : DepCell := m.deps[d.idx]?.getD default

/-- The watcher behind a handle. -/
def watcher (m : Machine η) (w : WatcherId) : WatcherCell := m.watchers[w.idx]?.getD default

/-- The scope behind a handle. -/
def scope (m : Machine η) (s : ScopeId) : ScopeCell := m.scopes[s.idx]?.getD default

/-- The cell behind a handle. -/
def cell (m : Machine η) (c : CellId) : Cell := m.cells[c.idx]?.getD default

/-- The innermost watcher collecting dependencies, if tracking is not masked. -/
def target (m : Machine η) : Option WatcherId :=
  match m.context with
  | some w :: _ => some w
  | _ => none

/-- A scope that has not been dropped. -/
def alive (m : Machine η) (s : ScopeId) : Option ScopeId :=
  if (m.scope s).dropped then none else some s

/-- The scope of a watcher, if it is still alive. -/
def scopeOf (m : Machine η) (w : WatcherId) : Option ScopeId :=
  (m.watcher w).scope.bind m.alive

/-- The parent of a scope, if it is still alive. -/
def parentOf (m : Machine η) (s : ScopeId) : Option ScopeId :=
  (m.scope s).parent.bind m.alive

end Machine

namespace Eff

variable {η : Type}

/-- Changes an object. -/
def modifyObject (o : ObjRef) (f : ObjectCell → ObjectCell) : Eff η Unit :=
  modify fun m => { m with objects := m.objects.modify o.idx f }

/-- Changes a list. -/
def modifyList (l : ListRef) (f : ListCell → ListCell) : Eff η Unit :=
  modify fun m => { m with lists := m.lists.modify l.idx f }

/-- Changes a property. -/
def modifyProp (p : PropId) (f : Property → Property) : Eff η Unit :=
  modify fun m => { m with props := m.props.modify p.idx f }

/-- Changes a dependency set. -/
def modifyDep (d : DepId) (f : DepCell → DepCell) : Eff η Unit :=
  modify fun m => { m with deps := m.deps.modify d.idx f }

/-- Changes a watcher. -/
def modifyWatcher (w : WatcherId) (f : WatcherCell → WatcherCell) : Eff η Unit :=
  modify fun m => { m with watchers := m.watchers.modify w.idx f }

/-- Changes a scope. -/
def modifyScope (s : ScopeId) (f : ScopeCell → ScopeCell) : Eff η Unit :=
  modify fun m => { m with scopes := m.scopes.modify s.idx f }

/-- Changes a cell. -/
def modifyCell (c : CellId) (f : Cell → Cell) : Eff η Unit :=
  modify fun m => { m with cells := m.cells.modify c.idx f }

/-- A new empty dependency set. -/
def newDep : Eff η DepId := do
  let m ← get
  set { m with deps := m.deps.push {} }
  return ⟨m.deps.size⟩

/-- A new object with the given plain fields. -/
def newObject (fields : List (String × Value)) : Eff η ObjRef := do
  let m ← get
  set { m with objects := m.objects.push { slots := fields.map fun (k, v) => (k, .plain v) } }
  return ⟨m.objects.size⟩

/-- A new list with the given items. -/
def newList (items : List Value) : Eff η ListRef := do
  let m ← get
  set { m with lists := m.lists.push { items := items } }
  return ⟨m.lists.size⟩

/-- A new property. -/
def newProp (p : Property) : Eff η PropId := do
  let m ← get
  set { m with props := m.props.push p }
  return ⟨m.props.size⟩

/-- Holds `a` while an operation is under way. -/
def pin (a : Anchor) : Eff η Unit :=
  modify fun m => { m with pins := a :: m.pins }

/-- Marks that something may have lost its last holder. -/
def release : Eff η Unit :=
  modify fun m => { m with unheld := true }

end Eff

end Reactivity

import Reactivity.Collect

/-!
# What a script holds by name

A script names its variables, scopes, watchers, watch handles, computed values, cells and
settled signals, and keeps the expressions of the closures it gave the engine. A name bound
again drops what it named before. The scopes and watchers a script names are the host's
holders in the machine (`Registry.anchors`); every change of them is followed by a
collection, so that what lost its last holder is dropped at once, or as soon as the
operations under way end.

While a closure runs, its arguments are on a stack of frames, innermost first.
-/

namespace Reactivity

/-- A table from names to handles; a name is bound at most once. -/
abbrev Names (α : Type) := List (String × α)

/-- Binds `name`, in place of an earlier binding. -/
def Names.bind {α : Type} (t : Names α) (name : String) (a : α) : Names α :=
  (name, a) :: t.filter (·.1 ≠ name)

/-- Removes the binding of `name`. -/
def Names.unbind {α : Type} (t : Names α) (name : String) : Names α :=
  t.filter (·.1 ≠ name)

/-- What a script holds. -/
structure Registry where
  vars : Names Value := []
  scopes : Names ScopeId := []
  watchers : Names WatcherId := []
  watches : Names WatcherId := []
  computeds : Names WatcherId := []
  cells : Names CellId := []
  signals : Names Nat := []
  /-- the expressions of closures, by handle -/
  closures : Array Json := #[]
  /-- the arguments of the closures running, innermost first -/
  frames : List Args := []

/-- The scopes and watchers a script holds. -/
def Registry.anchors (g : Registry) : List Anchor :=
  g.scopes.map (fun e => .scope e.2) ++ (g.watchers ++ g.watches ++ g.computeds).map
    (fun e => .watcher e.2)

/-- The machine a script drives. -/
abbrev Script := Eff Registry

namespace Script

/-- Fails with a fault of the script itself. -/
def refuse (text : String) : Script α := Eff.fault (.custom ("driver: " ++ text))

/-- The registry. -/
def registry : Script Registry := return (← get).host

/-- Changes the registry, keeping what it holds in the machine's holders. -/
def change (f : Registry → Registry) : Script Unit := do
  modify fun m => let g := f m.host; { m with host := g, anchors := g.anchors }
  Eff.released

/-- Looks `name` up in a table of the registry, refusing an unknown name. -/
def find {α : Type} (what : String) (t : Names α) (name : String) : Script α :=
  match t.lookup name with
  | some a => pure a
  | none => refuse ("unknown " ++ what ++ " " ++ Text.showQuoted name)

/-- Stores the expression of a closure. -/
def closure (e : Json) : Script Closure := do
  let m ← get
  set { m with host := { m.host with closures := m.host.closures.push e } }
  return m.host.closures.size

/-- The argument `name` of the innermost running closure, undefined when it has none. -/
def argument (name : String) : Script Value := do
  match (← registry).frames with
  | .change new old :: _ =>
    if name = "new" then return new else if name = "old" then return old else return .undefined
  | .fault message kind info :: _ =>
    if name = "err" then return .str message
    else if name = "kind" then return .str kind
    else if name = "info" then return .str info
    else return .undefined
  | _ => return .undefined

/-- Opens a frame of closure arguments. -/
def pushFrame (a : Args) : Script Unit :=
  modify fun m => { m with host := { m.host with frames := a :: m.host.frames } }

/-- Closes the innermost frame of closure arguments. -/
def popFrame : Script Unit :=
  modify fun m => { m with host := { m.host with frames := m.host.frames.drop 1 } }

end Script

end Reactivity

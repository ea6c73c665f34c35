import Reactivity.Script.Decode

/-!
# Operations on scopes

The operations of a script that make scopes and their watches, computed values and hooks,
mount, update and destroy them, and report faults and warnings. A scope is named by the name
it is made with; a watch is named both as a watcher and as a watch handle.
-/

namespace Reactivity

namespace Script

open Interp

/-- The state of a scope as a plain object. -/
def scopeInfo (s : ScopeId) : Script Value := do
  let m ← get
  let c := m.scope s
  let parent := match m.parentOf s with
    | some p => Value.str (m.scope p).name
    | none => .null
  let children ← list (c.children.map fun k => .str (m.scope k).name)
  object [("name", .str c.name), ("parent", parent), ("children", children),
    ("mounted", .bool c.mounted), ("being_destroyed", .bool c.beingDestroyed),
    ("destroyed", .bool c.destroyed), ("watcher_count", count c.watchers.length),
    ("has_render", .bool c.render.isSome)]

/-- Appends a hook to one of a scope's hook lists. -/
def addHook (s : ScopeId) (hook : Closure)
    (f : ScopeCell → List Closure → ScopeCell) : Script Value := do
  Eff.modifyScope s fun c => f c [hook]
  return .undefined

/-- Forgets a name of the kind given; the result is whether it was bound, and a name of an
unknown kind never is. -/
def forget (kind name : String) : Script Bool := do
  let g ← registry
  match kind with
  | "scope" =>
    change fun g => { g with scopes := g.scopes.unbind name }
    return (g.scopes.lookup name).isSome
  | "watcher" =>
    change fun g => { g with watchers := g.watchers.unbind name, watches := g.watches.unbind name }
    return (g.watchers.lookup name).isSome
  | "computed" =>
    change fun g => { g with computeds := g.computeds.unbind name }
    return (g.computeds.lookup name).isSome
  | "var" =>
    modify fun m => { m with host := { m.host with vars := m.host.vars.unbind name } }
    return (g.vars.lookup name).isSome
  | _ => return false

/-- The scope operations; none for any other name. -/
def scopes (I : Interp) (op : String) (raw : Json) : Option (Script Value) :=
  let p := raw.arguments
  let r := I.runner
  match op with
  | "scope" => some do
    let name ← textAt p 0
    let data ← I.valueAt? p 1
    let s ← Eff.newScope name none [] data
    change fun g => { g with scopes := g.scopes.bind name s }
    return .obj ((← get).scope s).data
  | "child" => some do
    let parent ← scopeAt p 0
    let name ← textAt p 1
    let props ← I.pairValues (← pairsAt p 2)
    let data ← I.valueAt? p 3
    let s ← Eff.newScope name (some parent) props data
    change fun g => { g with scopes := g.scopes.bind name s }
    return .obj ((← get).scope s).data
  | "data" => some do return .obj ((← get).scope (← scopeAt p 0)).data
  | "props" => some do return .obj ((← get).scope (← scopeAt p 0)).props
  | "lookup" => some do
    let s ← scopeAt p 0
    Eff.lookup r s (← textAt p 1)
  | "update_props" => some do
    let s ← scopeAt p 0
    let props ← I.pairValues (← pairsAt p 1)
    Eff.updateProps r s props
    return .undefined
  | "scope_set" => some do
    let s ← scopeAt p 0
    let key ← keyAt p 1
    let v ← I.valueAt p 2
    Eff.set r (.obj ((← get).scope s).data) key v
  | "scope_delete" => some do
    let s ← scopeAt p 0
    let key ← keyAt p 1
    Eff.remove r (.obj ((← get).scope s).data) key
    return .undefined
  | "scope_info" => some do scopeInfo (← scopeAt p 0)
  | "scope_debug" => some do return diagnostic ((← get).scopeText (← scopeAt p 0))
  | "computed" => some do
    let scope ← scopeAt? p 0
    let name ← textAt p 1
    let c ← closureAt p 2
    let w ← Eff.newComputed scope name c
    change fun g => { g with computeds := g.computeds.bind name w }
    return .undefined
  | "watch" => some do
    let s ← scopeAt p 0
    let name ← textAt p 1
    let getter ← getterOf (← argAt p 2)
    let callback ← closureAt? p 3
    let o ← watchOptionsOf (p[4]?.getD .null)
    let w ← Eff.watch r s getter callback o
    change fun g => { g with watchers := g.watchers.bind name w, watches := g.watches.bind name w }
    Eff.unhold
    return .undefined
  | "unwatch" => some do
    Eff.teardown (← watchAt p 0)
    return .undefined
  | "unwatch_debug" => some do
    let w ← watchAt p 0
    return diagnostic ("Unwatch \x7b watcher: " ++ (← get).watcherText w ++ " \x7d")
  | "mount" => some do
    let s ← scopeAt p 0
    Eff.mount r s (← closureAt p 1)
    return .undefined
  | "force_update" => some do
    Eff.forceUpdate r (← scopeAt p 0)
    return .undefined
  | "on_before_update" => some do
    let s ← scopeAt p 0
    addHook s (← closureAt p 1) fun c h => { c with beforeUpdate := c.beforeUpdate ++ h }
  | "on_updated" => some do
    let s ← scopeAt p 0
    addHook s (← closureAt p 1) fun c h => { c with updated := c.updated ++ h }
  | "on_error_captured" => some do
    let s ← scopeAt p 0
    addHook s (← closureAt p 1) fun c h => { c with errorCaptured := c.errorCaptured ++ h }
  | "destroy" => some do
    Eff.destroy (← scopeAt p 0)
    return .undefined
  | "report" => some do
    let s ← scopeAt? p 0
    let message ← I.valueAt p 1
    let info ← textAt p 2
    Eff.handleError r (.custom ((← get).display message)) s info
    return .undefined
  | "warn" => some do
    let v ← I.valueAt p 0
    Eff.warn ((← get).display v)
    return .undefined
  | "error_handler" => some do
    let on := flagAt p 0
    modify fun m => { m with handler := on }
    return .undefined
  | "forget" => some do
    let kind ← textAt p 0
    return .bool (← forget kind (← textAt p 1))
  | _ => none

end Script

end Reactivity

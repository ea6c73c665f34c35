import Reactivity.Machine

/-!
# Dropping what nothing holds

A scope is held by the host, by an operation under way, or by its parent's list of children
while the parent is held. A watcher is held by the host, by an operation under way, by the
tracking context, by the flush queue, or by a held scope (as one of its watchers, its render
watcher or a computed value). `Machine.collect` marks everything else dropped; a dropped
watcher is removed from every dependency set it was subscribed to, so it is never notified
again. Since a child scope is created after its parent, one pass in creation order decides
which scopes are held.
-/

namespace Reactivity

namespace Machine

variable {η : Type}

/-- Whether each scope is held, by position. -/
def heldScopes (m : Machine η) : Array Bool := Id.run do
  let mut held : Array Bool := m.scopes.map fun _ => false
  for a in m.anchors ++ m.pins do
    if let .scope s := a then held := held.setIfInBounds s.idx true
  for i in [0:m.scopes.size] do
    if held[i]?.getD false then
      for c in (m.scopes[i]?.getD default).children do
        held := held.setIfInBounds c.idx true
  return held

/-- Whether each watcher is held, by position. -/
def heldWatchers (m : Machine η) (scopes : Array Bool) : Array Bool := Id.run do
  let mut held : Array Bool := m.watchers.map fun _ => false
  for a in m.anchors ++ m.pins do
    if let .watcher w := a then held := held.setIfInBounds w.idx true
  for e in m.context do
    if let some w := e then held := held.setIfInBounds w.idx true
  for w in m.queue.queue do
    held := held.setIfInBounds w.idx true
  for i in [0:m.scopes.size] do
    if scopes[i]?.getD false then
      let s := m.scopes[i]?.getD default
      for w in s.watchers ++ s.render.toList ++ s.computed.map (·.2) do
        held := held.setIfInBounds w.idx true
  return held

/-- Removes a watcher from the subscribers of a dependency set. -/
def unsubscribe (m : Machine η) (d : DepId) (w : WatcherId) : Machine η :=
  { m with deps := m.deps.modify d.idx fun c => { c with subs := c.subs.erase w } }

/-- Drops a watcher: it leaves every dependency set it read. -/
def dropWatcher (m : Machine η) (w : WatcherId) : Machine η :=
  let cell := m.watcher w
  let m := (cell.deps ++ cell.newDeps).foldl (fun m d => m.unsubscribe d w) m
  { m with watchers := m.watchers.modify w.idx fun c => { c with dropped := true } }

/-- Marks dropped every scope and watcher that nothing holds. -/
def collect (m : Machine η) : Machine η := Id.run do
  let scopes := m.heldScopes
  let watchers := m.heldWatchers scopes
  let mut m := m
  for i in [0:m.scopes.size] do
    if !(scopes[i]?.getD false) && !(m.scopes[i]?.getD default).dropped then
      m := { m with scopes := m.scopes.modify i fun c => { c with dropped := true } }
  for i in [0:m.watchers.size] do
    if !(watchers[i]?.getD false) && !(m.watchers[i]?.getD default).dropped then
      m := m.dropWatcher ⟨i⟩
  return m

end Machine

namespace Eff

variable {η : Type}

/-- Drops what nothing holds, if something lost a holder; while operations are under way the
check stays due, since they may hold the last reference. -/
def settle : Eff η Unit :=
  modify fun m =>
    if m.unheld then
      let m := m.collect
      { m with unheld := !(m.context.isEmpty && m.pins.isEmpty) }
    else m

/-- Releases the innermost hold of an operation and drops what that left unheld. -/
def unhold : Eff η Unit := do
  modify fun m => { m with pins := m.pins.drop 1 }
  settle

/-- Notes that a holder was removed and drops what that left unheld. -/
def released : Eff η Unit := do
  release
  settle

end Eff

end Reactivity

import Reactivity.Collect

/-!
# Tracking reads

The tracking context is a stack; its innermost entry is the watcher whose evaluation is
under way, or nothing when tracking is masked. `Eff.depend d` records that this watcher read
the dependency set `d`: the set is added to the watcher's reads of this evaluation once, and
the watcher is subscribed to it unless it already was after its last evaluation.
-/

namespace Reactivity

namespace Eff

variable {η : Type}

/-- The innermost watcher collecting reads, if any. -/
def target : Eff η (Option WatcherId) := return (← get).target

/-- Subscribes `w` to `d`; a watcher already subscribed keeps its place. -/
def addSub (d : DepId) (w : WatcherId) : Eff η Unit :=
  modifyDep d fun c => if c.subs.contains w then c else { c with subs := c.subs ++ [w] }

/-- Unsubscribes `w` from `d`. -/
def removeSub (d : DepId) (w : WatcherId) : Eff η Unit :=
  modifyDep d fun c => { c with subs := c.subs.erase w }

/-- Records a read of `d` by the watcher collecting reads. A handle past the table names no
set, and its read is not recorded. -/
def depend (d : DepId) : Eff η Unit := do
  let m ← get
  match m.target with
  | none => pure ()
  | some w =>
    let cell := m.watcher w
    if cell.active && !cell.newDeps.contains d && decide (d.idx < m.deps.size) then
      modifyWatcher w fun c => { c with newDeps := c.newDeps ++ [d] }
      if !cell.deps.contains d then addSub d w

/-- Opens a tracking frame for `t`. -/
def enter (t : Option WatcherId) : Eff η Unit :=
  modify fun m => { m with context := t :: m.context }

/-- Closes the innermost tracking frame. -/
def leave : Eff η Unit := do
  modify fun m => { m with context := m.context.drop 1 }
  settle

/-- Runs `x` with tracking masked. -/
def untracked (x : Eff η α) : Eff η α := do
  enter none
  let r ← attempt x
  leave
  match r with
  | .ok v => pure v
  | .error e => fault e

end Eff

end Reactivity

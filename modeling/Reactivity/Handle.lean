/-!
# Handles

The engine keeps its objects, lists, tracked properties, dependency sets, watchers, scopes and
cells in tables; a handle is a position in one of them. Handles of dependency sets and watchers
are shown counted from one, in creation order, so they also tell which was made first.
-/

namespace Reactivity

/-- A handle to an object (a map from keys to values, in insertion order). -/
structure ObjRef where
  idx : Nat
deriving DecidableEq, Repr, Inhabited

/-- A handle to a list. -/
structure ListRef where
  idx : Nat
deriving DecidableEq, Repr, Inhabited

/-- A handle to a tracked property. -/
structure PropId where
  idx : Nat
deriving DecidableEq, Repr, Inhabited

/-- A handle to a dependency set. -/
structure DepId where
  idx : Nat
deriving DecidableEq, Repr, Inhabited

/-- A handle to a watcher; handles grow with creation order. -/
structure WatcherId where
  idx : Nat
deriving DecidableEq, Repr, Inhabited

/-- A handle to a scope; a parent is always created before its children. -/
structure ScopeId where
  idx : Nat
deriving DecidableEq, Repr, Inhabited

/-- A handle to a tracked cell. -/
structure CellId where
  idx : Nat
deriving DecidableEq, Repr, Inhabited

/-- The number a dependency set is shown with. -/
def DepId.shown (d : DepId) : Nat := d.idx + 1

/-- The number a watcher is shown with. -/
def WatcherId.shown (w : WatcherId) : Nat := w.idx + 1

instance : LT WatcherId := ⟨fun a b => a.idx < b.idx⟩

instance (a b : WatcherId) : Decidable (a < b) := inferInstanceAs (Decidable (a.idx < b.idx))

end Reactivity

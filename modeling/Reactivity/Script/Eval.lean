import Reactivity.Script.Control
import Reactivity.Script.Containers
import Reactivity.Script.Scopes
import Reactivity.Script.Watchers
import Reactivity.Script.Ticks

/-!
# Evaluating expressions

A JSON string, number, boolean or null is a literal. An object with one key is an operation,
looked up among the operation groups; anything else is refused. A closure runs its stored
expression with its arguments in a new innermost frame, which is closed again however the
run ends (`closureRunner`).

`Script.eval` takes fuel that bounds how deeply expressions and closure calls nest: each
argument and each closure call is evaluated with one unit less, and running out halts the
run. The engine's own loops take the separate budget `Script.engineFuel`.
-/

namespace Reactivity

namespace Script

/-- The budget of the engine's loops and nested evaluations. -/
def engineFuel : Nat := 1000000

/-- The host code of a script: a closure runs its stored expression, by `ev`, with its arguments
in a new innermost frame, which is closed again however the run ends. -/
def closureRunner (ev : Json → Script Value) : Runner Registry where
  invoke c args := do
    match (← registry).closures[c]? with
    | none => refuse "unknown closure"
    | some body =>
      pushFrame args
      let r ← Eff.attempt (ev body)
      popFrame
      match r with
      | .ok v => pure v
      | .error err => Eff.fault err
  fuel := engineFuel

/-- The operation `op` with argument value `raw`, looked up in every group. -/
def operation (I : Interp) (op : String) (raw : Json) : Script Value :=
  match control I op raw <|> containers I op raw <|> scopes I op raw <|>
      watchers I op raw <|> ticks I op raw with
  | some x => x
  | none => refuse ("unknown operation " ++ Text.showQuoted op)

/-- Evaluates an expression; see the module note on `fuel`. -/
def eval : Nat → Json → Script Value
  | 0, _ => Eff.halt .exhausted
  | fuel + 1, e =>
    match e with
    | .null => pure .null
    | .bool b => pure (.bool b)
    | .num n => pure (.num n.toFloat)
    | .str s => pure (.str s)
    | .arr _ => refuse "a bare array is not an expression"
    | .obj [(op, raw)] =>
      operation { eval := eval fuel, runner := closureRunner (eval fuel) } op raw
    | .obj _ => refuse "an operation is an object with one key"

end Script

end Reactivity

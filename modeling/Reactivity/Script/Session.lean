import Reactivity.Script.Eval

/-!
# Running a script

A script is one line of JSON text, an object whose `ops` is an array of expressions. Each
script runs on a fresh machine: default settings, ticks driven by the host, observation on,
the host's fault handler installed, and nothing named. Each expression is one step, and a
step's answer is its value or its fault, with the log entries made while it ran. A halt ends
the script: the steps done so far are kept and a last step gives the reason.

A line that is not JSON, or has no `ops` array, is answered with the reason alone.
-/

namespace Reactivity

namespace Script

/-- The nesting budget of one expression. -/
def expressionFuel : Nat := 100000

/-- A log entry with the identifier labels of its texts in plain decimal; the value that a
script logs is kept as it is. -/
def relabelEntry : Json → Json
  | .arr (.str "log" :: rest) => .arr (.str "log" :: rest)
  | .arr items => .arr (items.map fun
    | .str s => .str (Text.relabel s)
    | j => j)
  | j => j

/-- The answer to a step that ended with a value or a fault. -/
def stepAnswer (m : Machine Registry) : Except Fault Value → Json
  | .ok v => .obj [("ok", m.encode v), ("log", .arr (m.log.toList.map relabelEntry))]
  | .error e =>
    .obj [("error", .str e.kindName), ("message", .str (Text.relabel e.message)),
      ("log", .arr (m.log.toList.map relabelEntry))]

/-- Runs the steps in turn, collecting their answers; a halt adds its reason and ends. -/
def runSteps : List Json → Machine Registry → List Json → List Json
  | [], _, done => done.reverse
  | e :: rest, m, done =>
    let m := { m with log := #[] }
    match StateT.run (ExceptT.run (eval expressionFuel e)) m with
    | .error h => (.obj [("panic", .str h.message)] :: done).reverse
    | .ok (r, m) => runSteps rest m (stepAnswer m r :: done)

/-- The machine a script starts on. -/
def fresh : Machine Registry := { host := {} }

/-- The answer to a script given as JSON text. -/
def answer (line : String) : Json :=
  match Json.parse line with
  | .error e => .obj [("error", .str "BadInput"), ("message", .str e.message)]
  | .ok j =>
    match j.field? "ops" with
    | some (.arr ops) => .obj [("steps", .arr (runSteps ops fresh []))]
    | _ => .obj [("error", .str "BadInput"), ("message", .str "input must be an object with an \"ops\" array")]

/-- The answer to a script, as one line of JSON text. -/
def answerText (line : String) : String :=
  (answer line).write .result

end Script

end Reactivity

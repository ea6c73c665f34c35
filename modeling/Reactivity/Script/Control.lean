import Reactivity.Script.Decode

/-!
# Literals, variables and control

The operations of a script that build values, bind variables, branch and combine results.
They touch the engine only through what they evaluate, apart from `log`, `untracked`,
`paused` and the questions about the tracking context.
-/

namespace Reactivity

namespace Script

open Interp

/-- The number named by `NaN`, `Infinity`, `-Infinity` or `-0`. -/
def namedNumber : Json → Script Value
  | .str "NaN" => pure (.num (0.0 / 0.0))
  | .str "Infinity" => pure (.num (1.0 / 0.0))
  | .str "-Infinity" => pure (.num (-1.0 / 0.0))
  | .str "-0" => pure (.num (-0.0))
  | _ => refuse "unknown number name"

/-- The display text of a value in the machine as it is now. -/
def display (v : Value) : Script String := return (← get).display v

/-- Evaluates the expressions in turn; the result is the last value, or undefined. -/
def sequence (I : Interp) (es : List Json) : Script Value :=
  es.foldlM (fun _ e => I.eval e) .undefined

/-- Evaluates `e` with observation of new containers switched off, restoring the switch
afterwards. -/
def paused (I : Interp) (e : Json) : Script Value := do
  let before := (← get).observing
  modify fun m => { m with observing := false }
  let r ← Eff.attempt (I.eval e)
  modify fun m => { m with observing := before }
  match r with
  | .ok v => pure v
  | .error err => Eff.fault err

/-- The literal, variable and control operations; none for any other name. -/
def control (I : Interp) (op : String) (raw : Json) : Option (Script Value) :=
  let p := raw.arguments
  match op with
  | "lit" => some (ofJson raw)
  | "undefined" => some (pure .undefined)
  | "num" => some (namedNumber raw)
  | "obj" => some do
    let o ← Eff.newObject []
    for pair in p do
      match pair with
      | .arr [.str k, e] =>
        let v ← I.eval e
        Eff.install o k (.plain v)
      | _ => refuse "a pair should be [key, expression]"
    return .obj o
  | "arr" => some do list (← p.mapM I.eval)
  | "var" => some do find "variable" (← registry).vars (← textAt p 0)
  | "let" => some do
    let name ← textAt p 0
    let v ← I.valueAt p 1
    modify fun m => { m with host := { m.host with vars := m.host.vars.bind name v } }
    return v
  | "arg" => some do argument (← textAt p 0)
  | "seq" => some (sequence I p)
  | "if" => some do
    if (← I.valueAt p 0).truthy then I.valueAt p 1 else I.valueAt? p 2
  | "repeat" => some do
    let n ← natAt p 0
    let e ← argAt p 1
    (List.range n).foldlM (fun _ _ => I.eval e) .undefined
  | "eq" => some do
    let a ← I.valueAt p 0
    let b ← I.valueAt p 1
    return .bool (a.same b)
  | "not" => some do return .bool !(← I.valueAt p 0).truthy
  | "add" => some do
    let a ← I.valueAt p 0
    let b ← I.valueAt p 1
    return .num ((a.asNum?.getD 0) + (b.asNum?.getD 0))
  | "lt" => some do
    let a ← I.valueAt p 0
    let b ← I.valueAt p 1
    return .bool ((a.asNum?.getD 0) < (b.asNum?.getD 0))
  | "concat" => some do
    let parts ← p.mapM fun e => do display (← I.eval e)
    return .str (String.join parts)
  | "fail" => some do Eff.fault (.custom (← display (← I.valueAt p 0)))
  | "try" => some do
    match ← Eff.attempt (I.valueAt p 0) with
    | .ok v => pure v
    | .error err => object [("error", .str err.kindName), ("message", .str err.message)]
  | "log" => some do
    let v ← I.valueAt p 0
    Eff.report (.arr [.str "log", (← get).encode v])
    return v
  | "untracked" => some (Eff.untracked (I.valueAt p 0))
  | "paused" => some do paused I (← argAt p 0)
  | "kind" => some do return .str (← I.valueAt p 0).kind
  | "to_json" => some do
    let doc ← Eff.document (← I.valueAt p 0)
    return .str (doc.write .document)
  | "parse_path" => some do
    match parsePath (← textAt p 0) with
    | some keys => list (keys.map .str)
    | none => pure .null
  | "debug" => some do
    let v ← I.valueAt p 0
    match (← get).debugText v with
    | some text => pure (diagnostic text)
    | none => Eff.halt (.abort "a value that holds itself has no diagnostic text")
  | "depth" => some do return count (← get).context.length
  | "ctx" => some do
    let m ← get
    object [("depth", count m.context.length), ("active", .bool !m.context.isEmpty),
      ("has_target", .bool m.target.isSome)]
  | _ => none

end Script

end Reactivity

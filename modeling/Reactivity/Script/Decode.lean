import Reactivity.Script.Registry
import Reactivity.Render
import Reactivity.Path
import Reactivity.Scope
import Reactivity.Cell
import Reactivity.Text.Label

/-!
# Reading the arguments of an operation

An operation of a script is a JSON object with one key, the operation's name. Its value is
the argument list when it is an array, and otherwise the only argument. Some arguments are
expressions and are evaluated; names, keys, flags and counts are taken as written. A JSON
literal becomes a value with fresh containers (`Script.ofJson`).

`Interp` is what an operation needs from the interpreter: a way to evaluate an argument, and
the runner through which the engine calls the closures of the script.
-/

namespace Reactivity

/-- A JSON number as a double. -/
def JsonNumber.toFloat : JsonNumber → Float
  | .nat n => Float.ofNat n
  | .neg n => Float.ofInt n
  | .float x => x

/-- Whether a value counts as true: all but undefined, null, `false`, zero, NaN and the empty
string. -/
def Value.truthy : Value → Bool
  | .undefined | .null => false
  | .bool b => b
  | .num x => !(x == 0 || x.isNaN)
  | .str s => !s.isEmpty
  | .obj _ | .list _ => true

/-- The argument list of an operation: the items of an array, or the value alone. -/
def Json.arguments : Json → List Json
  | .arr items => items
  | j => [j]

/-- What an operation needs from the interpreter. -/
structure Interp where
  /-- evaluates an argument expression -/
  eval : Json → Script Value
  /-- runs the closures of the script for the engine -/
  runner : Runner Registry

namespace Script

mutual

/-- A JSON literal as a value; arrays and objects become new plain containers. -/
def ofJson : Json → Script Value
  | .null => pure .null
  | .bool b => pure (.bool b)
  | .num n => pure (.num n.toFloat)
  | .str s => pure (.str s)
  | .arr items => do return .list (← Eff.newList (← ofJsonItems items))
  | .obj fields => do return .obj (← Eff.newObject (← ofJsonFields fields))

/-- The items of a JSON array as values. -/
def ofJsonItems : List Json → Script (List Value)
  | [] => pure []
  | j :: rest => do
    let v ← ofJson j
    return v :: (← ofJsonItems rest)

/-- The fields of a JSON object as values. -/
def ofJsonFields : List (String × Json) → Script (List (String × Value))
  | [] => pure []
  | (k, j) :: rest => do
    let v ← ofJson j
    return (k, v) :: (← ofJsonFields rest)

end

/-- A new plain object. -/
def object (fields : List (String × Value)) : Script Value := do
  return .obj (← Eff.newObject fields)

/-- A new plain list. -/
def list (items : List Value) : Script Value := do
  return .list (← Eff.newList items)

/-- A count as a value. -/
def count (n : Nat) : Value := .num (Float.ofNat n)

/-- Argument `i`, which must be present. -/
def argAt (p : List Json) (i : Nat) : Script Json :=
  match p[i]? with
  | some j => pure j
  | none => refuse ("missing argument " ++ toString i)

/-- A diagnostic text as a result: its identifier labels in plain decimal. -/
def diagnostic (s : String) : Value := .str (Text.relabel s)

/-- Argument `i` as a text. -/
def textAt (p : List Json) (i : Nat) : Script String := do
  match ← argAt p i with
  | .str s => pure s
  | _ => refuse ("argument " ++ toString i ++ " should be a string")

/-- Whether a JSON value is `true`; a flag given as anything else is off. -/
def Json.isTrue : Json → Bool
  | .bool true => true
  | _ => false

/-- Argument `i` as a flag: on only when it is `true`. -/
def flagAt (p : List Json) (i : Nat) : Bool :=
  (p[i]?.map Json.isTrue).getD false

/-- A JSON number as a count. -/
def natOf (j : Json) : Script Nat :=
  match j with
  | .num (.nat n) => pure n
  | _ => refuse "a count should be a non-negative integer"

/-- Argument `i` as a count. -/
def natAt (p : List Json) (i : Nat) : Script Nat := do
  natOf (← argAt p i)

/-- Argument `i` as a key: a text names a key, a count is an index. -/
def keyAt (p : List Json) (i : Nat) : Script Key := do
  match ← argAt p i with
  | .str s => pure (.name s)
  | .num (.nat n) => pure (.index n)
  | _ => refuse ("argument " ++ toString i ++ " should be a key")

/-- Argument `i` as a list of `[key, expression]` pairs. -/
def pairsAt (p : List Json) (i : Nat) : Script (List (String × Json)) := do
  match p[i]? with
  | none | some .null => pure []
  | some (.arr items) => items.mapM fun
    | .arr [.str k, e] => pure (k, e)
    | _ => refuse "a pair should be [key, expression]"
  | some _ => refuse ("argument " ++ toString i ++ " should be a list of pairs")

/-- Argument `i` as a closure, or none when it is null or absent. -/
def closureAt? (p : List Json) (i : Nat) : Script (Option Closure) :=
  match p[i]? with
  | none | some .null => pure none
  | some e => some <$> closure e

/-- Argument `i` as a closure. -/
def closureAt (p : List Json) (i : Nat) : Script Closure := do
  closure (← argAt p i)

/-- The scope named by argument `i`. -/
def scopeAt (p : List Json) (i : Nat) : Script ScopeId := do
  find "scope" (← registry).scopes (← textAt p i)

/-- The scope named by argument `i`, or none when it is null. -/
def scopeAt? (p : List Json) (i : Nat) : Script (Option ScopeId) :=
  match p[i]? with
  | none | some .null => pure none
  | some _ => some <$> scopeAt p i

/-- The watcher named by argument `i`. -/
def watcherAt (p : List Json) (i : Nat) : Script WatcherId := do
  find "watcher" (← registry).watchers (← textAt p i)

/-- The watch handle named by argument `i`. -/
def watchAt (p : List Json) (i : Nat) : Script WatcherId := do
  find "watch" (← registry).watches (← textAt p i)

/-- The computed value named by argument `i`. -/
def computedAt (p : List Json) (i : Nat) : Script WatcherId := do
  find "computed value" (← registry).computeds (← textAt p i)

/-- The cell named by argument `i`. -/
def cellAt (p : List Json) (i : Nat) : Script CellId := do
  find "cell" (← registry).cells (← textAt p i)

/-- The settled signal named by argument `i`. -/
def signalAt (p : List Json) (i : Nat) : Script Nat := do
  find "settled signal" (← registry).signals (← textAt p i)

/-- A getter specification: a path as text, `{"fn": expression}`, or `{"segments": keys}`. -/
def getterOf (j : Json) : Script Getter :=
  match j with
  | .str s => Eff.pathGetter s
  | .obj [("fn", e)] => do return .function (← closure e)
  | .obj [("segments", keys)] => do
    let keys ← keys.arguments.mapM fun
      | .str k => pure k
      | _ => refuse "a segment should be a string"
    return .path keys
  | _ => refuse "unknown getter specification"

/-- The flag `key` of an options object, false when absent. -/
def option (j : Json) (key : String) : Bool :=
  ((j.field? key).map Json.isTrue).getD false

/-- Watcher options: `deep`, `user`, `lazy`, `sync` and a `before` action. -/
def watcherOptionsOf (j : Json) : Script Eff.WatcherOptions := do
  let before ← match j.field? "before" with
    | none | some .null => pure none
    | some e => pure (some (BeforeHook.action (← closure e)))
  return { deep := option j "deep", user := option j "user", lazy := option j "lazy",
           sync := option j "sync", before := before }

/-- Watch options: `deep`, `immediate` and `sync`. -/
def watchOptionsOf (j : Json) : Script Eff.WatchOptions := do
  return { deep := option j "deep", immediate := option j "immediate",
           sync := option j "sync" }

end Script

namespace Interp

open Script

/-- Evaluates argument `i`. -/
def valueAt (I : Interp) (p : List Json) (i : Nat) : Script Value := do
  I.eval (← argAt p i)

/-- Evaluates argument `i`, undefined when absent. -/
def valueAt? (I : Interp) (p : List Json) (i : Nat) : Script Value :=
  match p[i]? with
  | some e => I.eval e
  | none => pure .undefined

/-- Evaluates argument `i`, which must be an object. -/
def objectAt (I : Interp) (p : List Json) (i : Nat) : Script ObjRef := do
  match ← I.valueAt p i with
  | .obj o => pure o
  | v => refuse ("expected an object, got " ++ v.kind)

/-- Evaluates argument `i`, which must be a list. -/
def listAt (I : Interp) (p : List Json) (i : Nat) : Script ListRef := do
  match ← I.valueAt p i with
  | .list l => pure l
  | v => refuse ("expected a list, got " ++ v.kind)

/-- Evaluates the expressions of `[key, expression]` pairs in order. -/
def pairValues (I : Interp) (pairs : List (String × Json)) : Script (List (String × Value)) :=
  pairs.mapM fun (k, e) => do return (k, ← I.eval e)

end Interp

end Reactivity

import Reactivity.Handle
import Reactivity.Text.Quote

/-!
# Faults

`Fault` is an error of the engine: a failed getter or callback of a user watcher, a watcher
that kept re-running in one flush, a write to something that is not a container, a bad list
key, unreadable settings, or a fault raised by user code. `Fault.message` is its text and
`Fault.kindName` the name of its kind. `Halt` stops a whole run: evaluation ran out of budget,
or the run cannot go on.
-/

namespace Reactivity

/-- An error of the engine. -/
inductive Fault where
  /-- the getter of a user watcher failed -/
  | getter (expression message : String)
  /-- the callback of a user watcher failed -/
  | callback (expression message : String)
  /-- a watcher ran more than `limit` times in one flush -/
  | runaway (id : WatcherId) (expression : String) (limit : Nat)
  /-- `op` ("set" or "delete") was applied to a value of kind `kind` -/
  | notContainer (op kind : String)
  /-- a key that is no index was used on a container of kind `kind` -/
  | invalidKey (key kind : String)
  /-- settings could not be read -/
  | config (text : String)
  /-- a fault raised by user code -/
  | custom (text : String)

namespace Fault

/-- The text of a fault. -/
def message : Fault → String
  | .getter e m => "error in getter for watcher \"" ++ e ++ "\": " ++ m
  | .callback e m => "error in callback for watcher \"" ++ e ++ "\": " ++ m
  | .runaway id e limit =>
    "you may have an infinite update loop in watcher SubscriberId(" ++ toString id.shown ++
      ") (\"" ++ e ++ "\"): ran more than " ++ toString limit ++ " times in one flush"
  | .notContainer op kind => "cannot " ++ op ++ " reactive property on a " ++ kind ++ " value"
  | .invalidKey key kind => "invalid key " ++ Text.showQuoted key ++ " for " ++ kind
  | .config text => "invalid configuration: " ++ text
  | .custom text => text

/-- The name of the kind of a fault. -/
def kindName : Fault → String
  | .getter .. => "Evaluator"
  | .callback .. => "Callback"
  | .runaway .. => "RunawayUpdate"
  | .notContainer .. => "NotAContainer"
  | .invalidKey .. => "InvalidKey"
  | .config _ => "Config"
  | .custom _ => "Custom"

end Fault

/-- Why a whole run stopped. -/
inductive Halt where
  /-- the evaluation budget ran out -/
  | exhausted
  /-- the run cannot go on -/
  | abort (text : String)

/-- The text of a halt. -/
def Halt.message : Halt → String
  | .exhausted => "evaluation budget exhausted"
  | .abort text => text

end Reactivity

import Reactivity.Observe

/-!
# Writing values

A value is written in four ways, each reading the containers of a machine.

* `Machine.encode` is the result document of a value. Undefined and the numbers that JSON
  cannot hold are written as marked objects, and a container met again inside itself is
  written as a cycle mark; a container shared by two separate places is written at both.
  Nothing is recorded.
* `Machine.display` is a string as itself and anything else as its result document.
* `Machine.debugText` is the diagnostic text: strings quoted and escaped, numbers with all
  their digits, objects as `{"k": v}` and lists as `[a, b]`, in stored order. A value that
  holds itself has none.
* `Eff.document` reads a value as an evaluation would, recording every read, and gives the
  plain JSON document of it: undefined and the non-finite numbers become null, and object
  keys are sorted.

The diagnostic texts of watchers, computed values, scopes, cells and observers are here too.
-/

namespace Reactivity

/-- The plain text of a number: every digit without an exponent, and `NaN`, `inf`, `-inf`. -/
def plainNumber (x : Float) : String :=
  if x.isNaN then "NaN"
  else if x.isInf then (if x > 0 then "inf" else "-inf")
  else NumberLayout.plain.spell x

/-- The diagnostic text of a number: positional from `10^-4` to below `10^16` with a point,
otherwise with an exponent, and `NaN`, `inf`, `-inf`. -/
def diagnosticNumber (x : Float) : String :=
  if x.isNaN then "NaN"
  else if x.isInf then (if x > 0 then "inf" else "-inf")
  else NumberLayout.diagnostic.spell x

/-- A marked object `{"$num": text}` for a number that JSON cannot hold. -/
def markedNumber (text : String) : Json := .obj [("$num", .str text)]

/-- A number of a result document: NaN, the infinities and negative zero are marked. -/
def encodeNumber (x : Float) : Json :=
  if x.isNaN then markedNumber "NaN"
  else if x.isInf then markedNumber (if x > 0 then "Infinity" else "-Infinity")
  else if x == 0 && x.toBits >>> 63 = 1 then markedNumber "-0"
  else .ofFloat x

/-- Fields sorted by key, in the order of their UTF-8 bytes (which is the order of code
points). -/
def sortFields (fields : List (String × Json)) : List (String × Json) :=
  fields.mergeSort fun a b => !decide (b.1 < a.1)

namespace Machine

variable {η : Type}

/-- The value stored in a slot, without recording the read. -/
def slotValue (m : Machine η) : Slot → Value
  | .plain v => v
  | .tracked p => (m.prop p).value

/-- The result document of a value below the containers in `path`; `fuel` bounds the
nesting, and a path never repeats a container, so the number of containers is enough. -/
def encodeWith (m : Machine η) (fuel : Nat) (path : List Value) (v : Value) : Json :=
  match fuel with
  | 0 => .null
  | fuel + 1 =>
    match v with
    | .undefined => .obj [("$undefined", .bool true)]
    | .null => .null
    | .bool b => .bool b
    | .num x => encodeNumber x
    | .str s => .str s
    | .obj o =>
      if path.any (·.same v) then .obj [("$cycle", .bool true)]
      else .obj ((m.object o).slots.map fun (k, s) => (k, m.encodeWith fuel (v :: path) (m.slotValue s)))
    | .list l =>
      if path.any (·.same v) then .obj [("$cycle", .bool true)]
      else .arr ((m.listCell l).items.map fun x => m.encodeWith fuel (v :: path) x)

/-- The result document of a value. -/
def encode (m : Machine η) (v : Value) : Json :=
  m.encodeWith (m.objects.size + m.lists.size + 1) [] v

/-- The display text of a value: a string as itself, anything else as its result document. -/
def display (m : Machine η) : Value → String
  | .str s => s
  | v => (m.encode v).write .result

/-- The diagnostic text of a value, with `fuel` bounding the nesting; none when it runs out. -/
def debugWith (m : Machine η) (fuel : Nat) (v : Value) : Option String :=
  match fuel with
  | 0 => none
  | fuel + 1 =>
    match v with
    | .undefined => some "undefined"
    | .null => some "null"
    | .bool b => some (toString b)
    | .num x => some (plainNumber x)
    | .str s => some (Text.showQuoted s)
    | .obj o => do
      let parts ← (m.object o).slots.mapM fun (k, s) => do
        pure (Text.showQuoted k ++ ": " ++ (← m.debugWith fuel (m.slotValue s)))
      pure ("\x7b" ++ ", ".intercalate parts ++ "\x7d")
    | .list l => do
      let parts ← (m.listCell l).items.mapM (m.debugWith fuel)
      pure ("[" ++ ", ".intercalate parts ++ "]")

/-- The diagnostic text of a value; none when the value holds itself. -/
def debugText (m : Machine η) (v : Value) : Option String :=
  m.debugWith (m.objects.size + m.lists.size + 1) v

/-- The diagnostic text of a dependency set. -/
def depText (m : Machine η) (d : DepId) : String :=
  "Dep \x7b id: DepId(" ++ toString d.shown ++ "), subscribers: " ++
    toString (m.dep d).subs.length ++ " \x7d"

/-- The diagnostic text of an observer followed by that of its set. -/
def observerText (m : Machine η) (ob : Observer) : String :=
  "Observer \x7b dep: " ++ m.depText ob.dep ++ ", root_count: Cell \x7b value: " ++
    toString ob.rootCount ++ " \x7d \x7d / " ++ m.depText ob.dep

/-- The observer of a container, if it has one. -/
def observerOf (m : Machine η) : Value → Option Observer
  | .obj o => (m.object o).observer
  | .list l => (m.listCell l).observer
  | _ => none

/-- The diagnostic text of a watcher. -/
def watcherText (m : Machine η) (w : WatcherId) : String :=
  let c := m.watcher w
  "Watcher \x7b id: SubscriberId(" ++ toString w.shown ++ "), expression: " ++
    Text.showQuoted c.expression ++ ", active: " ++ toString c.active ++ ", lazy: " ++
    toString c.lazy ++ ", dirty: " ++ toString c.dirty ++ ", deps: " ++
    toString c.deps.length ++ " \x7d"

/-- The diagnostic text of a computed value; none when its value holds itself. -/
def computedText (m : Machine η) (w : WatcherId) : Option String := do
  let c := m.watcher w
  let value ← m.debugText c.value
  pure ("Computed \x7b id: SubscriberId(" ++ toString w.shown ++ "), dirty: " ++
    toString c.dirty ++ ", value: " ++ value ++ " \x7d")

/-- The diagnostic text of a scope. -/
def scopeText (m : Machine η) (s : ScopeId) : String :=
  let c := m.scope s
  "Scope \x7b name: " ++ Text.showQuoted c.name ++ ", watchers: " ++
    toString c.watchers.length ++ ", mounted: " ++ toString c.mounted ++ ", destroyed: " ++
    toString c.destroyed ++ " \x7d"

/-- The diagnostic text of a cell; none when its value holds itself. -/
def cellText (m : Machine η) (c : CellId) : Option String := do
  let cell := m.cell c
  let value ← match cell.value with
    | .num x => some (diagnosticNumber x)
    | .str s => some (Text.showQuoted s)
    | .val v => m.debugText v
  pure ("Tracked \x7b id: DepId(" ++ toString cell.dep.shown ++ "), value: " ++ value ++ " \x7d")

end Machine

namespace Eff

variable {η : Type}

/-- The JSON document of a value, read as an evaluation reads it; `fuel` bounds the nesting,
and running out halts the run. -/
def documentWith (fuel : Nat) (v : Value) : Eff η Json :=
  match fuel with
  | 0 => halt .exhausted
  | fuel + 1 =>
    match v with
    | .undefined | .null => pure .null
    | .bool b => pure (.bool b)
    | .num x => pure (if x.isNaN || x.isInf then .null else .ofFloat x)
    | .str s => pure (.str s)
    | .obj o => do
      let keys ← objKeys o
      let fields ← keys.mapM fun k => do
        pure (k, ← documentWith fuel (← objGet o k))
      pure (.obj (sortFields fields))
    | .list l => do
      let items ← listItems l
      pure (.arr (← items.mapM (documentWith fuel)))

/-- The JSON document of a value; see `documentWith`. -/
def document (v : Value) : Eff η Json := do
  documentWith (← containerCount) v

end Eff

end Reactivity

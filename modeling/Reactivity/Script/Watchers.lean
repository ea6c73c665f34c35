import Reactivity.Script.Decode

/-!
# Operations on watchers, computed values and cells

The operations of a script that make watchers and ask or drive them, read and drive computed
values, and make, read and write tracked cells. A watcher made without a name is held only by
its scope, if it has one.
-/

namespace Reactivity

/-- The contents of a cell as a value. -/
def CellValue.toValue : CellValue → Value
  | .num x => .num x
  | .str s => .str s
  | .val v => v

namespace Script

open Interp

/-- A value as the contents of a cell of the same kind as `like`. -/
def cellContents (like : CellValue) (v : Value) : Script CellValue :=
  match like, v with
  | .num _, .num x => pure (.num x)
  | .str _, .str s => pure (.str s)
  | .val _, v => pure (.val v)
  | _, v => refuse ("a cell of this kind cannot hold a " ++ v.kind ++ " value")

/-- The flags of a watcher as a plain object. -/
def watcherFlags (w : WatcherId) : Script Value := do
  let m ← get
  let c := m.watcher w
  object [("lazy", .bool c.lazy), ("user", .bool c.user), ("sync", .bool c.sync),
    ("deep", .bool c.deep), ("render", .bool c.render), ("has_scope", .bool (m.scopeOf w).isSome)]

/-- The diagnostic text of watcher options. -/
def optionsText (o : Eff.WatcherOptions) : String :=
  "WatcherOptions \x7b deep: " ++ toString o.deep ++ ", user: " ++ toString o.user ++
    ", lazy: " ++ toString o.lazy ++ ", sync: " ++ toString o.sync ++ ", before: " ++
    toString o.before.isSome ++ " \x7d"

/-- The watcher, computed value and cell operations; none for any other name. -/
def watchers (I : Interp) (op : String) (raw : Json) : Option (Script Value) :=
  let p := raw.arguments
  let r := I.runner
  match op with
  | "watcher" => some do
    let name := match (p[0]? : Option Json) with
      | some (.str n) => some n
      | _ => none
    let scope ← scopeAt? p 1
    let getter ← getterOf (← argAt p 2)
    let callback ← closureAt? p 3
    let o ← watcherOptionsOf (p[4]?.getD .null)
    let render := flagAt p 5
    let w ← Eff.create r scope getter callback o render
    match name with
    | some n => change fun g => { g with watchers := g.watchers.bind n w }
    | none => Eff.release
    Eff.unhold
    return count w.shown
  | "wvalue" => some do return ((← get).watcher (← watcherAt p 0)).value
  | "wactive" => some do return .bool ((← get).watcher (← watcherAt p 0)).active
  | "wdirty" => some do return .bool ((← get).watcher (← watcherAt p 0)).dirty
  | "wdeps" => some do return count ((← get).watcher (← watcherAt p 0)).deps.length
  | "wexpr" => some do return .str ((← get).watcher (← watcherAt p 0)).expression
  | "wid" => some do return count (← watcherAt p 0).shown
  | "wid_display" => some do return .str ("#" ++ toString (← watcherAt p 0).shown)
  | "wflags" => some do watcherFlags (← watcherAt p 0)
  | "wrun" => some do
    Eff.run r (← watcherAt p 0)
    return .undefined
  | "wupdate" => some do
    Eff.update r (← watcherAt p 0)
    return .undefined
  | "wevaluate" => some do
    Eff.refresh r (← watcherAt p 0)
    return .undefined
  | "wget" => some do Eff.evaluate r (← watcherAt p 0)
  | "wdepend" => some do
    Eff.dependOn (← watcherAt p 0)
    return .undefined
  | "wteardown" => some do
    Eff.teardown (← watcherAt p 0)
    return .undefined
  | "wdebug" => some do return diagnostic ((← get).watcherText (← watcherAt p 0))
  | "wdepends_cell" => some do
    let w ← watcherAt p 0
    let c ← cellAt p 1
    let m ← get
    return .bool ((m.watcher w).deps.contains (m.cell c).dep)
  | "getter_debug" => some do
    let g ← getterOf (← argAt p 0)
    return diagnostic ("Getter(" ++ Text.showQuoted g.describe ++ ")")
  | "options_debug" => some do
    return .str (optionsText (← watcherOptionsOf (p[0]?.getD .null)))
  | "cget" => some do Eff.computedGet r (← computedAt p 0)
  | "cpeek" => some do return ((← get).watcher (← computedAt p 0)).value
  | "cdirty" => some do return .bool ((← get).watcher (← computedAt p 0)).dirty
  | "cmark" => some do
    Eff.modifyWatcher (← computedAt p 0) fun c => { c with dirty := true }
    return .undefined
  | "cdispose" => some do
    Eff.teardown (← computedAt p 0)
    return .undefined
  | "cid" => some do return count (← computedAt p 0).shown
  | "cdebug" => some do
    match (← get).computedText (← computedAt p 0) with
    | some text => pure (diagnostic text)
    | none => Eff.halt (.abort "a value that holds itself has no diagnostic text")
  | "cwatcher" => some do
    let w ← computedAt p 0
    let name ← textAt p 1
    change fun g => { g with watchers := g.watchers.bind name w }
    return .undefined
  | "cell" => some do
    let name ← textAt p 0
    let kind ← textAt p 1
    let v ← I.valueAt p 2
    let contents ← match kind, v with
      | "num", .num x => pure (CellValue.num x)
      | "str", .str s => pure (.str s)
      | "value", v => pure (.val v)
      | _, _ => refuse ("cannot make a " ++ kind ++ " cell of a " ++ v.kind ++ " value")
    let c ← Eff.newCell contents
    modify fun m => { m with host := { m.host with cells := m.host.cells.bind name c } }
    return .undefined
  | "cell_get" => some do
    return CellValue.toValue (← Eff.cellGet (← cellAt p 0))
  | "cell_with" => some do
    Eff.cellWith (← cellAt p 0) fun v => pure (CellValue.toValue v)
  | "cell_peek" => some do return CellValue.toValue ((← get).cell (← cellAt p 0)).value
  | "cell_set" => some do
    let c ← cellAt p 0
    let v ← I.valueAt p 1
    let contents ← cellContents ((← get).cell c).value v
    return .bool (← Eff.cellSet r c contents)
  | "cell_add" => some do
    let c ← cellAt p 0
    let d ← I.valueAt p 1
    match ((← get).cell c).value with
    | .num _ => return .bool (← Eff.cellUpdate r c fun
        | .num x => pure (.num (x + (d.asNum?.getD 0)))
        | v => pure v)
    | _ => refuse "cell_add needs a number cell"
  | "cell_subs" => some do
    let m ← get
    return count (m.dep (m.cell (← cellAt p 0)).dep).subs.length
  | "cell_id" => some do return count ((← get).cell (← cellAt p 0)).dep.shown
  | "cell_debug" => some do
    match (← get).cellText (← cellAt p 0) with
    | some text => pure (diagnostic text)
    | none => Eff.halt (.abort "a value that holds itself has no diagnostic text")
  | _ => none

end Script

end Reactivity

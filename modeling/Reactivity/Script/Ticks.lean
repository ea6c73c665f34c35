import Reactivity.Script.Decode

/-!
# Operations on the scheduler, ticks and settings

The operations of a script that drive the flush queue and the tick batch, wait for settled
signals, read and replace the settings, and run items inside an asynchronous runtime.

Inside a runtime, the item `"yield"` lets the runtime run one round of its tasks, and
`"settled"` waits for a new settled signal: the runtime runs rounds until the signal has
fired, and a signal still not fired when no task is left would never be. Any other item is an expression. When the items end,
or one fails, the runtime is dropped: a tick batch still waiting for one of its tasks goes
back to idle, keeping its jobs.
-/

namespace Reactivity

namespace Script

open Interp

/-- Settings as a plain object. -/
def configObject (c : Config) : Script Value :=
  object [("max_update_count", count c.maxUpdateCount), ("async_flush", .bool c.asyncFlush),
    ("silent", .bool c.silent), ("tick", .str c.tick.name)]

/-- Watchers queued and not yet run. -/
def queuedCount : Script Nat := do
  let q := (← get).queue
  return if q.flushing then q.queue.size - (q.index + 1) else q.queue.size

/-- One item run inside an asynchronous runtime. -/
def runtimeItem (I : Interp) : Json → Script Value
  | .str "yield" => do
    Eff.runRound I.runner
    return .str "yielded"
  | .str "settled" => do
    let s ← Eff.settledSignal
    if ← Eff.awaitSignal I.runner s then return .str "settled"
    else Eff.halt (.abort "a settled signal that no task will fire is awaited")
  | e => I.eval e

/-- Drops the asynchronous runtime: a batch waiting for one of its tasks goes back to idle. -/
def dropRuntime : Script Unit :=
  modify fun m =>
    match m.runtime with
    | none => m
    | some rt =>
      let waiting := rt.tasks.any fun g => m.ticks.armed = .task g
      { m with runtime := none,
               ticks := if waiting then { m.ticks with armed := .idle } else m.ticks }

/-- Runs items inside a fresh runtime, current-thread or not, and drops it. -/
def withRuntime (I : Interp) (currentThread : Bool) (items : List Json) : Script Value := do
  modify fun m => { m with runtime := some { currentThread := currentThread } }
  let r ← Eff.attempt (items.mapM (runtimeItem I))
  dropRuntime
  match r with
  | .ok vs => list vs
  | .error e => Eff.fault e

/-- The scheduler, tick and settings operations; none for any other name. -/
def ticks (I : Interp) (op : String) (raw : Json) : Option (Script Value) :=
  let p := raw.arguments
  let r := I.runner
  match op with
  | "tick" => some do return count (← Eff.tick r)
  | "drain" => some do return count (← Eff.drain r)
  | "flush_now" => some do
    Eff.flush r
    return .undefined
  | "is_pending" => some do return .bool (← Eff.pending)
  | "queued_len" => some do return count (← queuedCount)
  | "is_flushing" => some do return .bool (← get).queue.flushing
  | "next_tick" => some do
    let s ← scopeAt? p 0
    let c ← closureAt p 1
    Eff.nextTick (.call c s)
    return .undefined
  | "settled" => some do
    let name ← textAt p 0
    let s ← Eff.settledSignal
    modify fun m => { m with host := { m.host with signals := m.host.signals.bind name s } }
    return .undefined
  | "is_settled" | "poll_settled" => some do
    let s ← signalAt p 0
    return .bool ((← get).signals[s]?.getD false)
  | "config" => some do
    let text := match raw with
      | .str s => s
      | j => j.write .document
    match Config.read text with
    | .ok c =>
      modify fun m => { m with config := c }
      configObject c
    | .error e => Eff.fault (.config e.message)
  | "config_current" => some do configObject (← get).config
  | "config_debug" => some do return .str (← get).config.debugText
  | "tokio" => some do
    let flavor ← textAt p 0
    let items ← match (p[1]? : Option Json) with
      | some (.arr items) => pure items
      | _ => refuse "tokio needs a list of items"
    withRuntime I (flavor = "current") items
  | _ => none

end Script

end Reactivity

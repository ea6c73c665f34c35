import Reactivity.Watcher

/-!
# Running watchers: notification, the flush queue and the tick batch

`Eff.notify d` tells every watcher subscribed to `d` that something it read changed
(`Eff.update`): a lazy watcher is marked dirty, a synchronous one runs at once, and any other
is queued. A watcher is queued once until it runs; the first watcher queued in a batch adds a
flush to the tick batch, or flushes at once when flushes are not asynchronous.

A flush sorts the queue by watcher and walks it by position. A watcher queued while the flush
runs goes after every queued watcher created later than it, but never at or before the next
position. Each step runs one watcher, unless it has already run more than the allowed number
of times in this flush: then it is reported once as a runaway and skipped for the rest of the
flush. When the walk ends, the queue is emptied and the updated hooks of the scopes whose
render watchers were flushed run, last flushed first.

Running a watcher (`Eff.run`) evaluates it and, when the value changed (or is a container, or
the watcher is deep), stores it and calls the callback with the new and the old value, with
tracking masked.

The tick batch collects jobs until the host or a task of an asynchronous runtime runs it.
-/

namespace Reactivity

/-- How a flush handles the watcher at its current position. -/
inductive Step where
  /-- run it -/
  | run
  /-- report it as a runaway, with its runs in this flush, and drop it -/
  | runaway (runs : Nat)
  /-- pass over it: it was dropped earlier in this flush -/
  | skip
deriving DecidableEq

namespace FlushQueue

/-- Takes the watcher at the current position: its queued mark is cleared and, unless it was
dropped, its run is counted; one run more than `limit` drops it. None when the walk is over. -/
def pick (limit : Nat) (q : FlushQueue) : Option (WatcherId × Step × FlushQueue) := do
  let w ← q.queue[q.index]?
  let q := { q with has := q.has.erase w }
  if q.dropped.contains w then return (w, .skip, q)
  let runs := (q.runs.lookup w).getD 0 + 1
  let q := { q with runs := (w, runs) :: q.runs.filter (·.1 ≠ w) }
  if runs > limit then return (w, .runaway runs, { q with dropped := w :: q.dropped })
  return (w, .run, q)

/-- The queued watchers sorted by creation, the order a flush walks them in. -/
def sorted (q : FlushQueue) : List WatcherId :=
  q.queue.toList.mergeSort fun a b => a.idx ≤ b.idx

/-- The queue as a flush starts walking it: sorted, flushing, at the first position. -/
def start (q : FlushQueue) : FlushQueue :=
  { q with flushing := true, index := 0, queue := q.sorted.toArray }

end FlushQueue

namespace Eff

variable {η : Type}

/-- Evaluates a watcher and, if its value changed, stores it and calls its callback. A user
watcher's failed callback is reported; any other fault is raised. -/
def run (r : Runner η) (w : WatcherId) : Eff η Unit := do
  let cell := (← get).watcher w
  if !cell.active then return
  let v ← evaluate r w
  let old := ((← get).watcher w).value
  if v.same old && !v.isContainer && !cell.deep then return
  modifyWatcher w fun c => { c with value := v }
  match cell.callback with
  | none => pure ()
  | some cb =>
    match ← attempt (untracked (r.invoke cb (.change v old))) with
    | .ok _ => pure ()
    | .error e =>
      if cell.user then
        handleError r (.callback cell.expression e.message) ((← get).scopeOf w)
          ("callback for watcher \"" ++ cell.expression ++ "\"")
      else fault e

/-- The position at which `w` joins a queue being walked at position `index`: after every
entry created before it, never at or before `index + 1`. -/
def insertionPoint (queue : Array WatcherId) (index : Nat) (w : WatcherId) : Nat :=
  let rec go (i : Nat) : Nat :=
    match i with
    | 0 => 0
    | i + 1 =>
      if i + 1 > index + 1 && w < (queue[i]?.getD w) then go i else i + 1
  go queue.size

/-- Decides who will run a batch that just got its first job. -/
def arm : Eff η Armed := do
  let m ← get
  if m.config.tick = .manual then return .host
  match m.runtime with
  | some rt =>
    if rt.currentThread then
      let g := m.ticks.generation + 1
      set { m with
        ticks := { m.ticks with generation := g }
        runtime := some { rt with tasks := rt.tasks ++ [g] } }
      return .task g
    else noRuntime m.config.tick
  | none => noRuntime m.config.tick
where
  noRuntime (mode : TickMode) : Eff η Armed := do
    if mode = .tokio then
      warn "tick strategy is tokio but no current-thread runtime is running; ticks are manual"
    return .host

/-- Adds a job to the tick batch, arranging for the batch to run if it was idle. -/
def nextTick (job : TickJob) : Eff η Unit := do
  modify fun m => { m with ticks := { m.ticks with jobs := m.ticks.jobs.push job } }
  if (← get).ticks.armed = .idle then
    let a ← arm
    modify fun m => { m with ticks := { m.ticks with armed := a } }

/-- The before hook of a watcher about to run in a flush. -/
def before (r : Runner η) (w : WatcherId) : Eff η Unit := do
  match ((← get).watcher w).before with
  | none => pure ()
  | some (.action c) => perform r c
  | some (.renderOf s) =>
    let m ← get
    if let some s := m.alive s then
      let cell := m.scope s
      if cell.mounted && !cell.destroyed then
        pin (.scope s)
        callHooks r cell.beforeUpdate
        unhold

/-- After a flush: the updated hooks of a render watcher's scope, if it is still the scope's
render watcher and the scope is mounted and not destroyed. -/
def afterRender (r : Runner η) (w : WatcherId) : Eff η Unit := do
  let m ← get
  if let some s := m.scopeOf w then
    let cell := m.scope s
    if cell.render = some w && cell.mounted && !cell.destroyed then
      pin (.scope s)
      callHooks r cell.updated
      unhold

/-- What a flush does with the watcher it picked: runs it after its before hook, reports it
as a runaway, or passes over it. -/
def takeStep (r : Runner η) (limit : Nat) (w : WatcherId) : Step → Eff η Unit
  | .run => do
    before r w
    if let .error e ← attempt (run r w) then
      handleError r e ((← get).scopeOf w)
        ("watcher \"" ++ ((← get).watcher w).expression ++ "\"")
  | .runaway runs => do
    report (.arr [.str "warn", .str "runaway watcher dropped from flush",
      .str ("runs=" ++ toString runs)])
    let cell := (← get).watcher w
    handleError r (.runaway w cell.expression limit) ((← get).scopeOf w) "scheduler flush"
  | .skip => pure ()

/-- One step of a flush at the current position; `false` when the walk is over. -/
def flushStep (r : Runner η) (limit : Nat) : Eff η Bool := do
  match (← get).queue.pick limit with
  | none => return false
  | some (w, step, q) =>
    modify fun m => { m with queue := q }
    takeStep r limit w step
    modify fun m => { m with queue := { m.queue with index := m.queue.index + 1 } }
    return true

/-- Steps through the queue until the walk is over; running out of `fuel` halts. -/
def walk (r : Runner η) (limit : Nat) : Nat → Eff η Unit
  | 0 => halt .exhausted
  | fuel + 1 => do
    if ← flushStep r limit then walk r limit fuel

/-- After a walk, with the queue already emptied: the flushed watchers are held while the
updated hooks of the render watchers among them run, last flushed first. -/
def afterFlush (r : Runner η) (flushed : Array WatcherId) : Eff η Unit := do
  for w in flushed do pin (.watcher w)
  for w in flushed.toList.reverse do
    if ((← get).watcher w).render then afterRender r w
  for _ in flushed do unhold
  released

/-- Runs the queued watchers; nothing happens while a flush is already running or when the
queue is empty. -/
def flush (r : Runner η) : Eff η Unit := do
  let m ← get
  let limit := m.config.maxUpdateCount
  if m.queue.flushing || m.queue.queue.isEmpty then return
  set { m with queue := m.queue.start }
  walk r limit r.fuel
  let flushed := (← get).queue.queue
  modify fun m => { m with queue := {} }
  afterFlush r flushed

/-- Queues a watcher, once until it runs and never after it was dropped as runaway in the
flush under way. -/
def enqueue (r : Runner η) (w : WatcherId) : Eff η Unit := do
  let q := (← get).queue
  if q.has.contains w || q.dropped.contains w then return
  let queue := if q.flushing then
      let p := insertionPoint q.queue q.index w
      (q.queue.toList.take p ++ w :: q.queue.toList.drop p).toArray
    else q.queue.push w
  modify fun m => { m with queue := { q with has := w :: q.has, queue := queue } }
  if q.waiting then return
  modify fun m => { m with queue := { m.queue with waiting := true } }
  if (← get).config.asyncFlush then nextTick .flush else flush r

/-- Tells a watcher that something it read changed. -/
def update (r : Runner η) (w : WatcherId) : Eff η Unit := do
  let cell := (← get).watcher w
  if !cell.active then return
  if cell.lazy then
    modifyWatcher w fun c => { c with dirty := true }
  else if cell.sync then
    if let .error e ← attempt (run r w) then
      handleError r e ((← get).scopeOf w) ("sync watcher \"" ++ cell.expression ++ "\"")
  else enqueue r w

/-- Tells every subscriber of `d`, in subscription order, or by creation when flushes are not
asynchronous. -/
def notify (r : Runner η) (d : DepId) : Eff η Unit := do
  let m ← get
  let subs := (m.dep d).subs.filter fun w => !(m.watcher w).dropped
  let subs := if m.config.asyncFlush then subs else subs.mergeSort fun a b => a.idx ≤ b.idx
  for w in subs do pin (.watcher w)
  for w in subs do update r w
  for _ in subs do unhold

/-- Runs one job of the tick batch. -/
def runJob (r : Runner η) : TickJob → Eff η Unit
  | .flush => flush r
  | .call c scope => do
    if let .error e ← attempt (r.invoke c .none) then
      handleError r e (scope.bind (← get).alive) "nextTick"
  | .signal s => modify fun m => { m with signals := m.signals.setIfInBounds s true }

/-- Runs the jobs of the tick batch queued so far; jobs queued meanwhile wait for the next
tick. The result is the number of jobs run. -/
def tick (r : Runner η) : Eff η Nat := do
  let jobs := (← get).ticks.jobs
  modify fun m => { m with ticks := { m.ticks with jobs := #[], armed := .idle } }
  for job in jobs do runJob r job
  return jobs.size

/-- Whether jobs wait in the tick batch. -/
def pending : Eff η Bool := return !(← get).ticks.jobs.isEmpty

/-- Ticks until no job waits; the result is the number of jobs run. -/
def drain (r : Runner η) : Eff η Nat := do
  let mut total := 0
  for _ in [0:r.fuel] do
    if !(← pending) then return total
    total := total + (← tick r)
  if ← pending then halt .exhausted
  return total

/-- The most tasks the asynchronous runtime runs in one round, before it looks again at the
work it was blocked on. -/
def eventInterval : Nat := 61

/-- One round of the asynchronous runtime: its tick tasks run in order, each as a tick,
until none is left or `eventInterval` of them have run. A task that ends while the batch
still waits for it leaves the batch idle. -/
def runRound (r : Runner η) : Eff η Unit := do
  for _ in [0:eventInterval] do
    match (← get).runtime with
    | some rt =>
      match rt.tasks with
      | [] => return
      | g :: rest =>
        modify fun m => { m with runtime := some { rt with tasks := rest } }
        let _ ← tick r
        modify fun m => if m.ticks.armed = .task g then
          { m with ticks := { m.ticks with armed := .idle } } else m
    | none => return

/-- Whether the asynchronous runtime has a task waiting. -/
def tasksWaiting : Eff η Bool :=
  return ((← get).runtime.map fun rt => !rt.tasks.isEmpty).getD false

/-- Runs rounds until signal `s` has fired, which is reported, or no task is left, in
which case it never will. The signal is looked at only between rounds. -/
def awaitSignal (r : Runner η) (s : Nat) : Eff η Bool := do
  for _ in [0:r.fuel] do
    runRound r
    if (← get).signals[s]?.getD false then return true
    if !(← tasksWaiting) then return false
  halt .exhausted

/-- Creates a settled signal, fired by a job of the tick batch. -/
def settledSignal : Eff η Nat := do
  let m ← get
  set { m with signals := m.signals.push false }
  nextTick (.signal m.signals.size)
  return m.signals.size

end Eff

end Reactivity

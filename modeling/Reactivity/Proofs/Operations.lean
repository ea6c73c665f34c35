import Reactivity.Proofs.Stable
import Reactivity.Scope
import Reactivity.Cell

/-!
# Every operation keeps an invariant of the tracking tables

An invariant that looks only at the watchers and the dependency sets, the flush queue and the
jobs of the tick batch (`Apart`) cannot see the containers, the scopes or the cells. If every
primitive update of tracking keeps it as well (`Stable`), and the scheduler does too
(`Schedules`), then so does every operation of the engine: writing properties, objects and
lists, and making, mounting and destroying cells and scopes, as long as host code keeps it.

Scheduling needs less: it runs watchers and host code, and otherwise changes only its own
bookkeeping. So an invariant that every update of evaluation keeps (`Stable.Eval`) and that
looks past that bookkeeping (`OffSchedule`), such as one of the containers or of the tables
alone (`OnTables`), survives notifying, flushing and the tick batch (`Stable.Eval.schedules`).
-/

namespace Reactivity

variable {η α : Type}

/-- `I` looks at nothing but the tables of watchers and of dependency sets. -/
def OnTables (I : Machine η → Prop) : Prop :=
  ∀ m m', m'.watchers = m.watchers → m'.deps = m.deps → I m → I m'

/-- `m'` differs from `m` only past the tables of watchers and dependency sets, the flush queue
and the jobs of the tick batch. -/
structure Machine.Aside (m m' : Machine η) : Prop where
  watchers : m'.watchers = m.watchers
  deps : m'.deps = m.deps
  queue : m'.queue = m.queue
  jobs : m'.ticks.jobs = m.ticks.jobs

/-- `I` looks at nothing but the tables of watchers and dependency sets, the flush queue and the
jobs of the tick batch. -/
def Apart (I : Machine η → Prop) : Prop := ∀ m m', m.Aside m' → I m → I m'

theorem OnTables.apart {I : Machine η → Prop} (hI : OnTables I) : Apart I :=
  fun m m' h => hI m m' h.watchers h.deps

namespace Apart

variable {I : Machine η → Prop} (ha : Apart I)
include ha

theorem modify {f : Machine η → Machine η} (hf : ∀ m : Machine η, m.Aside (f m)) :
    Keeps I (modify f : Eff η Unit) :=
  Keeps.modify fun m hm => ha m (f m) (hf m) hm

theorem get_set_bind {β : Type} {g : Machine η → Machine η} {k : Machine η → PUnit → Eff η β}
    (hg : ∀ m : Machine η, m.Aside (g m)) (hk : ∀ m u, Keeps I (k m u)) :
    Keeps I (MonadState.get >>= fun m => MonadState.set (g m) >>= k m) :=
  Keeps.get_set_bind (fun m hm => ha m (g m) (hg m) hm) hk

theorem newObject (fields : List (String × Value)) : Keeps I (Eff.newObject fields : Eff η ObjRef) :=
  ha.get_set_bind (fun _ => ⟨rfl, rfl, rfl, rfl⟩) fun _ _ => Keeps.pure _

theorem borrowing {f : CellValue → Eff η α} (hf : ∀ v, Keeps I (f v)) (c : CellId) :
    Keeps I (Eff.borrowing c f) := by
  refine Keeps.bind Keeps.get fun _ => Keeps.bind (ha.modify fun _ => ⟨rfl, rfl, rfl, rfl⟩)
    fun _ => Keeps.bind (Keeps.attempt (hf _)) fun res =>
      Keeps.bind (ha.modify fun _ => ⟨rfl, rfl, rfl, rfl⟩) fun _ => ?_
  split
  · exact Keeps.pure _
  · exact Keeps.fault _

end Apart

/-- `I` looks past what the scheduler keeps for itself: the flush queue, the tick batch, the
runtime, the settled signals and the cells. -/
def OffSchedule (I : Machine η → Prop) : Prop :=
  ∀ m q t rt sg c, I m →
    I { m with queue := q, ticks := t, runtime := rt, signals := sg, cells := c }

/-- `f` changes only the scheduler's own bookkeeping. -/
def Bookkeeping (f : Machine η → Machine η) : Prop :=
  ∀ m, ∃ q t rt sg c,
    f m = { m with queue := q, ticks := t, runtime := rt, signals := sg, cells := c }

theorem OnTables.offSchedule {I : Machine η → Prop} (hI : OnTables I) : OffSchedule I :=
  fun m _ _ _ _ _ hm => hI m _ rfl rfl hm

/-- `I` looks past the flush queue. -/
def OffQueue (I : Machine η → Prop) : Prop := ∀ m q, I m → I { m with queue := q }

theorem OffSchedule.offQueue {I : Machine η → Prop} (hq : OffSchedule I) : OffQueue I :=
  fun m q hm => hq m q m.ticks m.runtime m.signals m.cells hm

namespace OffSchedule

variable {I : Machine η → Prop} (hq : OffSchedule I)
include hq

theorem apply {f : Machine η → Machine η} (hf : Bookkeeping f) {m : Machine η} (hm : I m) :
    I (f m) := by
  obtain ⟨q, t, rt, sg, c, e⟩ := hf m
  rw [e]
  exact hq m q t rt sg c hm

theorem modify {f : Machine η → Machine η} (hf : Bookkeeping f) : Keeps I (modify f : Eff η Unit) :=
  Keeps.modify fun _ hm => hq.apply hf hm

theorem get_set_bind {β : Type} {g : Machine η → Machine η} {k : Machine η → PUnit → Eff η β}
    (hg : Bookkeeping g) (hk : ∀ m u, Keeps I (k m u)) :
    Keeps I (MonadState.get >>= fun m => MonadState.set (g m) >>= k m) :=
  Keeps.get_set_bind (fun _ hm => hq.apply hg hm) hk

end OffSchedule

/-- What the scheduler's operations keep with the host code of `r`: telling watchers of a change,
flushing, and the tick batch with its rounds and settled signals. -/
structure Schedules (I : Machine η → Prop) (r : Runner η) : Prop where
  notify : ∀ d, Keeps I (Eff.notify r d)
  update : ∀ w, Keeps I (Eff.update r w)
  flush : Keeps I (Eff.flush r)
  nextTick : ∀ job, Keeps I (Eff.nextTick job : Eff η Unit)
  settledSignal : Keeps I (Eff.settledSignal : Eff η Nat)
  tick : Keeps I (Eff.tick r)
  drain : Keeps I (Eff.drain r)
  runRound : Keeps I (Eff.runRound r)
  awaitSignal : ∀ s, Keeps I (Eff.awaitSignal r s)

namespace Stable

variable {I : Machine η → Prop}

theorem pending : Keeps I (Eff.pending : Eff η Bool) :=
  Keeps.bind Keeps.get fun _ => Keeps.pure _

theorem tasksWaiting : Keeps I (Eff.tasksWaiting : Eff η Bool) :=
  Keeps.bind Keeps.get fun _ => Keeps.pure _

theorem rootCount (o : ObjRef) : Keeps I (Eff.rootCount o : Eff η Nat) :=
  Keeps.bind Keeps.get fun _ => Keeps.pure _

namespace Base

variable (h : Base I)
include h

theorem warn (text : String) : Keeps I (Eff.warn text : Eff η Unit) :=
  Keeps.bind Keeps.get fun _ => Keeps.ite _ (h.report _) (Keeps.pure _)

theorem noRuntime (mode : TickMode) : Keeps I (Eff.arm.noRuntime mode : Eff η Armed) := by
  unfold Eff.arm.noRuntime
  split
  · exact Keeps.bind (h.warn _) fun _ => Keeps.pure _
  · exact Keeps.pure _

end Base

/-! ## The tick batch -/

namespace Eval

variable (h : Eval I) (hq : OffSchedule I)
include h hq

theorem arm : Keeps I (Eff.arm : Eff η Armed) := by
  refine Keeps.bind_get fun m hm => ?_
  refine Triple.ite _ (fun _ => Triple.pure _ fun _ e => e ▸ hm) fun _ => ?_
  have hrt : Triple (· = m) (Eff.arm.noRuntime m.config.tick : Eff η Armed) fun _ => I :=
    Triple.conseq (h.noRuntime _) (fun _ e => e ▸ hm) fun _ _ h => h
  split
  · refine Triple.ite _ (fun _ => ?_) fun _ => hrt
    intro _ _ _ _ hr
    simp only [Eff.exec_setOf_bind, Eff.exec_pure, Except.ok.injEq, Prod.mk.injEq] at hr
    obtain ⟨-, rfl⟩ := hr
    exact hq m _ _ _ _ _ hm
  · exact hrt

theorem nextTick (job : TickJob) : Keeps I (Eff.nextTick job : Eff η Unit) :=
  Keeps.bind (hq.modify fun _ => ⟨_, _, _, _, _, rfl⟩) fun _ => Keeps.bind Keeps.get fun _ =>
    Keeps.ite _ (Keeps.bind (h.arm hq) fun _ => hq.modify fun _ => ⟨_, _, _, _, _, rfl⟩)
      (Keeps.pure _)

theorem settledSignal : Keeps I (Eff.settledSignal : Eff η Nat) :=
  hq.get_set_bind (fun _ => ⟨_, _, _, _, _, rfl⟩) fun _ _ =>
    Keeps.bind (h.nextTick hq _) fun _ => Keeps.pure _

/-! ## Scheduling, with host code -/

variable {r : Runner η} (hr : ∀ c a, Keeps I (r.invoke c a))
include hr

omit hq in
theorem takeStep (limit : Nat) (w : WatcherId) (s : Step) :
    Keeps I (Eff.takeStep r limit w s) := by
  cases s with
  | run =>
    refine Keeps.bind (h.before hr w) fun _ => Keeps.bind (Keeps.attempt (h.run hr w)) fun res => ?_
    split
    · exact Keeps.bind Keeps.get fun _ => Keeps.bind Keeps.get fun _ => h.handleError hr _ _ _
    · exact Keeps.pure _
  | runaway runs =>
    exact Keeps.bind (h.report _) fun _ => Keeps.bind Keeps.get fun _ =>
      Keeps.bind Keeps.get fun _ => h.handleError hr _ _ _
  | skip => exact Keeps.pure _

omit hq in
theorem flushStep (hq : OffQueue I) (limit : Nat) : Keeps I (Eff.flushStep r limit) := by
  refine Keeps.bind Keeps.get fun m => ?_
  split
  · exact Keeps.pure _
  · exact Keeps.bind (Keeps.modify fun _ hm => hq _ _ hm) fun _ =>
      Keeps.bind (h.takeStep hr _ _ _) fun _ =>
        Keeps.bind (Keeps.modify fun _ hm => hq _ _ hm) fun _ => Keeps.pure _

omit hq in
theorem walk (hq : OffQueue I) (limit fuel : Nat) : Keeps I (Eff.walk r limit fuel) := by
  induction fuel with
  | zero => exact Keeps.halt _
  | succ fuel ih => exact Keeps.bind (h.flushStep hr hq limit) fun _ => Keeps.ite _ ih (Keeps.pure _)

omit hq in
theorem afterFlush (flushed : Array WatcherId) : Keeps I (Eff.afterFlush r flushed) :=
  Keeps.bind (Keeps.forIn_array fun _ _ => Keeps.bind (h.pin _) fun _ => Keeps.pure _)
    fun _ => Keeps.bind (Keeps.forIn_list fun _ _ => Keeps.bind Keeps.get fun _ =>
      Keeps.ite _ (Keeps.bind (h.afterRender hr _) fun _ => Keeps.pure _) (Keeps.pure _))
    fun _ => Keeps.bind (Keeps.forIn_array fun _ _ => Keeps.bind h.unhold fun _ =>
      Keeps.pure _) fun _ => h.released

omit hq in
theorem flush (hq : OffQueue I) : Keeps I (Eff.flush r) := by
  refine Keeps.bind_get fun m hm => ?_
  refine Triple.ite _ (fun _ => Triple.pure _ fun _ e => e ▸ hm) fun _ => ?_
  refine Triple.bind (Triple.set { m with queue := m.queue.start } fun _ _ =>
    hq m _ hm : Triple (· = m) _ fun _ => I) (fun _ => ?_) fun _ _ h => h
  exact Keeps.bind (h.walk hr hq _ _) fun _ => Keeps.bind Keeps.get fun _ =>
    Keeps.bind (Keeps.modify fun _ hm => hq _ _ hm) fun _ => h.afterFlush hr _

theorem enqueue (w : WatcherId) : Keeps I (Eff.enqueue r w) := by
  refine Keeps.bind Keeps.get fun m => Keeps.ite _ (Keeps.pure _) ?_
  dsimp only
  refine Keeps.bind (hq.modify fun _ => ⟨_, _, _, _, _, rfl⟩) fun _ => Keeps.ite _ (Keeps.pure _) ?_
  exact Keeps.bind (hq.modify fun _ => ⟨_, _, _, _, _, rfl⟩) fun _ => Keeps.bind Keeps.get fun _ =>
    Keeps.ite _ (h.nextTick hq _) (h.flush hr hq.offQueue)

theorem update (w : WatcherId) : Keeps I (Eff.update r w) := by
  unfold Eff.update
  refine Keeps.bind Keeps.get fun m => Keeps.ite _ (Keeps.pure _) <|
    Keeps.ite _ (h.watcher _ _ fun _ => rfl) <| Keeps.ite _ ?_ (h.enqueue hq hr w)
  refine Keeps.bind (Keeps.attempt (h.run hr w)) fun res => ?_
  split
  · exact Keeps.bind Keeps.get fun _ => h.handleError hr _ _ _
  · exact Keeps.pure _

theorem notify (d : DepId) : Keeps I (Eff.notify r d) := by
  unfold Eff.notify
  exact Keeps.bind Keeps.get fun _ =>
    Keeps.bind (Keeps.forIn_list fun _ _ => Keeps.bind (h.pin _) fun _ => Keeps.pure _)
      fun _ => Keeps.bind (Keeps.forIn_list fun _ _ => Keeps.bind (h.update hq hr _) fun _ =>
        Keeps.pure _) fun _ => Keeps.bind (Keeps.forIn_list fun _ _ =>
          Keeps.bind h.unhold fun _ => Keeps.pure _) fun _ => Keeps.pure _

theorem runJob (job : TickJob) : Keeps I (Eff.runJob r job) := by
  cases job with
  | flush => exact h.flush hr hq.offQueue
  | call c scope =>
    refine Keeps.bind (Keeps.attempt (hr _ _)) fun res => ?_
    split
    · exact Keeps.bind Keeps.get fun _ => h.handleError hr _ _ _
    · exact Keeps.pure _
  | signal s => exact hq.modify fun _ => ⟨_, _, _, _, _, rfl⟩

theorem tick : Keeps I (Eff.tick r) :=
  Keeps.bind Keeps.get fun _ => Keeps.bind (hq.modify fun _ => ⟨_, _, _, _, _, rfl⟩) fun _ =>
    Keeps.bind (Keeps.forIn_array fun _ _ => Keeps.bind (h.runJob hq hr _) fun _ => Keeps.pure _)
      fun _ => Keeps.pure _

theorem drain : Keeps I (Eff.drain r) := by
  unfold Eff.drain
  refine Keeps.bind (Keeps.forIn_range fun _ _ => ?_) fun res => ?_
  · refine Keeps.bind pending fun b => ?_
    split
    · exact Keeps.pure _
    · exact Keeps.bind (h.tick hq hr) fun _ => Keeps.pure _
  · dsimp only
    split
    · exact Keeps.pure _
    · exact Keeps.bind pending fun _ => Keeps.ite _ (Keeps.halt _) (Keeps.pure _)

theorem runRound : Keeps I (Eff.runRound r) := by
  unfold Eff.runRound
  refine Keeps.bind (Keeps.forIn_range fun _ _ => Keeps.bind Keeps.get fun m => ?_) fun _ => ?_
  · split
    · split
      · exact Keeps.pure _
      · refine Keeps.bind (hq.modify fun _ => ⟨_, _, _, _, _, rfl⟩) fun _ =>
          Keeps.bind (h.tick hq hr) fun _ =>
          Keeps.bind (hq.modify fun m => ?_) fun _ => Keeps.pure _
        split
        · exact ⟨_, _, _, _, _, rfl⟩
        · exact ⟨m.queue, m.ticks, m.runtime, m.signals, m.cells, rfl⟩
    · exact Keeps.pure _
  · dsimp only
    split
    · exact Keeps.pure _
    · exact Keeps.pure _

theorem awaitSignal (s : Nat) : Keeps I (Eff.awaitSignal r s) := by
  unfold Eff.awaitSignal
  refine Keeps.bind (Keeps.forIn_range fun _ _ => Keeps.bind (h.runRound hq hr) fun _ =>
    Keeps.bind Keeps.get fun _ => Keeps.ite _ (Keeps.pure _) <| Keeps.bind tasksWaiting
      fun _ => Keeps.ite _ (Keeps.pure _) (Keeps.pure _)) fun _ => ?_
  dsimp only
  split
  · exact Keeps.pure _
  · exact Keeps.halt _

/-- An invariant past the scheduler's bookkeeping that evaluation keeps is kept by the whole
scheduler. -/
theorem schedules : Schedules I r :=
  ⟨h.notify hq hr, h.update hq hr, h.flush hr hq.offQueue, h.nextTick hq, h.settledSignal hq,
    h.tick hq hr, h.drain hq hr, h.runRound hq hr, h.awaitSignal hq hr⟩

omit hq in
theorem watch (s : ScopeId) (getter : Getter) (callback : Option Closure) (o : Eff.WatchOptions) :
    Keeps I (Eff.watch r s getter callback o) := by
  refine Keeps.bind (h.build _ _ _ _ _) fun w => Keeps.bind (h.pin _) fun _ => ?_
  refine Keeps.bind (Keeps.attempt (h.evaluate hr w)) fun res => ?_
  -- after the first evaluation, an immediate watch calls its callback once
  extract_lets done called
  have hdone : ∀ u, Keeps I (done u) := fun _ => Keeps.pure _
  have hcalled : ∀ u, Keeps I (called u) := by
    intro u
    dsimp -zeta only [called]
    split
    · split
      · refine Keeps.bind Keeps.get fun _ => ?_
        dsimp only
        refine Keeps.bind (Keeps.attempt (h.untracked (hr _ _))) fun res => ?_
        split
        · exact Keeps.bind (h.handleError hr _ _ _) hdone
        · exact hdone ()
      · exact hdone ()
    · exact hdone ()
  split
  · exact Keeps.bind (h.watcher _ _ fun _ => rfl) hcalled
  · exact Keeps.bind Keeps.get fun _ => Keeps.bind (h.handleError hr _ _ _) hcalled

end Eval

/-! ## Cells -/

namespace Eval

variable (h : Eval I) (ha : Apart I)
include h ha

theorem newCell (v : CellValue) : Keeps I (Eff.newCell v : Eff η CellId) :=
  Keeps.bind h.newDep fun _ => ha.get_set_bind (fun _ => ⟨rfl, rfl, rfl, rfl⟩) fun _ _ =>
    Keeps.pure _

theorem cellWith {f : CellValue → Eff η α} (hf : ∀ v, Keeps I (f v)) (c : CellId) :
    Keeps I (Eff.cellWith c f) :=
  Keeps.bind Keeps.get fun _ => Keeps.bind target fun _ =>
    Keeps.ite _ (Keeps.bind (h.depend _) fun _ => ha.borrowing hf c) (ha.borrowing hf c)

end Eval

section Tables

variable (h : Stable I)
include h

theorem setItems (l : ListRef) (items : List Value) : Keeps I (Eff.setItems l items : Eff η Unit) :=
  h.list _ _

theorem cellGet (c : CellId) : Keeps I (Eff.cellGet c : Eff η CellValue) :=
  Keeps.bind Keeps.get fun _ => Keeps.bind target fun _ =>
    Keeps.ite _ (Keeps.bind (h.depend _) fun _ => Keeps.pure _) (Keeps.pure _)

theorem padTo (l : ListRef) (n : Nat) : Keeps I (Eff.padTo l n : Eff η Unit) :=
  Keeps.bind (itemsUntracked l) fun _ => Keeps.ite _ (h.setItems _ _) (Keeps.pure _)

/-! ## Writes -/

variable {r : Runner η} (hs : Schedules I r)
include hs

theorem mutated (l : ListRef) (added : List Value) : Keeps I (Eff.mutated r l added) := by
  refine Keeps.bind Keeps.get fun m => ?_
  split
  · exact Keeps.bind (Keeps.forIn_list fun _ _ => Keeps.bind (h.toCore.observe _ _) fun _ => Keeps.pure _)
      fun _ => hs.notify _
  · exact Keeps.pure _

theorem push (l : ListRef) (v : Value) : Keeps I (Eff.push r l v) :=
  Keeps.bind (itemsUntracked l) fun _ => Keeps.bind (h.setItems _ _) fun _ =>
    Keeps.bind (h.mutated hs _ _) fun _ => Keeps.pure _

theorem unshift (l : ListRef) (v : Value) : Keeps I (Eff.unshift r l v) :=
  Keeps.bind (itemsUntracked l) fun _ => Keeps.bind (h.setItems _ _) fun _ =>
    Keeps.bind (h.mutated hs _ _) fun _ => Keeps.pure _

theorem pop (l : ListRef) : Keeps I (Eff.pop r l) :=
  Keeps.bind (itemsUntracked l) fun _ => Keeps.bind (h.setItems _ _) fun _ =>
    Keeps.bind (h.mutated hs _ _) fun _ => Keeps.pure _

theorem shift (l : ListRef) : Keeps I (Eff.shift r l) :=
  Keeps.bind (itemsUntracked l) fun _ => Keeps.bind (h.setItems _ _) fun _ =>
    Keeps.bind (h.mutated hs _ _) fun _ => Keeps.pure _

theorem splice (l : ListRef) (start count : Nat) (added : List Value) :
    Keeps I (Eff.splice r l start count added) :=
  Keeps.bind (itemsUntracked l) fun _ => Keeps.bind (h.setItems _ _) fun _ =>
    Keeps.bind (h.mutated hs _ _) fun _ => Keeps.pure _

theorem sortBy (l : ListRef) (before : Value → Value → Bool) : Keeps I (Eff.sortBy r l before) := by
  refine Keeps.bind (itemsUntracked l) fun _ => ?_
  split
  · exact Keeps.bind (h.setItems _ _) fun _ => h.mutated hs _ _
  · exact Keeps.halt _

theorem reverse (l : ListRef) : Keeps I (Eff.reverse r l) :=
  Keeps.bind (itemsUntracked l) fun _ => Keeps.bind (h.setItems _ _) fun _ => h.mutated hs _ _

theorem remove (target : Value) (key : Key) : Keeps I (Eff.remove r target key) := by
  unfold Eff.remove
  split
  · split
    · exact Keeps.fault _
    · refine Keeps.bind (itemsUntracked _) fun _ => Keeps.ite _ ?_ (Keeps.pure _)
      exact Keeps.bind (h.splice hs _ _ _ _) fun _ => Keeps.pure _
  · refine Keeps.bind Keeps.get fun _ => Keeps.bind (rootCount _) fun _ =>
      Keeps.ite _ (Keeps.bind (h.warn _) fun _ => Keeps.pure _) ?_
    refine Keeps.bind (hasOwn _ _) fun _ => Keeps.ite _ (Keeps.pure _) ?_
    refine Keeps.bind (h.object _ _) fun _ => ?_
    split
    · exact hs.notify _
    · exact Keeps.pure _
  · exact Keeps.fault _

variable (ha : Apart I) (hr : ∀ c a, Keeps I (r.invoke c a))
include ha hr

omit hs ha in
theorem assign (hook : Option AssignHook) : Keeps I (Eff.assign r hook) := by
  unfold Eff.assign
  split
  · exact Keeps.pure _
  · exact perform hr _
  · exact Keeps.bind Keeps.get fun _ => Keeps.ite _ (h.warn _) (Keeps.pure _)

theorem propSet (p : PropId) (v : Value) : Keeps I (Eff.propSet r p v) := by
  unfold Eff.propSet
  refine Keeps.bind Keeps.get fun m => Keeps.ite _ (Keeps.pure _) ?_
  -- the assign hook runs first; whatever it did, the value is observed, stored and notified
  refine Keeps.bind (h.assign hr _) fun _ => ?_
  extract_lets store
  have hstore : ∀ child, Keeps I (store child) := fun _ =>
    Keeps.bind (ha.modify fun _ => ⟨rfl, rfl, rfl, rfl⟩) fun _ => hs.notify _
  exact Keeps.ite _ (Keeps.bind (Keeps.pure _) hstore) (Keeps.bind (h.toCore.observe _ _) hstore)

theorem objPut (o : ObjRef) (key : String) (v : Value) : Keeps I (Eff.objPut r o key v) := by
  refine Keeps.bind (slot? o key) fun s => ?_
  split
  · exact h.propSet hs ha hr _ _
  · exact h.object _ _

theorem set (target : Value) (key : Key) (v : Value) : Keeps I (Eff.set r target key v) := by
  unfold Eff.set
  split
  · split
    · exact Keeps.fault _
    · exact Keeps.bind (h.padTo _ _) fun _ => Keeps.bind (h.splice hs _ _ _ _) fun _ =>
        Keeps.pure _
  · refine Keeps.bind (hasOwn _ _) fun _ =>
      Keeps.ite _ (Keeps.bind (h.objPut hs ha hr _ _ _) fun _ => Keeps.pure _) ?_
    refine Keeps.bind (rootCount _) fun _ =>
      Keeps.ite _ (Keeps.bind (h.warn _) fun _ => Keeps.pure _) ?_
    refine Keeps.bind Keeps.get fun _ => ?_
    extract_lets done
    have hdone : ∀ u, Keeps I (done u) := fun _ => Keeps.pure _
    split
    · exact Keeps.bind (h.objPut hs ha hr _ _ _) hdone
    · exact Keeps.bind (h.toCore.defineReactive _ _ _ _ _) fun _ =>
        Keeps.bind (hs.notify _) hdone
  · exact Keeps.fault _

/-! ## Scopes -/

theorem updateProps (s : ScopeId) (props : List (String × Value)) :
    Keeps I (Eff.updateProps r s props) :=
  Keeps.bind (ha.modify fun _ => ⟨rfl, rfl, rfl, rfl⟩) fun _ =>
    Keeps.bind (Keeps.forIn_list fun _ _ => Keeps.bind Keeps.get fun _ =>
      Keeps.bind (hasOwn _ _) fun _ =>
        Keeps.ite _ (Keeps.bind (h.objPut hs ha hr _ _ _) fun _ => Keeps.pure _) (Keeps.pure _))
      fun _ => ha.modify fun _ => ⟨rfl, rfl, rfl, rfl⟩

omit hs in
theorem mount (s : ScopeId) (render : Closure) : Keeps I (Eff.mount r s render) := by
  refine Keeps.bind Keeps.get fun _ => ?_
  extract_lets rest
  have hrest : ∀ u, Keeps I (rest u) := fun _ =>
    Keeps.bind (h.create hr _ _ _ _ _) fun _ => Keeps.bind h.unhold fun _ =>
      ha.modify fun _ => ⟨rfl, rfl, rfl, rfl⟩
  split
  · exact Keeps.bind (h.teardown _) hrest
  · exact hrest ()

end Tables

section Scopes

variable (h : Stable I) (ha : Apart I)
include h ha

theorem newScope (name : String) (parent : Option ScopeId) (props : List (String × Value))
    (data : Value) : Keeps I (Eff.newScope name parent props data : Eff η ScopeId) := by
  unfold Eff.newScope
  refine Keeps.bind Keeps.get fun _ => ?_
  extract_lets s done
  have hdone : ∀ u, Keeps I (done u) := fun _ => Keeps.pure _
  refine Keeps.bind (ha.newObject _) fun propObj => Keeps.bind Keeps.get fun _ => ?_
  -- whichever object holds the data, the rest (`finish`) registers the scope the same way
  extract_lets wasObserving finish
  refine Keeps.bind (ha.modify fun _ => ⟨rfl, rfl, rfl, rfl⟩) fun _ =>
    Keeps.bind (Keeps.forIn_list fun _ _ => ?_) fun _ =>
    Keeps.bind (ha.modify fun _ => ⟨rfl, rfl, rfl, rfl⟩) fun _ => ?_
  · split
    exact Keeps.bind (h.toCore.defineReactive _ _ _ _ _) fun _ => Keeps.pure _
  have hfinish : ∀ o, Keeps I (finish o) := by
    intro o
    dsimp -zeta only [finish]
    refine Keeps.bind (objKeysUntracked _) fun _ => Keeps.bind (Keeps.forIn_list fun _ _ =>
      Keeps.bind (hasOwn _ _) fun _ =>
        Keeps.ite _ (Keeps.bind (h.warn _) fun _ => Keeps.pure _) (Keeps.pure _)) fun _ =>
      Keeps.bind (h.toCore.observe _ _) fun _ => ?_
    extract_lets cell
    refine Keeps.bind (ha.modify fun _ => ⟨rfl, rfl, rfl, rfl⟩) fun _ => ?_
    split
    · exact Keeps.bind (ha.modify fun _ => ⟨rfl, rfl, rfl, rfl⟩) hdone
    · exact hdone ()
  split
  · exact Keeps.bind (Keeps.pure _) hfinish
  · exact Keeps.bind (ha.newObject _) hfinish
  · exact Keeps.bind (h.warn _) fun _ => Keeps.bind (ha.newObject _) hfinish

theorem newComputed (scope : Option ScopeId) (name : String) (c : Closure) :
    Keeps I (Eff.newComputed scope name c : Eff η WatcherId) := by
  refine Keeps.bind (h.build _ _ _ _ _) fun w => ?_
  extract_lets done
  have hdone : ∀ u, Keeps I (done u) := fun _ => Keeps.pure _
  split
  · refine Keeps.bind Keeps.get fun _ => ?_
    dsimp only
    refine Keeps.bind (hasOwn _ _) fun _ => Keeps.ite _ (Keeps.bind (h.warn _) hdone) ?_
    refine Keeps.bind (hasOwn _ _) fun _ => Keeps.ite _ (Keeps.bind (h.warn _) hdone) ?_
    exact Keeps.bind (ha.modify fun _ => ⟨rfl, rfl, rfl, rfl⟩) fun _ => Keeps.bind h.release hdone
  · exact hdone ()

theorem destroyWith (fuel : Nat) (s : ScopeId) : Keeps I (Eff.destroyWith fuel s : Eff η Unit) := by
  induction fuel generalizing s with
  | zero => exact Keeps.halt _
  | succ fuel ih =>
    have hscope : ∀ t (f : ScopeCell → ScopeCell), Keeps I (Eff.modifyScope t f : Eff η Unit) :=
      fun _ _ => ha.modify fun _ => ⟨rfl, rfl, rfl, rfl⟩
    unfold Eff.destroyWith
    refine Keeps.bind Keeps.get fun _ => Keeps.ite _ (Keeps.pure _) ?_
    refine Keeps.bind (hscope _ _) fun _ => Keeps.bind Keeps.get fun _ => ?_
    -- after leaving its parent: children, then watchers, then the scope's own state
    extract_lets rest
    have hrest : ∀ u, Keeps I (rest u) := by
      intro u
      dsimp -zeta only [rest]
      refine Keeps.bind Keeps.get fun _ => ?_
      dsimp only
      refine Keeps.bind (hscope _ _) fun _ => Keeps.bind (Keeps.forIn_list fun _ _ =>
        Keeps.bind (ih _) fun _ => Keeps.pure _) fun _ => Keeps.bind Keeps.get fun _ => ?_
      refine Keeps.bind (hscope _ _) fun _ => Keeps.bind (Keeps.forIn_list fun _ _ =>
        Keeps.bind (h.teardown _) fun _ => Keeps.pure _) fun _ => Keeps.bind (hscope _ _) fun _ =>
        Keeps.bind Keeps.get fun _ => ?_
      exact Keeps.bind (h.object _ _) fun _ => hscope _ _
    split
    · exact Keeps.bind Keeps.get fun _ =>
        Keeps.ite _ (Keeps.bind (hscope _ _) hrest) (hrest ())
    · exact hrest ()

theorem destroy (s : ScopeId) : Keeps I (Eff.destroy s : Eff η Unit) :=
  Keeps.bind Keeps.get fun _ => Keeps.bind (h.destroyWith ha _ _) fun _ => h.toCore.released

end Scopes

end Stable

namespace Schedules

variable {I : Machine η → Prop} {r : Runner η} (hs : Schedules I r)
include hs

theorem forceUpdate (s : ScopeId) : Keeps I (Eff.forceUpdate r s) := by
  refine Keeps.bind Keeps.get fun _ => ?_
  split
  · exact hs.update _
  · exact Keeps.pure _

variable (ha : Apart I)
include ha

theorem cellSet (c : CellId) (v : CellValue) : Keeps I (Eff.cellSet r c v) :=
  Keeps.bind Keeps.get fun _ => Keeps.ite _ (Keeps.halt _) <| Keeps.ite _ (Keeps.pure _) <|
    Keeps.bind (ha.modify fun _ => ⟨rfl, rfl, rfl, rfl⟩) fun _ =>
      Keeps.bind (hs.notify _) fun _ => Keeps.pure _

theorem cellUpdate {f : CellValue → Eff η CellValue} (hf : ∀ v, Keeps I (f v)) (c : CellId) :
    Keeps I (Eff.cellUpdate r c f) :=
  Keeps.bind (ha.borrowing hf c) fun _ => hs.cellSet ha _ _

end Schedules

end Reactivity

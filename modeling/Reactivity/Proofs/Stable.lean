import Reactivity.Proofs.Triple
import Reactivity.Schedule

/-!
# Invariants that every primitive update keeps

`Stable I`: the invariant `I` survives each update the engine's tracking and evaluation are
built from: a recorded read, a reconciled evaluation, a torn-down or a new watcher, a change of
a watcher that leaves its reads alone, the tables of containers and properties, the anchors,
the tracking frames and the log. Reading, observing and traversing containers, routing
faults, and evaluating and running watchers are made of nothing else, so each of them keeps
`I` too, as soon as the host code they call keeps it. The scheduler's invariant and the
consistency of subscriptions are two instances.

Each derived lemma asks for no more than the updates it is made of: reading and traversing
containers and routing faults need `Stable.Base`, masked sections `Stable.Frames`, observing
`Stable.Heap`, evaluating `Stable.Evaluates`, and running and making watchers `Stable.Eval`,
which an invariant of the heap has although it fails `Stable`. An invariant of the watchers'
settings, such as the registry of scopes, has `Evaluates` but not `Eval`.
-/

namespace Reactivity

variable {η α : Type}

/-- What tracking records of a watcher: the sets read by its last evaluation and by the one
under way, and whether it is active and whether collection dropped it. -/
def WatcherCell.tracking (c : WatcherCell) : List DepId × List DepId × Bool × Bool :=
  (c.deps, c.newDeps, c.active, c.dropped)

/-- An update of a watcher that leaves what tracking records of it alone; its value, dirty mark
and settings may change. -/
def WatcherCell.Retains (f : WatcherCell → WatcherCell) : Prop := ∀ c, (f c).tracking = c.tracking

theorem Keeps.get_set_bind {I : Machine η → Prop} {β : Type} {g : Machine η → Machine η}
    {k : Machine η → PUnit → Eff η β} (h : ∀ m, I m → I (g m)) (hk : ∀ m u, Keeps I (k m u)) :
    Keeps I (MonadState.get >>= fun m => MonadState.set (g m) >>= k m) :=
  Keeps.bind_get fun m hm =>
    Triple.bind (Triple.set (g m) fun _ _ => h m hm : Triple (· = m) _ fun _ => I)
      (fun u => hk m u) fun _ _ h => h

namespace Stable

/-- `I` survives the updates that reading containers and routing faults are made of: a
recorded read, the anchors and the log. An invariant of the heap has this, since none of them
touches a container or a property, and so has one of the tracking context. -/
structure Base (I : Machine η → Prop) : Prop where
  depend : ∀ d, Keeps I (Eff.depend d)
  pin : ∀ a, Keeps I (Eff.pin a)
  release : Keeps I Eff.release
  settle : Keeps I Eff.settle
  unhold : Keeps I Eff.unhold
  report : ∀ e, Keeps I (Eff.report e)

/-- `I` survives, beyond `Base`, opening and closing tracking frames: all that masked
sections of host code, such as lifecycle hooks, are made of. -/
structure Frames (I : Machine η → Prop) : Prop extends Base I where
  enter : ∀ t, Keeps I (Eff.enter t)
  leave : Keeps I Eff.leave

/-- `I` survives, beyond `Frames`, the updates of the containers and properties and the
updates of tracking that change no watcher's value or settings: all that observing containers,
and reconciling, tearing down and making watchers, are made of. An invariant about what a
watcher holds can have this without `Stable`. -/
structure Core (I : Machine η → Prop) : Prop extends Frames I where
  reconcile : ∀ w, Keeps I (Eff.reconcile w)
  teardown : ∀ w, Keeps I (Eff.teardown w)
  build : ∀ scope getter callback o render, Keeps I (Eff.build scope getter callback o render)
  object : ∀ o f, Keeps I (Eff.modifyObject o f)
  list : ∀ l f, Keeps I (Eff.modifyList l f)
  newDep : Keeps I Eff.newDep
  newProp : ∀ p, Keeps I (Eff.newProp p)

/-- `I` survives, beyond `Frames`, every update that evaluating, running and making watchers
are made of: a reconciled evaluation, a torn-down or a new watcher, a change of a watcher that
leaves its reads alone, and a new dependency set. Evaluation writes no container itself, so
an invariant of the heap has this too. -/
structure Eval (I : Machine η → Prop) : Prop extends Frames I where
  reconcile : ∀ w, Keeps I (Eff.reconcile w)
  teardown : ∀ w, Keeps I (Eff.teardown w)
  build : ∀ scope getter callback o render, Keeps I (Eff.build scope getter callback o render)
  watcher : ∀ w f, WatcherCell.Retains f → Keeps I (Eff.modifyWatcher w f)
  newDep : Keeps I Eff.newDep

/-- `I` survives the updates of the heap that observing containers is made of. -/
structure Heap (I : Machine η → Prop) : Prop where
  object : ∀ o f, Keeps I (Eff.modifyObject o f)
  list : ∀ l f, Keeps I (Eff.modifyList l f)
  newDep : Keeps I Eff.newDep
  newProp : ∀ p, Keeps I (Eff.newProp p)

/-- `I` survives, beyond `Frames`, what evaluating a watcher is made of: reconciling reads and
caching a computed value. An invariant of the watchers' settings can have this without
`Eval`. -/
structure Evaluates (I : Machine η → Prop) : Prop extends Frames I where
  reconcile : ∀ w, Keeps I (Eff.reconcile w)
  cache : ∀ w v, Keeps I (Eff.modifyWatcher w fun c => { c with value := v, dirty := false })

theorem Core.toHeap {I : Machine η → Prop} (h : Core I) : Heap I :=
  ⟨h.object, h.list, h.newDep, h.newProp⟩

theorem Eval.toEvaluates {I : Machine η → Prop} (h : Eval I) : Evaluates I :=
  ⟨h.toFrames, h.reconcile, fun w _ => h.watcher w _ fun _ => rfl⟩

end Stable

/-- `I` survives every primitive update of tracking and evaluation. -/
structure Stable (I : Machine η → Prop) : Prop extends Stable.Core I, Stable.Eval I

namespace Stable

variable {I : Machine η → Prop}

/-! ## Reads of the state alone -/

theorem target : Keeps I (Eff.target : Eff η (Option WatcherId)) :=
  Keeps.bind Keeps.get fun _ => Keeps.pure _

theorem containerCount : Keeps I (Eff.containerCount : Eff η Nat) :=
  Keeps.bind Keeps.get fun _ => Keeps.pure _

theorem slot? (o : ObjRef) (key : String) : Keeps I (Eff.slot? o key : Eff η (Option Slot)) :=
  Keeps.bind Keeps.get fun _ => Keeps.pure _

theorem objPeek (o : ObjRef) (key : String) : Keeps I (Eff.objPeek o key : Eff η Value) := by
  refine Keeps.bind (slot? o key) fun s => ?_
  split
  · exact Keeps.pure _
  · exact Keeps.bind Keeps.get fun _ => Keeps.pure _
  · exact Keeps.pure _

theorem objKeysUntracked (o : ObjRef) :
    Keeps I (Eff.objKeysUntracked o : Eff η (List String)) :=
  Keeps.bind Keeps.get fun _ => Keeps.pure _

theorem hasOwn (o : ObjRef) (key : String) : Keeps I (Eff.hasOwn o key : Eff η Bool) :=
  Keeps.bind Keeps.get fun _ => Keeps.pure _

theorem isTracked (o : ObjRef) (key : String) : Keeps I (Eff.isTracked o key : Eff η Bool) := by
  refine Keeps.bind (slot? o key) fun s => ?_
  split
  · exact Keeps.pure _
  · exact Keeps.pure _

theorem itemsUntracked (l : ListRef) : Keeps I (Eff.itemsUntracked l : Eff η (List Value)) :=
  Keeps.bind Keeps.get fun _ => Keeps.pure _

namespace Base

variable (h : Base I)
include h

/-! ## Recorded reads -/

theorem released : Keeps I (Eff.released : Eff η Unit) :=
  Keeps.bind h.release fun _ => h.settle

theorem dependItems (fuel : Nat) (l : ListRef) : Keeps I (Eff.dependItems fuel l : Eff η Unit) := by
  induction fuel generalizing l with
  | zero => exact Keeps.halt _
  | succ fuel ih =>
    refine Keeps.bind Keeps.get fun m => Keeps.bind (Keeps.forIn_list fun item _ => ?_)
      fun _ => Keeps.pure _
    split
    · refine Keeps.bind Keeps.get fun _ => ?_
      split
      · exact Keeps.bind (h.depend _) fun _ => Keeps.pure _
      · exact Keeps.pure _
    · refine Keeps.bind Keeps.get fun _ => ?_
      dsimp only
      split
      · exact Keeps.bind (h.depend _) fun _ => Keeps.bind (ih _) fun _ => Keeps.pure _
      · exact Keeps.bind (ih _) fun _ => Keeps.pure _
    · exact Keeps.pure _

theorem dependList (l : ListRef) : Keeps I (Eff.dependList l : Eff η Unit) :=
  Keeps.bind containerCount fun n => h.dependItems n l

theorem propGet (p : PropId) : Keeps I (Eff.propGet p : Eff η Value) := by
  refine Keeps.bind Keeps.get fun m => ?_
  dsimp only
  refine Keeps.ite _ (Keeps.bind (h.depend _) fun _ => ?_) (Keeps.pure _)
  split
  · refine Keeps.bind (h.depend _) fun _ => ?_
    split
    · exact Keeps.bind (h.dependList _) fun _ => Keeps.pure _
    · exact Keeps.pure _
  · exact Keeps.pure _

theorem trackObject (o : ObjRef) : Keeps I (Eff.trackObject o : Eff η Unit) := by
  refine Keeps.bind Keeps.get fun m => Keeps.ite _ ?_ (Keeps.pure _)
  split
  · exact h.depend _
  · exact Keeps.pure _

theorem objGet (o : ObjRef) (key : String) : Keeps I (Eff.objGet o key : Eff η Value) := by
  refine Keeps.bind (slot? o key) fun s => ?_
  split
  · exact Keeps.pure _
  · exact h.propGet _
  · exact Keeps.pure _

theorem objKeys (o : ObjRef) : Keeps I (Eff.objKeys o : Eff η (List String)) :=
  Keeps.bind (h.trackObject o) fun _ => objKeysUntracked o

theorem objHas (o : ObjRef) (key : String) : Keeps I (Eff.objHas o key : Eff η Bool) :=
  Keeps.bind (h.trackObject o) fun _ => hasOwn o key

theorem objSize (o : ObjRef) : Keeps I (Eff.objSize o : Eff η Nat) :=
  Keeps.bind (h.trackObject o) fun _ => Keeps.bind Keeps.get fun _ => Keeps.pure _

theorem trackList (l : ListRef) : Keeps I (Eff.trackList l : Eff η Unit) := by
  refine Keeps.bind Keeps.get fun m => ?_
  split
  · exact Keeps.pure _
  · dsimp only
    split
    · exact Keeps.ite _ (Keeps.pure _) (Keeps.bind (h.depend _) fun _ => h.dependList l)
    · exact h.dependList l

theorem listItems (l : ListRef) : Keeps I (Eff.listItems l : Eff η (List Value)) :=
  Keeps.bind (h.trackList l) fun _ => itemsUntracked l

theorem listSize (l : ListRef) : Keeps I (Eff.listSize l : Eff η Nat) :=
  Keeps.bind (h.trackList l) fun _ => Keeps.bind Keeps.get fun _ => Keeps.pure _

theorem listGet (l : ListRef) (i : Nat) : Keeps I (Eff.listGet l i : Eff η Value) :=
  Keeps.bind (h.trackList l) fun _ => Keeps.bind Keeps.get fun _ => Keeps.pure _

theorem member (v : Value) (key : String) : Keeps I (Eff.member v key : Eff η Value) := by
  unfold Eff.member
  split
  · exact h.objGet _ _
  · split
    · exact h.listGet _ _
    · exact Keeps.pure _
  · exact Keeps.pure _

theorem dependOn (w : WatcherId) : Keeps I (Eff.dependOn w : Eff η Unit) :=
  Keeps.bind Keeps.get fun _ => Keeps.bind (Keeps.forIn_list fun _ _ =>
    Keeps.bind (h.depend _) fun _ => Keeps.pure _) fun _ => Keeps.pure _

theorem unhandled (err : Fault) (info : String) : Keeps I (Eff.unhandled err info : Eff η Unit) :=
  Keeps.bind Keeps.get fun _ => Keeps.ite _ (h.report _) (h.report _)

/-! ## Traversing containers -/

theorem visit (fuel : Nat) (seen : List Value) (v : Value) :
    Keeps I (Eff.visit fuel seen v : Eff η (List Value)) := by
  induction fuel generalizing seen v with
  | zero => exact Keeps.halt _
  | succ fuel ih =>
    unfold Eff.visit
    split
    · refine Keeps.bind Keeps.get fun _ => Keeps.ite _ (Keeps.pure _) ?_
      exact Keeps.bind (h.objKeys _) fun _ => Keeps.bind (Keeps.forIn_list fun _ _ =>
        Keeps.bind (h.objGet _ _) fun _ => Keeps.bind (ih _ _) fun _ => Keeps.pure _)
        fun _ => Keeps.pure _
    · refine Keeps.bind Keeps.get fun _ => Keeps.ite _ (Keeps.pure _) ?_
      exact Keeps.bind (h.listItems _) fun _ => Keeps.bind (Keeps.forIn_list fun _ _ =>
        Keeps.bind (ih _ _) fun _ => Keeps.pure _) fun _ => Keeps.pure _
    · exact Keeps.pure _

theorem traverse (v : Value) : Keeps I (Eff.traverse v : Eff η Unit) :=
  Keeps.bind containerCount fun _ => Keeps.bind (h.visit _ [] v) fun _ => Keeps.pure _

/-! ## Host code, asked only for the calls these make

Hooks run with no arguments, and fault handlers with the fault; only those calls need to keep
`I`, so an invariant that a callback call breaks for a while can use these. -/

section Host

variable {r : Runner η}

omit h in
theorem perform (hr : ∀ c, Keeps I (r.invoke c .none)) (c : Closure) : Keeps I (Eff.perform r c) :=
  Keeps.bind (Keeps.attempt (hr _)) fun _ => Keeps.pure _

omit h in
theorem captureAt (hr : ∀ c msg kind info, Keeps I (r.invoke c (.fault msg kind info)))
    (hooks : List Closure) (err : Fault) (info : String) :
    Keeps I (Eff.captureAt r hooks err info) := by
  refine Keeps.bind (Keeps.forIn_list fun _ _ =>
    Keeps.bind (Keeps.attempt (hr _ _ _ _)) fun res => ?_) fun res => ?_
  · split
    · exact Keeps.pure _
    · exact Keeps.pure _
  · dsimp only
    split
    · exact Keeps.pure _
    · exact Keeps.pure _

theorem handleError (hr : ∀ c msg kind info, Keeps I (r.invoke c (.fault msg kind info)))
    (err : Fault) (scope : Option ScopeId) (info : String) :
    Keeps I (Eff.handleError r err scope info) := by
  refine Keeps.bind Keeps.get fun m => Keeps.bind (Keeps.forIn_range fun _ _ => ?_) fun res => ?_
  · dsimp only
    split
    · exact Keeps.pure _
    · refine Keeps.bind (h.pin _) fun _ => Keeps.bind Keeps.get fun _ =>
        Keeps.bind (captureAt hr _ _ _) fun _ => Keeps.bind h.unhold fun _ => ?_
      exact Keeps.ite _ (Keeps.pure _) (Keeps.bind Keeps.get fun _ => Keeps.pure _)
  · dsimp only
    split
    · exact Keeps.pure _
    · exact h.unhandled _ _

end Host

end Base

namespace Frames

variable (h : Frames I)
include h

/-! ## Masked frames -/

theorem untracked {x : Eff η α} (hx : Keeps I x) : Keeps I (Eff.untracked x) := by
  refine Keeps.bind (h.enter _) fun _ => Keeps.bind (Keeps.attempt hx) fun r =>
    Keeps.bind h.leave fun _ => ?_
  cases r with
  | ok v => exact Keeps.pure v
  | error e => exact Keeps.fault e

/-- What `x` needs of the state before it, it gets inside a masked frame if entering the frame
keeps that; `I` need not hold before. -/
theorem untracked_triple {x : Eff η α} {P : Machine η → Prop}
    (hpre : ∀ s, P s → P { s with context := none :: s.context }) (hx : Triple P x fun _ => I) :
    Triple P (Eff.untracked x) fun _ => I := by
  unfold Eff.untracked
  refine Triple.bind_ok (Triple.modify _ fun s hs => ⟨(), rfl, hpre s hs⟩ :
    Triple P (Eff.enter none) fun r s => ∃ a, r = .ok a ∧ P s) fun _ => ?_
  refine Triple.bind (Triple.attempt hx : Triple P (Eff.attempt x) fun _ => I)
    (fun res => Keeps.bind h.leave fun _ => ?_) fun _ _ h => h
  cases res with
  | ok v => exact Keeps.pure v
  | error e => exact Keeps.fault e

theorem callHooks {r : Runner η} (hr : ∀ c, Keeps I (r.invoke c .none)) (hooks : List Closure) :
    Keeps I (Eff.callHooks r hooks) :=
  h.untracked (Keeps.forM_list fun c => Base.perform hr c)

end Frames

namespace Heap

variable (h : Heap I)
include h

/-! ## Observing containers -/

theorem bumpRoot (v : Value) : Keeps I (Eff.bumpRoot v : Eff η Unit) := by
  unfold Eff.bumpRoot
  split
  · exact h.object _ _
  · exact h.list _ _
  · exact Keeps.pure _

/-- Observing and defining tracked properties, one induction on the shared fuel. -/
theorem observeWith (fuel : Nat) :
    (∀ v asRoot, Keeps I (Eff.observeWith fuel v asRoot : Eff η (Option DepId))) ∧
    ∀ o key v hook shallow, Keeps I (Eff.defineWith fuel o key v hook shallow : Eff η Unit) := by
  induction fuel with
  | zero => exact ⟨fun _ _ => Keeps.halt _, fun _ _ _ _ _ => Keeps.halt _⟩
  | succ fuel ih =>
    refine ⟨fun v asRoot => ?_, fun o key v hook shallow => ?_⟩
    · unfold Eff.observeWith
      -- every branch ends in the same join point: bump the root count, return the set
      have hjp := fun r : Option DepId => Keeps.ite ((asRoot && r.isSome) = true)
        (Keeps.bind (h.bumpRoot v) fun _ => Keeps.pure r) (Keeps.pure (I := I) r)
      dsimp only
      split
      · refine Keeps.bind Keeps.get fun m => ?_
        split
        · exact Keeps.bind (Keeps.pure _) hjp
        · refine Keeps.ite _ ?_ (Keeps.bind (Keeps.pure _) hjp)
          exact Keeps.bind h.newDep fun d => Keeps.bind (h.object _ _) fun _ =>
            Keeps.bind (objKeysUntracked _) fun keys => Keeps.bind (Keeps.forIn_list
              fun key _ => Keeps.bind (objPeek _ _) fun _ =>
                Keeps.bind (ih.2 _ _ _ _ _) fun _ => Keeps.pure _) fun _ =>
              Keeps.bind (Keeps.pure _) hjp
      · refine Keeps.bind Keeps.get fun m => ?_
        split
        · exact Keeps.bind (Keeps.pure _) hjp
        · refine Keeps.ite _ ?_ (Keeps.bind (Keeps.pure _) hjp)
          exact Keeps.bind h.newDep fun d => Keeps.bind (h.list _ _) fun _ =>
            Keeps.bind (itemsUntracked _) fun items => Keeps.bind (Keeps.forIn_list
              fun item _ => Keeps.bind (ih.1 _ _) fun _ => Keeps.pure _) fun _ =>
              Keeps.bind (Keeps.pure _) hjp
      · exact Keeps.bind (Keeps.pure _) hjp
    · unfold Eff.defineWith
      have hrest : ∀ dep child, Keeps I (do
          let p ← Eff.newProp ⟨v, dep, child, shallow, hook⟩
          Eff.install o key (.tracked p) : Eff η Unit) := fun _ _ =>
        Keeps.bind (h.newProp _) fun _ => h.object _ _
      -- the property's set is settled first; the rest runs the same for either
      have hjp := fun dep => Keeps.ite (shallow = true) (Keeps.bind (Keeps.pure none) (hrest dep))
        (Keeps.bind (ih.1 v false) (hrest dep))
      refine Keeps.bind (slot? o key) fun s => ?_
      dsimp only
      split
      · exact Keeps.bind Keeps.get fun _ => Keeps.bind (Keeps.pure _) hjp
      · exact Keeps.bind h.newDep hjp

theorem observe (v : Value) (asRoot : Bool) :
    Keeps I (Eff.observe v asRoot : Eff η (Option DepId)) :=
  Keeps.bind containerCount fun _ => (h.observeWith _).1 v asRoot

theorem defineReactive (o : ObjRef) (key : String) (v : Value) (hook : Option AssignHook)
    (shallow : Bool) : Keeps I (Eff.defineReactive o key v hook shallow : Eff η Unit) :=
  Keeps.bind containerCount fun _ => (h.observeWith _).2 o key v hook shallow

end Heap

namespace Core

variable (h : Core I)
include h

theorem bumpRoot (v : Value) : Keeps I (Eff.bumpRoot v : Eff η Unit) :=
  h.toHeap.bumpRoot v

theorem observeWith (fuel : Nat) :
    (∀ v asRoot, Keeps I (Eff.observeWith fuel v asRoot : Eff η (Option DepId))) ∧
    ∀ o key v hook shallow, Keeps I (Eff.defineWith fuel o key v hook shallow : Eff η Unit) :=
  h.toHeap.observeWith fuel

theorem observe (v : Value) (asRoot : Bool) :
    Keeps I (Eff.observe v asRoot : Eff η (Option DepId)) :=
  h.toHeap.observe v asRoot

theorem defineReactive (o : ObjRef) (key : String) (v : Value) (hook : Option AssignHook)
    (shallow : Bool) : Keeps I (Eff.defineReactive o key v hook shallow : Eff η Unit) :=
  h.toHeap.defineReactive o key v hook shallow

end Core

/-! ## Host code, error routing and evaluation

From here on host code runs: it keeps `I` by assumption, and so does everything that calls it. -/

section Host

variable {r : Runner η} (hr : ∀ c a, Keeps I (r.invoke c a))
include hr

theorem perform (c : Closure) : Keeps I (Eff.perform r c) :=
  Base.perform (fun c => hr c _) c

theorem captureAt (hooks : List Closure) (err : Fault) (info : String) :
    Keeps I (Eff.captureAt r hooks err info) :=
  Base.captureAt (fun c _ _ _ => hr c _) hooks err info

namespace Evaluates

variable (h : Evaluates I)
include h

/-- Evaluating a watcher, and each getter, name and computed value it reads on the way, one
induction on the shared fuel. -/
theorem evaluateWith (fuel : Nat) :
    (∀ w, Keeps I (Eff.evaluateWith r fuel w)) ∧
    (∀ g s, Keeps I (Eff.getterValue r fuel g s)) ∧
    (∀ s name, Keeps I (Eff.lookupWith r fuel s name)) ∧
    ∀ w, Keeps I (Eff.computedWith r fuel w) := by
  induction fuel with
  | zero =>
    exact ⟨fun _ => Keeps.halt _, fun _ _ => Keeps.halt _, fun _ _ => Keeps.halt _,
      fun _ => Keeps.halt _⟩
  | succ fuel ih =>
    obtain ⟨heval, hget, hlook, hcomp⟩ := ih
    refine ⟨fun w => ?_, fun g s => ?_, fun s name => ?_, fun w => ?_⟩
    · unfold Eff.evaluateWith
      refine Keeps.bind Keeps.get fun m => ?_
      extract_lets cell scope tail body
      -- the tail closes the frame, reconciles and hands the result back
      have htail : ∀ res, Keeps I (tail res) := by
        intro res
        dsimp -zeta only [tail]
        extract_lets finish close
        have hfinish : ∀ u, Keeps I (finish u) := by
          intro u
          dsimp -zeta only [finish]
          split
          · exact Keeps.pure _
          · exact Keeps.fault _
        have hclose : ∀ u, Keeps I (close u) := fun _ =>
          Keeps.bind h.leave fun _ => Keeps.bind (h.reconcile w) fun _ =>
            Keeps.ite _ (Keeps.bind h.unhold hfinish) (hfinish ())
        refine Keeps.ite _ ?_ (hclose ())
        split
        · exact Keeps.bind (h.traverse _) hclose
        · exact hclose ()
      have hbody : ∀ u, Keeps I (body u) := by
        intro u
        dsimp -zeta only [body]
        refine Keeps.bind (h.enter _) fun _ => Keeps.bind (Keeps.attempt (hget _ _)) fun res => ?_
        split
        · exact Keeps.ite _ (Keeps.bind (h.toBase.handleError (fun c _ _ _ => hr c _) _ _ _) fun _ =>
            Keeps.bind (Keeps.pure _) htail) (Keeps.bind (Keeps.pure _) htail)
        · exact Keeps.bind (Keeps.pure _) htail
      dsimp -zeta only [scope]
      split
      · exact Keeps.bind (h.pin _) hbody
      · exact hbody ()
    · unfold Eff.getterValue
      split
      · exact hr _ _
      · exact Keeps.bind (hr _ _) fun _ => Keeps.pure _
      · exact Keeps.pure _
      · split
        · exact Keeps.pure _
        · exact Keeps.pure _
        · exact Keeps.bind (hlook _ _) fun _ => Keeps.bind (Keeps.forIn_list fun _ _ =>
            Keeps.bind (h.member _ _) fun _ => Keeps.pure _) fun _ => Keeps.pure _
    · unfold Eff.lookupWith
      refine Keeps.bind Keeps.get fun _ => Keeps.bind (hasOwn _ _) fun _ => ?_
      refine Keeps.ite _ (h.objGet _ _) ?_
      refine Keeps.bind (hasOwn _ _) fun _ => Keeps.ite _ (h.objGet _ _) ?_
      split
      · exact hcomp _
      · exact Keeps.pure _
    · unfold Eff.computedWith
      refine Keeps.bind Keeps.get fun _ => ?_
      extract_lets value read
      have hvalue : ∀ u, Keeps I (value u) := fun _ =>
        Keeps.bind Keeps.get fun _ => Keeps.pure _
      have hread : ∀ u, Keeps I (read u) := fun _ =>
        Keeps.bind target fun _ => Keeps.ite _ (Keeps.bind (h.dependOn w) hvalue) (hvalue ())
      exact Keeps.ite _ (Keeps.bind (heval w) fun _ =>
        Keeps.bind (h.cache _ _) hread) (hread ())

theorem evaluate (w : WatcherId) : Keeps I (Eff.evaluate r w) :=
  (h.evaluateWith hr _).1 w

end Evaluates

namespace Eval

variable (h : Eval I)
include h

theorem callHooks (hooks : List Closure) : Keeps I (Eff.callHooks r hooks) :=
  h.toFrames.callHooks (fun c => hr c _) hooks

theorem handleError (err : Fault) (scope : Option ScopeId) (info : String) :
    Keeps I (Eff.handleError r err scope info) :=
  h.toBase.handleError (fun c _ _ _ => hr c _) err scope info

/-- Evaluating a watcher, and each getter, name and computed value it reads on the way. -/
theorem evaluateWith (fuel : Nat) :
    (∀ w, Keeps I (Eff.evaluateWith r fuel w)) ∧
    (∀ g s, Keeps I (Eff.getterValue r fuel g s)) ∧
    (∀ s name, Keeps I (Eff.lookupWith r fuel s name)) ∧
    ∀ w, Keeps I (Eff.computedWith r fuel w) :=
  h.toEvaluates.evaluateWith hr fuel

theorem evaluate (w : WatcherId) : Keeps I (Eff.evaluate r w) :=
  (h.evaluateWith hr _).1 w

theorem lookup (s : ScopeId) (name : String) : Keeps I (Eff.lookup r s name) :=
  (h.evaluateWith hr _).2.2.1 s name

theorem computedGet (w : WatcherId) : Keeps I (Eff.computedGet r w) :=
  (h.evaluateWith hr _).2.2.2 w

theorem refresh (w : WatcherId) : Keeps I (Eff.refresh r w) :=
  Keeps.bind (h.evaluate hr w) fun _ => h.watcher _ _ fun _ => rfl

theorem run (w : WatcherId) : Keeps I (Eff.run r w) := by
  refine Keeps.bind Keeps.get fun _ => Keeps.ite _ (Keeps.pure _) ?_
  refine Keeps.bind (h.evaluate hr w) fun _ => Keeps.bind Keeps.get fun _ =>
    Keeps.ite _ (Keeps.pure _) (Keeps.bind (h.watcher _ _ fun _ => rfl) fun _ => ?_)
  split
  · exact Keeps.pure _
  · refine Keeps.bind (Keeps.attempt (h.untracked (hr _ _))) fun res => ?_
    split
    · exact Keeps.pure _
    · exact Keeps.ite _ (Keeps.bind Keeps.get fun _ => h.handleError hr _ _ _) (Keeps.fault _)

theorem create (scope : Option ScopeId) (getter : Getter) (callback : Option Closure)
    (o : Eff.WatcherOptions) (render : Bool) :
    Keeps I (Eff.create r scope getter callback o render) := by
  refine Keeps.bind (h.build _ _ _ _ _) fun w => Keeps.bind (h.pin _) fun _ => ?_
  dsimp only
  split
  · refine Keeps.bind (Keeps.attempt (h.evaluate hr w)) fun res => ?_
    split
    · exact Keeps.bind (h.watcher _ _ fun _ => rfl) fun _ => Keeps.pure w
    · exact Keeps.bind (h.teardown w) fun _ => Keeps.bind h.release fun _ =>
        Keeps.bind h.unhold fun _ => Keeps.fault _
  · exact Keeps.pure w

theorem before (w : WatcherId) : Keeps I (Eff.before r w) := by
  refine Keeps.bind Keeps.get fun _ => ?_
  split
  · exact Keeps.pure _
  · exact perform hr _
  · refine Keeps.bind Keeps.get fun _ => ?_
    split
    · exact Keeps.ite _ (Keeps.bind (h.pin _) fun _ =>
        Keeps.bind (h.callHooks hr _) fun _ => h.unhold) (Keeps.pure _)
    · exact Keeps.pure _

theorem afterRender (w : WatcherId) : Keeps I (Eff.afterRender r w) := by
  refine Keeps.bind Keeps.get fun _ => ?_
  split
  · exact Keeps.ite _ (Keeps.bind (h.pin _) fun _ =>
      Keeps.bind (h.callHooks hr _) fun _ => h.unhold) (Keeps.pure _)
  · exact Keeps.pure _

end Eval

end Host

end Stable

end Reactivity

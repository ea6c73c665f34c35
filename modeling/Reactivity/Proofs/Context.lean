import Reactivity.Proofs.Stable
import Reactivity.Proofs.Host
import Reactivity.Proofs.Subscribed

/-!
# The tracking context across an evaluation

An evaluation opens a tracking frame for its watcher and closes it before it hands back its
value or its fault, so it leaves the tracking context as it found it, whatever its getter reads
on the way, as long as host code does the same (`Runner.Balanced`). Nested evaluations of
computed values open and close frames of their own (`Stable.evaluateWith_context`).

Collection changes only the watchers, the dependency sets and the scopes
(`Machine.collect_eq`). An invariant that looks past those, the holds of operations and the log
(`OffTables`) survives every update of `Stable.Base`, and of `Stable.Eval` if it looks past the
tracking context too; the tracking context is one, and so is the heap of containers and
properties.
-/

namespace Reactivity

variable {η α : Type}

namespace Machine

theorem dropWatcher_eq (m : Machine η) (w : WatcherId) :
    ∃ ws ds, ds.size = m.deps.size ∧ m.dropWatcher w = { m with watchers := ws, deps := ds } := by
  suffices h : ∀ (xs : List DepId) (s : Machine η), (∃ ds, s = { m with deps := ds }) →
      ∃ ds, xs.foldl (fun s d => s.unsubscribe d w) s = { m with deps := ds } by
    have hsize := foldl_unsubscribe_size (w := w) ((m.watcher w).deps ++ (m.watcher w).newDeps) m
    obtain ⟨ds, hds⟩ := h ((m.watcher w).deps ++ (m.watcher w).newDeps) m ⟨m.deps, rfl⟩
    rw [hds] at hsize
    unfold dropWatcher
    dsimp only
    rw [hds]
    exact ⟨_, ds, hsize, rfl⟩
  intro xs
  induction xs with
  | nil => exact fun s hs => hs
  | cons d xs ih =>
    rintro s ⟨ds, rfl⟩
    exact ih _ ⟨_, rfl⟩

/-- Collection changes only the watchers, the dependency sets and the scopes, and keeps the
number of sets. -/
theorem collect_eq (m : Machine η) :
    ∃ ws ds ss, ds.size = m.deps.size ∧
      m.collect = { m with watchers := ws, deps := ds, scopes := ss } := by
  refine collect_inv (fun s => ∃ ws ds ss, ds.size = m.deps.size ∧
      s = { m with watchers := ws, deps := ds, scopes := ss })
    ⟨m.watchers, m.deps, m.scopes, rfl, rfl⟩ (fun s i hs => ?_) fun s i hs => ?_
  · obtain ⟨ws, ds, ss, hsize, rfl⟩ := hs
    exact ⟨ws, ds, _, hsize, rfl⟩
  · obtain ⟨ws, ds, ss, hsize, rfl⟩ := hs
    obtain ⟨ws', ds', hsize', h⟩ :=
      dropWatcher_eq { m with watchers := ws, deps := ds, scopes := ss } ⟨i⟩
    exact ⟨ws', ds', ss, hsize'.trans hsize, h⟩

end Machine

/-- `I` looks past the tracking tables, the scopes, the holds of operations, the pending
collection and the log, and asks of the table of dependency sets only that it does not shrink.
The tracking context, the heap of containers and properties, and what the heap refers to, are
such. -/
def OffTables (I : Machine η → Prop) : Prop :=
  ∀ m ws ds ss ps u lg, m.deps.size ≤ ds.size → I m →
    I { m with watchers := ws, deps := ds, scopes := ss, pins := ps, unheld := u, log := lg }

namespace OffTables

variable {I : Machine η → Prop} (hI : OffTables I)
include hI

theorem watchers {m : Machine η} (ws : Array WatcherCell) (hm : I m) :
    I { m with watchers := ws } :=
  hI m ws m.deps m.scopes m.pins m.unheld m.log le_rfl hm

theorem deps {m : Machine η} {ds : Array DepCell} (hs : m.deps.size ≤ ds.size) (hm : I m) :
    I { m with deps := ds } :=
  hI m m.watchers ds m.scopes m.pins m.unheld m.log hs hm

theorem scopes {m : Machine η} (ss : Array ScopeCell) (hm : I m) : I { m with scopes := ss } :=
  hI m m.watchers m.deps ss m.pins m.unheld m.log le_rfl hm

theorem settle : Keeps I (Eff.settle : Eff η Unit) := by
  refine Keeps.modify fun m hm => ?_
  split
  · obtain ⟨ws, ds, ss, hsize, hc⟩ := m.collect_eq
    rw [hc]
    exact hI m ws ds ss m.pins _ m.log hsize.ge hm
  · exact hm

theorem removeSub (d : DepId) (w : WatcherId) : Keeps I (Eff.removeSub d w : Eff η Unit) :=
  Keeps.modify fun _ hm => hI.deps Array.size_modify.ge hm

theorem modifyWatcher (w : WatcherId) (f : WatcherCell → WatcherCell) :
    Keeps I (Eff.modifyWatcher w f : Eff η Unit) :=
  Keeps.modify fun _ hm => hI.watchers _ hm

theorem released : Keeps I (Eff.released : Eff η Unit) :=
  Keeps.bind (Keeps.modify fun m hm => hI m m.watchers m.deps m.scopes m.pins _ m.log le_rfl hm)
    fun _ => hI.settle

theorem base : Stable.Base I := by
  refine ⟨fun d => ?_, fun _ => Keeps.modify fun m hm =>
      hI m m.watchers m.deps m.scopes _ m.unheld m.log le_rfl hm,
    Keeps.modify fun m hm => hI m m.watchers m.deps m.scopes m.pins _ m.log le_rfl hm, hI.settle,
    Keeps.bind (Keeps.modify fun m hm => hI m m.watchers m.deps m.scopes _ m.unheld m.log le_rfl hm)
      fun _ => hI.settle,
    fun _ => Keeps.modify fun m hm => hI m m.watchers m.deps m.scopes m.pins m.unheld _ le_rfl hm⟩
  refine Keeps.bind Keeps.get fun m => ?_
  split
  · exact Keeps.pure _
  · refine Keeps.ite _ (Keeps.bind (hI.modifyWatcher _ _) fun _ => ?_) (Keeps.pure _)
    exact Keeps.ite _ (Keeps.modify fun _ hm => hI.deps Array.size_modify.ge hm) (Keeps.pure _)

theorem eval (hc : ∀ m c, I m → I { m with context := c }) : Stable.Eval I := by
  have hreconcile : ∀ w, Keeps I (Eff.reconcile w) := fun w =>
    Keeps.bind Keeps.get fun _ => Keeps.bind (Keeps.forIn_list fun _ _ =>
      Keeps.ite _ (Keeps.bind (hI.removeSub _ _) fun _ => Keeps.pure _) (Keeps.pure _))
      fun _ => hI.modifyWatcher _ _
  have hscope : ∀ s (f : ScopeCell → ScopeCell), Keeps I (Eff.modifyScope s f : Eff η Unit) :=
    fun _ _ => Keeps.modify fun _ hm => hI.scopes _ hm
  have hrelease : Keeps I (Eff.release : Eff η Unit) :=
    Keeps.modify fun m hm => hI m m.watchers m.deps m.scopes m.pins _ m.log le_rfl hm
  have hteardown : ∀ w, Keeps I (Eff.teardown w) := by
    intro w
    have hrest : Keeps I (do
        for d in ((← MonadState.get).watcher w).deps do Eff.removeSub d w
        Eff.modifyWatcher w fun c => { c with deps := [], active := false } : Eff η Unit) :=
      Keeps.bind Keeps.get fun _ => Keeps.bind (Keeps.forIn_list fun _ _ =>
        Keeps.bind (hI.removeSub _ _) fun _ => Keeps.pure _) fun _ => hI.modifyWatcher _ _
    refine Keeps.bind Keeps.get fun m => Keeps.ite _ (Keeps.pure _) ?_
    dsimp only
    split
    · split
      · exact Keeps.bind (Keeps.bind (hscope _ _) fun _ => hI.released) fun _ => hrest
      · exact hrest
    · exact hrest
  have hbuild : ∀ scope getter callback o render,
      Keeps I (Eff.build scope getter callback o render) := by
    intro scope getter callback o render
    refine Keeps.get_set_bind (fun _ hm => hI.watchers _ hm) fun _ _ => ?_
    dsimp only
    split
    · split
      · exact Keeps.bind (hscope _ _) fun _ => Keeps.bind hrelease fun _ =>
          Keeps.bind (hscope _ _) fun _ => Keeps.pure _
      · exact Keeps.bind (hscope _ _) fun _ => Keeps.pure _
    · exact Keeps.pure _
  refine ⟨⟨hI.base, fun _ => Keeps.modify fun m hm => hc m _ hm,
    Keeps.bind (Keeps.modify fun m hm => hc m _ hm) fun _ => hI.settle⟩, hreconcile, hteardown,
    hbuild, fun w f _ => hI.modifyWatcher w f, ?_⟩
  exact Keeps.get_set_bind (fun m hm => hI.deps (by simp) hm) fun _ _ => Keeps.pure _

end OffTables

namespace Stable

theorem context_base (K : List (Option WatcherId)) :
    Base (fun m : Machine η => m.context = K) :=
  OffTables.base fun _ _ _ _ _ _ _ _ h => h

end Stable

namespace Eff

/-! ## Reads and reconciling end without a fault -/

theorem depend_noFault (d : DepId) : NoFault (depend d : Eff η Unit) := by
  refine NoFault.bind NoFault.get fun m => ?_
  split
  · exact NoFault.pure _
  · exact NoFault.ite _ (NoFault.bind (NoFault.modify _) fun _ =>
      NoFault.ite _ (NoFault.modify _) (NoFault.pure _)) (NoFault.pure _)

theorem dependItems_noFault (fuel : Nat) (l : ListRef) :
    NoFault (dependItems fuel l : Eff η Unit) := by
  induction fuel generalizing l with
  | zero => exact NoFault.halt _
  | succ fuel ih =>
    refine NoFault.bind NoFault.get fun m => NoFault.bind (NoFault.forIn_list fun item _ => ?_)
      fun _ => NoFault.pure _
    split
    · refine NoFault.bind NoFault.get fun _ => ?_
      split
      · exact NoFault.bind (depend_noFault _) fun _ => NoFault.pure _
      · exact NoFault.pure _
    · refine NoFault.bind NoFault.get fun _ => ?_
      dsimp only
      split
      · exact NoFault.bind (depend_noFault _) fun _ => NoFault.bind (ih _) fun _ => NoFault.pure _
      · exact NoFault.bind (ih _) fun _ => NoFault.pure _
    · exact NoFault.pure _

theorem dependList_noFault (l : ListRef) : NoFault (dependList l : Eff η Unit) :=
  NoFault.bind (NoFault.bind NoFault.get fun _ => NoFault.pure _) fun _ => dependItems_noFault _ l

theorem objGet_noFault (o : ObjRef) (key : String) : NoFault (objGet o key : Eff η Value) := by
  refine NoFault.bind (NoFault.bind NoFault.get fun _ => NoFault.pure _) fun s => ?_
  split
  · exact NoFault.pure _
  · refine NoFault.bind NoFault.get fun m => ?_
    dsimp only
    refine NoFault.ite _ (NoFault.bind (depend_noFault _) fun _ => ?_) (NoFault.pure _)
    split
    · refine NoFault.bind (depend_noFault _) fun _ => ?_
      split
      · exact NoFault.bind (dependList_noFault _) fun _ => NoFault.pure _
      · exact NoFault.pure _
    · exact NoFault.pure _
  · exact NoFault.pure _

theorem objKeys_noFault (o : ObjRef) : NoFault (objKeys o : Eff η (List String)) := by
  refine NoFault.bind (NoFault.bind NoFault.get fun m => NoFault.ite _ ?_ (NoFault.pure _))
    fun _ => NoFault.bind NoFault.get fun _ => NoFault.pure _
  split
  · exact depend_noFault _
  · exact NoFault.pure _

theorem listItems_noFault (l : ListRef) : NoFault (listItems l : Eff η (List Value)) := by
  refine NoFault.bind (NoFault.bind NoFault.get fun m => ?_) fun _ =>
    NoFault.bind NoFault.get fun _ => NoFault.pure _
  split
  · exact NoFault.pure _
  · dsimp only
    split
    · exact NoFault.ite _ (NoFault.pure _)
        (NoFault.bind (depend_noFault _) fun _ => dependList_noFault l)
    · exact dependList_noFault l

theorem visit_noFault (fuel : Nat) (seen : List Value) (v : Value) :
    NoFault (visit fuel seen v : Eff η (List Value)) := by
  induction fuel generalizing seen v with
  | zero => exact NoFault.halt _
  | succ fuel ih =>
    unfold visit
    split
    · refine NoFault.bind NoFault.get fun _ => NoFault.ite _ (NoFault.pure _) ?_
      exact NoFault.bind (objKeys_noFault _) fun _ => NoFault.bind (NoFault.forIn_list fun _ _ =>
        NoFault.bind (objGet_noFault _ _) fun _ => NoFault.bind (ih _ _) fun _ => NoFault.pure _)
        fun _ => NoFault.pure _
    · refine NoFault.bind NoFault.get fun _ => NoFault.ite _ (NoFault.pure _) ?_
      exact NoFault.bind (listItems_noFault _) fun _ => NoFault.bind (NoFault.forIn_list fun _ _ =>
        NoFault.bind (ih _ _) fun _ => NoFault.pure _) fun _ => NoFault.pure _
    · exact NoFault.pure _

theorem traverse_noFault (v : Value) : NoFault (traverse v : Eff η Unit) :=
  NoFault.bind (NoFault.bind NoFault.get fun _ => NoFault.pure _) fun _ =>
    NoFault.bind (visit_noFault _ [] v) fun _ => NoFault.pure _

theorem reconcile_noFault (w : WatcherId) : NoFault (reconcile w : Eff η Unit) :=
  NoFault.bind NoFault.get fun _ => NoFault.bind (NoFault.forIn_list fun _ _ =>
    NoFault.ite _ (NoFault.bind (NoFault.modify _) fun _ => NoFault.pure _) (NoFault.pure _))
    fun _ => NoFault.modify _

end Eff

/-- Host code leaves the tracking context as it found it. -/
def Runner.Balanced (r : Runner η) : Prop :=
  ∀ c a K, Keeps (fun m : Machine η => m.context = K) (r.invoke c a)

namespace Stable

theorem enter_context (t : Option WatcherId) (K : List (Option WatcherId)) :
    Triple (fun m : Machine η => m.context = K) (Eff.enter t)
      fun r m => ∃ a, r = .ok a ∧ m.context = t :: K :=
  Triple.modify _ fun _ h => ⟨(), rfl, by rw [← h]⟩

theorem leave_context (t : Option WatcherId) (K : List (Option WatcherId)) :
    Triple (fun m : Machine η => m.context = t :: K) Eff.leave
      fun r m => ∃ a, r = .ok a ∧ m.context = K := by
  have hdrop : Triple (fun m : Machine η => m.context = t :: K)
      (modify fun m => { m with context := m.context.drop 1 } : Eff η Unit)
      fun r m => ∃ a, r = .ok a ∧ m.context = K :=
    Triple.modify _ fun m h => ⟨(), rfl, by simp [h]⟩
  unfold Eff.leave
  exact Triple.bind_ok hdrop fun _ => Triple.of_keeps (context_base K).settle Eff.settle_noFault

theorem reconcile_context (w : WatcherId) (K : List (Option WatcherId)) :
    Keeps (fun m : Machine η => m.context = K) (Eff.reconcile w) := by
  refine Keeps.bind Keeps.get fun m => Keeps.bind (Keeps.forIn_list fun _ _ => ?_) fun _ =>
    Keeps.modify fun _ h => h
  exact Keeps.ite _ (Keeps.bind (Keeps.modify fun _ h => h) fun _ => Keeps.pure _) (Keeps.pure _)

variable {r : Runner η} (hr : r.Balanced)
include hr

/-- Evaluating a watcher, and each getter, name and computed value it reads on the way, leaves
the tracking context as it found it: one induction on the shared fuel. -/
theorem evaluateWith_context (fuel : Nat) :
    (∀ w K, Keeps (fun m : Machine η => m.context = K) (Eff.evaluateWith r fuel w)) ∧
    (∀ g s K, Keeps (fun m : Machine η => m.context = K) (Eff.getterValue r fuel g s)) ∧
    (∀ s name K, Keeps (fun m : Machine η => m.context = K) (Eff.lookupWith r fuel s name)) ∧
    ∀ w K, Keeps (fun m : Machine η => m.context = K) (Eff.computedWith r fuel w) := by
  induction fuel with
  | zero =>
    exact ⟨fun _ _ => Keeps.halt _, fun _ _ _ => Keeps.halt _, fun _ _ _ => Keeps.halt _,
      fun _ _ => Keeps.halt _⟩
  | succ fuel ih =>
    obtain ⟨heval, hget, hlook, hcomp⟩ := ih
    refine ⟨fun w K => ?_, fun g s K => ?_, fun s name K => ?_, fun w K => ?_⟩
    · unfold Eff.evaluateWith
      refine Keeps.bind Keeps.get fun m => ?_
      extract_lets cell scope tail body
      -- inside the frame the context is `some w :: K`; closing the frame gives back `K`
      have htail : ∀ res, Triple (fun m : Machine η => m.context = some w :: K) (tail res)
          fun _ m => m.context = K := by
        intro res
        dsimp -zeta only [tail]
        extract_lets finish close
        have hfinish : ∀ u, Keeps (fun m : Machine η => m.context = K) (finish u) := by
          intro u
          dsimp -zeta only [finish]
          split
          · exact Keeps.pure _
          · exact Keeps.fault _
        have hclose : ∀ u, Triple (fun m : Machine η => m.context = some w :: K) (close u)
            fun _ m => m.context = K := fun _ =>
          Triple.bind_ok (leave_context (some w) K) fun _ => Keeps.bind (reconcile_context w K)
            fun _ => Keeps.ite _ (Keeps.bind (context_base K).unhold hfinish) (hfinish ())
        refine Triple.ite _ (fun _ => ?_) fun _ => hclose ()
        split
        · exact Triple.bind_of_keeps ((context_base _).traverse _) (Eff.traverse_noFault _) hclose
        · exact hclose ()
      have hbody : ∀ u, Keeps (fun m : Machine η => m.context = K) (body u) := by
        intro u
        dsimp -zeta only [body]
        refine Triple.bind_ok (enter_context (some w) K) fun _ => ?_
        refine Triple.bind_ok (Triple.attempt (Triple.conseq (hget _ _ (some w :: K))
          (fun _ h => h) fun r _ h => ⟨r, rfl, h⟩)) fun res => ?_
        have hpure := fun x => Triple.bind_ok (Triple.pure (P := fun m : Machine η =>
          m.context = some w :: K) x fun _ h => ⟨x, rfl, h⟩) htail
        split
        · exact Triple.ite _ (fun _ => Triple.bind_of_keeps ((context_base _).handleError
            (fun c _ _ _ => hr c _ _) _ _ _) (Eff.handleError_noFault _ _ _ _) fun _ => hpure _)
            fun _ => hpure _
        · exact hpure _
      dsimp -zeta only [scope]
      split
      · exact Keeps.bind ((context_base K).pin _) hbody
      · exact hbody ()
    · unfold Eff.getterValue
      split
      · exact hr _ _ _
      · exact Keeps.bind (hr _ _ _) fun _ => Keeps.pure _
      · exact Keeps.pure _
      · split
        · exact Keeps.pure _
        · exact Keeps.pure _
        · exact Keeps.bind (hlook _ _ _) fun _ => Keeps.bind (Keeps.forIn_list fun _ _ =>
            Keeps.bind ((context_base K).member _ _) fun _ => Keeps.pure _) fun _ => Keeps.pure _
    · unfold Eff.lookupWith
      refine Keeps.bind Keeps.get fun _ => Keeps.bind (hasOwn _ _) fun _ => ?_
      refine Keeps.ite _ ((context_base K).objGet _ _) ?_
      refine Keeps.bind (hasOwn _ _) fun _ => Keeps.ite _ ((context_base K).objGet _ _) ?_
      split
      · exact hcomp _ _
      · exact Keeps.pure _
    · unfold Eff.computedWith
      refine Keeps.bind Keeps.get fun _ => ?_
      extract_lets value read
      have hvalue : ∀ u, Keeps (fun m : Machine η => m.context = K) (value u) := fun _ =>
        Keeps.bind Keeps.get fun _ => Keeps.pure _
      have hread : ∀ u, Keeps (fun m : Machine η => m.context = K) (read u) := fun _ =>
        Keeps.bind target fun _ => Keeps.ite _ (Keeps.bind ((context_base K).dependOn w) hvalue)
          (hvalue ())
      exact Keeps.ite _ (Keeps.bind (heval w K) fun _ =>
        Keeps.bind (Keeps.modify fun _ h => h) hread) (hread ())

end Stable

end Reactivity

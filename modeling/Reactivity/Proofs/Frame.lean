import Reactivity.Proofs.Triple
import Reactivity.Scope
import Reactivity.Cell
import Reactivity.Render
import Reactivity.Path

/-!
# Operations that leave the scheduler alone

`Inert x`: running `x` changes neither the flush queue nor the jobs of the tick batch, so
every invariant of the scheduler survives it (`Inert.keeps`). Everything the engine does
without calling host code and without notifying is inert: reading and observing
containers, recording reads, making watchers, scopes and cells, tearing watchers down,
destroying scopes, reporting, and dropping what nothing holds.
-/

namespace Reactivity

variable {η α β : Type}

/-- `x` leaves the flush queue and the jobs of the tick batch as they are. -/
def Inert (x : Eff η α) : Prop := ∀ q js, Keeps (fun m => m.queue = q ∧ m.ticks.jobs = js) x

/-- An invariant that looks only at the flush queue and the jobs of the tick batch. -/
def Framed (I : Machine η → Prop) : Prop :=
  ∀ m m', m'.queue = m.queue → m'.ticks.jobs = m.ticks.jobs → I m → I m'

theorem forIn_id_inv {xs : List α} {b : β} {g : α → β → Id (ForInStep β)} (J : β → Prop)
    (hb : J b) (h : ∀ a b, J b → ∃ b', (g a b = .yield b' ∨ g a b = .done b') ∧ J b') :
    J (forIn xs b g).run := by
  induction xs generalizing b with
  | nil => exact hb
  | cons a xs ih =>
    obtain ⟨b', hg | hg, hb'⟩ := h a b hb
    · simp only [List.forIn_cons, hg]; exact ih hb'
    · simp only [List.forIn_cons, hg]; exact hb'

namespace Inert

variable {x : Eff η α} {I : Machine η → Prop}

theorem keeps (h : Inert x) (hI : Framed I) : Keeps I x := fun m hm r m' hr =>
  have hq := h m.queue m.ticks.jobs m ⟨rfl, rfl⟩ r m' hr
  hI m m' hq.1 hq.2 hm

theorem pure (a : α) : Inert (Pure.pure a : Eff η α) := fun _ _ => Keeps.pure a

theorem get : Inert (MonadState.get : Eff η (Machine η)) := fun _ _ => Keeps.get

theorem modify {f : Machine η → Machine η}
    (h : ∀ m, (f m).queue = m.queue ∧ (f m).ticks.jobs = m.ticks.jobs) :
    Inert (modify f : Eff η Unit) :=
  fun _ _ => Keeps.modify fun m hm => ⟨(h m).1.trans hm.1, (h m).2.trans hm.2⟩

theorem fault (e : Fault) : Inert (Eff.fault e : Eff η α) := fun _ _ => Keeps.fault e

theorem halt (e : Halt) : Inert (Eff.halt e : Eff η α) := fun _ _ => Keeps.halt e

theorem bind {f : α → Eff η β} (hx : Inert x) (hf : ∀ a, Inert (f a)) : Inert (x >>= f) :=
  fun q js => Keeps.bind (hx q js) fun a => hf a q js

theorem bind_get {f : Machine η → Eff η β}
    (h : ∀ m, Triple (· = m) (f m) fun _ m' => m'.queue = m.queue ∧ m'.ticks.jobs = m.ticks.jobs) :
    Inert (MonadState.get >>= f) :=
  fun _ _ => Keeps.bind_get fun m hm => Triple.conseq (h m) (fun _ h => h)
    fun _ _ h => ⟨h.1.trans hm.1, h.2.trans hm.2⟩

theorem get_set_bind {g : Machine η → Machine η} {k : Machine η → PUnit → Eff η β}
    (h : ∀ m, (g m).queue = m.queue ∧ (g m).ticks.jobs = m.ticks.jobs) (hk : ∀ m u, Inert (k m u)) :
    Inert (MonadState.get >>= fun m => MonadState.set (g m) >>= k m) :=
  fun q js => Keeps.bind_get fun m hm =>
    Triple.bind (Triple.set (g m) fun _ _ => ⟨(h m).1.trans hm.1, (h m).2.trans hm.2⟩ :
      Triple (· = m) _ fun _ m' => m'.queue = q ∧ m'.ticks.jobs = js)
      (fun u => hk m u q js) fun _ _ h => h

theorem get_set {g : Machine η → Machine η} {k : Machine η → α}
    (h : ∀ m, (g m).queue = m.queue ∧ (g m).ticks.jobs = m.ticks.jobs) :
    Inert (do let m ← MonadState.get; MonadState.set (g m); Pure.pure (k m) : Eff η α) :=
  get_set_bind h fun m _ => pure (k m)

theorem attempt (hx : Inert x) : Inert (Eff.attempt x) := fun q js => Keeps.attempt (hx q js)

theorem ite (c : Prop) [Decidable c] {y : Eff η α} (hx : Inert x) (hy : Inert y) :
    Inert (if c then x else y) :=
  fun q js => Keeps.ite c (hx q js) (hy q js)

theorem forIn_list {xs : List α} {b : β} {f : α → β → Eff η (ForInStep β)}
    (h : ∀ a b, Inert (f a b)) : Inert (forIn xs b f) :=
  fun q js => Keeps.forIn_list fun a b => h a b q js

theorem forIn_array {xs : Array α} {b : β} {f : α → β → Eff η (ForInStep β)}
    (h : ∀ a b, Inert (f a b)) : Inert (forIn xs b f) :=
  fun q js => Keeps.forIn_array fun a b => h a b q js

theorem forIn_range {r : Std.Legacy.Range} {b : β} {f : Nat → β → Eff η (ForInStep β)}
    (h : ∀ a b, Inert (f a b)) : Inert (forIn r b f) :=
  fun q js => Keeps.forIn_range fun a b => h a b q js

theorem forM_list {xs : List α} {f : α → Eff η PUnit} (h : ∀ a, Inert (f a)) :
    Inert (xs.forM f) :=
  fun q js => Keeps.forM_list fun a => h a q js

theorem mapM_list {xs : List α} {f : α → Eff η β} (h : ∀ a, Inert (f a)) :
    Inert (xs.mapM f) :=
  fun q js => Keeps.mapM_list fun a => h a q js

end Inert

/-! ## The machine and its collection -/

namespace Machine

theorem dropWatcher_frame (m : Machine η) (w : WatcherId) :
    (m.dropWatcher w).queue = m.queue ∧ (m.dropWatcher w).ticks = m.ticks := by
  suffices ∀ (ds : List DepId) (m : Machine η),
      (ds.foldl (fun m d => m.unsubscribe d w) m).queue = m.queue ∧
      (ds.foldl (fun m d => m.unsubscribe d w) m).ticks = m.ticks from this _ m
  intro ds
  induction ds with
  | nil => exact fun _ => ⟨rfl, rfl⟩
  | cons d ds ih => exact fun m => ih (m.unsubscribe d w)

theorem collect_inv (J : Machine η → Prop) {m : Machine η} (hm : J m)
    (hs : ∀ (s : Machine η) (i : Nat), J s →
      J { s with scopes := s.scopes.modify i fun c => { c with dropped := true } })
    (hw : ∀ (s : Machine η) (i : Nat), J s → J (s.dropWatcher ⟨i⟩)) : J m.collect := by
  unfold Machine.collect
  simp only [Std.Legacy.Range.forIn_eq_forIn_range', Id.run_bind, Id.run_pure]
  refine forIn_id_inv J (forIn_id_inv J hm fun i s hs' => ?_) fun i s hs' => ?_
  · split
    · exact ⟨_, .inl rfl, hs s i hs'⟩
    · exact ⟨_, .inl rfl, hs'⟩
  · split
    · exact ⟨_, .inl rfl, hw s i hs'⟩
    · exact ⟨_, .inl rfl, hs'⟩

theorem collect_frame (m : Machine η) :
    m.collect.queue = m.queue ∧ m.collect.ticks = m.ticks :=
  collect_inv (fun s => s.queue = m.queue ∧ s.ticks = m.ticks) ⟨rfl, rfl⟩ (fun _ _ h => h)
    fun s i h => ⟨(dropWatcher_frame s ⟨i⟩).1.trans h.1, (dropWatcher_frame s ⟨i⟩).2.trans h.2⟩

end Machine

namespace Eff

theorem report_inert (entry : Json) : Inert (report entry : Eff η Unit) :=
  Inert.modify fun _ => ⟨rfl, rfl⟩

theorem warn_inert (text : String) : Inert (warn text : Eff η Unit) :=
  Inert.bind Inert.get fun _ => Inert.ite _ (report_inert _) (Inert.pure _)

theorem modifyObject_inert (o : ObjRef) (f) : Inert (modifyObject o f : Eff η Unit) :=
  Inert.modify fun _ => ⟨rfl, rfl⟩

theorem modifyList_inert (l : ListRef) (f) : Inert (modifyList l f : Eff η Unit) :=
  Inert.modify fun _ => ⟨rfl, rfl⟩

theorem modifyWatcher_inert (w : WatcherId) (f) : Inert (modifyWatcher w f : Eff η Unit) :=
  Inert.modify fun _ => ⟨rfl, rfl⟩

theorem modifyScope_inert (s : ScopeId) (f) : Inert (modifyScope s f : Eff η Unit) :=
  Inert.modify fun _ => ⟨rfl, rfl⟩

theorem newDep_inert : Inert (newDep : Eff η DepId) := Inert.get_set fun _ => ⟨rfl, rfl⟩

theorem newProp_inert (p : Property) : Inert (newProp p : Eff η PropId) :=
  Inert.get_set fun _ => ⟨rfl, rfl⟩

theorem pin_inert (a : Anchor) : Inert (pin a : Eff η Unit) := Inert.modify fun _ => ⟨rfl, rfl⟩

theorem release_inert : Inert (release : Eff η Unit) := Inert.modify fun _ => ⟨rfl, rfl⟩

theorem settle_inert : Inert (settle : Eff η Unit) := by
  refine Inert.modify fun m => ?_
  split
  · exact ⟨(m.collect_frame).1, congrArg TickBatch.jobs (m.collect_frame).2⟩
  · exact ⟨rfl, rfl⟩

theorem unhold_inert : Inert (unhold : Eff η Unit) :=
  Inert.bind (Inert.modify fun _ => ⟨rfl, rfl⟩) fun _ => settle_inert

theorem released_inert : Inert (released : Eff η Unit) :=
  Inert.bind release_inert fun _ => settle_inert

/-! ## Tracking reads -/

theorem target_inert : Inert (target : Eff η (Option WatcherId)) :=
  Inert.bind Inert.get fun _ => Inert.pure _

theorem addSub_inert (d : DepId) (w : WatcherId) : Inert (addSub d w : Eff η Unit) :=
  Inert.modify fun _ => ⟨rfl, rfl⟩

theorem removeSub_inert (d : DepId) (w : WatcherId) : Inert (removeSub d w : Eff η Unit) :=
  Inert.modify fun _ => ⟨rfl, rfl⟩

theorem depend_inert (d : DepId) : Inert (depend d : Eff η Unit) := by
  refine Inert.bind Inert.get fun m => ?_
  split
  · exact Inert.pure _
  · exact Inert.ite _ (Inert.bind (modifyWatcher_inert _ _) fun _ =>
      Inert.ite _ (addSub_inert _ _) (Inert.pure _)) (Inert.pure _)

theorem enter_inert (t : Option WatcherId) : Inert (enter t : Eff η Unit) :=
  Inert.modify fun _ => ⟨rfl, rfl⟩

theorem leave_inert : Inert (leave : Eff η Unit) :=
  Inert.bind (Inert.modify fun _ => ⟨rfl, rfl⟩) fun _ => settle_inert

theorem untracked_keeps {x : Eff η α} {I : Machine η → Prop} (hI : Framed I) (hx : Keeps I x) :
    Keeps I (untracked x) := by
  refine Keeps.bind ((enter_inert _).keeps hI) fun _ => Keeps.bind (Keeps.attempt hx) fun r =>
    Keeps.bind (leave_inert.keeps hI) fun _ => ?_
  cases r with
  | ok v => exact Keeps.pure v
  | error e => exact Keeps.fault e

/-! ## Reading and observing containers -/

theorem containerCount_inert : Inert (containerCount : Eff η Nat) :=
  Inert.bind Inert.get fun _ => Inert.pure _

theorem dependItems_inert (fuel : Nat) (l : ListRef) : Inert (dependItems fuel l : Eff η Unit) := by
  induction fuel generalizing l with
  | zero => exact Inert.halt _
  | succ fuel ih =>
    refine Inert.bind Inert.get fun m => Inert.bind (Inert.forIn_list fun item _ => ?_)
      fun _ => Inert.pure _
    split
    · refine Inert.bind Inert.get fun _ => ?_
      split
      · exact Inert.bind (depend_inert _) fun _ => Inert.pure _
      · exact Inert.pure _
    · refine Inert.bind Inert.get fun _ => ?_
      dsimp only
      split
      · exact Inert.bind (depend_inert _) fun _ => Inert.bind (ih _) fun _ => Inert.pure _
      · exact Inert.bind (ih _) fun _ => Inert.pure _
    · exact Inert.pure _

theorem dependList_inert (l : ListRef) : Inert (dependList l : Eff η Unit) :=
  Inert.bind containerCount_inert fun n => dependItems_inert n l

theorem propGet_inert (p : PropId) : Inert (propGet p : Eff η Value) := by
  refine Inert.bind Inert.get fun m => ?_
  dsimp only
  refine Inert.ite _ (Inert.bind (depend_inert _) fun _ => ?_) (Inert.pure _)
  split
  · refine Inert.bind (depend_inert _) fun _ => ?_
    split
    · exact Inert.bind (dependList_inert _) fun _ => Inert.pure _
    · exact Inert.pure _
  · exact Inert.pure _

theorem slot?_inert (o : ObjRef) (key : String) : Inert (slot? o key : Eff η (Option Slot)) :=
  Inert.bind Inert.get fun _ => Inert.pure _

theorem trackObject_inert (o : ObjRef) : Inert (trackObject o : Eff η Unit) := by
  refine Inert.bind Inert.get fun m => Inert.ite _ ?_ (Inert.pure _)
  split
  · exact depend_inert _
  · exact Inert.pure _

theorem objGet_inert (o : ObjRef) (key : String) : Inert (objGet o key : Eff η Value) := by
  refine Inert.bind (slot?_inert o key) fun s => ?_
  split
  · exact Inert.pure _
  · exact propGet_inert _
  · exact Inert.pure _

theorem objKeysUntracked_inert (o : ObjRef) : Inert (objKeysUntracked o : Eff η (List String)) :=
  Inert.bind Inert.get fun _ => Inert.pure _

theorem objKeys_inert (o : ObjRef) : Inert (objKeys o : Eff η (List String)) :=
  Inert.bind (trackObject_inert o) fun _ => objKeysUntracked_inert o

theorem hasOwn_inert (o : ObjRef) (key : String) : Inert (hasOwn o key : Eff η Bool) :=
  Inert.bind Inert.get fun _ => Inert.pure _

theorem trackList_inert (l : ListRef) : Inert (trackList l : Eff η Unit) := by
  refine Inert.bind Inert.get fun m => ?_
  split
  · exact Inert.pure _
  · dsimp only
    split
    · exact Inert.ite _ (Inert.pure _) (Inert.bind (depend_inert _) fun _ => dependList_inert l)
    · exact dependList_inert l

theorem itemsUntracked_inert (l : ListRef) : Inert (itemsUntracked l : Eff η (List Value)) :=
  Inert.bind Inert.get fun _ => Inert.pure _

theorem listItems_inert (l : ListRef) : Inert (listItems l : Eff η (List Value)) :=
  Inert.bind (trackList_inert l) fun _ => itemsUntracked_inert l

theorem listGet_inert (l : ListRef) (i : Nat) : Inert (listGet l i : Eff η Value) :=
  Inert.bind (trackList_inert l) fun _ => Inert.bind Inert.get fun _ => Inert.pure _

theorem member_inert (v : Value) (key : String) : Inert (member v key : Eff η Value) := by
  unfold member
  split
  · exact objGet_inert _ _
  · split
    · exact listGet_inert _ _
    · exact Inert.pure _
  · exact Inert.pure _

theorem visit_inert (fuel : Nat) (seen : List Value) (v : Value) :
    Inert (visit fuel seen v : Eff η (List Value)) := by
  induction fuel generalizing seen v with
  | zero => exact Inert.halt _
  | succ fuel ih =>
    unfold visit
    split
    · refine Inert.bind Inert.get fun _ => Inert.ite _ (Inert.pure _) ?_
      exact Inert.bind (objKeys_inert _) fun _ => Inert.bind (Inert.forIn_list fun _ _ =>
        Inert.bind (objGet_inert _ _) fun _ => Inert.bind (ih _ _) fun _ => Inert.pure _)
        fun _ => Inert.pure _
    · refine Inert.bind Inert.get fun _ => Inert.ite _ (Inert.pure _) ?_
      exact Inert.bind (listItems_inert _) fun _ => Inert.bind (Inert.forIn_list fun _ _ =>
        Inert.bind (ih _ _) fun _ => Inert.pure _) fun _ => Inert.pure _
    · exact Inert.pure _

theorem traverse_inert (v : Value) : Inert (traverse v : Eff η Unit) :=
  Inert.bind containerCount_inert fun _ => Inert.bind (visit_inert _ [] v) fun _ => Inert.pure _

/-! ## Watchers without their host code -/

theorem unhandled_inert (err : Fault) (info : String) : Inert (unhandled err info : Eff η Unit) :=
  Inert.bind Inert.get fun _ => Inert.ite _ (report_inert _) (report_inert _)

theorem reconcile_inert (w : WatcherId) : Inert (reconcile w : Eff η Unit) :=
  Inert.bind Inert.get fun _ => Inert.bind (Inert.forIn_list fun _ _ =>
    Inert.ite _ (Inert.bind (removeSub_inert _ _) fun _ => Inert.pure _) (Inert.pure _))
    fun _ => modifyWatcher_inert _ _

theorem dependOn_inert (w : WatcherId) : Inert (dependOn w : Eff η Unit) :=
  Inert.bind Inert.get fun _ => Inert.bind (Inert.forIn_list fun _ _ =>
    Inert.bind (depend_inert _) fun _ => Inert.pure _) fun _ => Inert.pure _

theorem unregister_inert (s : ScopeId) (w : WatcherId) : Inert (unregister s w : Eff η Unit) :=
  Inert.bind (modifyScope_inert _ _) fun _ => released_inert

theorem teardown_inert (w : WatcherId) : Inert (teardown w : Eff η Unit) := by
  have hrest : Inert (do
      for d in ((← MonadState.get).watcher w).deps do removeSub d w
      modifyWatcher w fun c => { c with deps := [], active := false } : Eff η Unit) :=
    Inert.bind Inert.get fun _ => Inert.bind (Inert.forIn_list fun _ _ =>
      Inert.bind (removeSub_inert _ _) fun _ => Inert.pure _) fun _ => modifyWatcher_inert _ _
  refine Inert.bind Inert.get fun m => Inert.ite _ (Inert.pure _) ?_
  dsimp only
  split
  · split
    · exact Inert.bind (unregister_inert _ _) fun _ => hrest
    · exact hrest
  · exact hrest

theorem build_inert (scope : Option ScopeId) (getter : Getter) (callback : Option Closure)
    (o : WatcherOptions) (render : Bool) :
    Inert (build scope getter callback o render : Eff η WatcherId) := by
  refine Inert.get_set_bind (fun _ => ⟨rfl, rfl⟩) fun m _ => ?_
  dsimp only
  split
  · split
    · exact Inert.bind (modifyScope_inert _ _) fun _ => Inert.bind release_inert fun _ =>
        Inert.bind (modifyScope_inert _ _) fun _ => Inert.pure _
    · exact Inert.bind (modifyScope_inert _ _) fun _ => Inert.pure _
  · exact Inert.pure _

end Eff

end Reactivity

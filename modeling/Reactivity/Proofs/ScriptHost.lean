import Reactivity.Proofs.Subscriptions
import Reactivity.Proofs.ObservationLaws
import Reactivity.Proofs.Scheduler

/-!
# A script's closures as host code

The engine's laws take a rely on host code. Those about scheduling ask that it keep the
scheduler's invariant whatever walk and ticks it runs inside (`HostKeeps`). The host code of a
script is its closures, run by the interpreter, and they meet that rely
(`script_host_keeps`): the scheduler's invariant looks only at the queue and the tick batch's
jobs, which no primitive update of tracking touches, and the whole scheduler keeps it as soon as
host code does, so it is a family the interpreter keeps (`Script.Kept`). The closures keep the
consistency of subscriptions too (`script_host_subscribed`).

Deep observation is not kept that way: a closure may switch observation off, and the heap it
leaves is then not deep (`script_host_not_deep`). What the laws of deep observation say of a
script holds only while its closures leave observation on. The laws of the scope registry take
a rely of their own, that host code keep the registry (`scope_registry`); it is not discharged
for scripts here.
-/

namespace Reactivity

variable {η : Type} {I : Machine η → Prop}

namespace Framed

variable (hI : Framed I)
include hI

theorem apart : Apart I := fun m m' h => hI m m' h.queue h.jobs

/-- An invariant of the queue and the tick batch's jobs alone survives every primitive update of
tracking, since none of them touches either. -/
theorem stable : Stable I where
  depend d := (Eff.depend_inert d).keeps hI
  pin a := (Eff.pin_inert a).keeps hI
  release := Eff.release_inert.keeps hI
  settle := Eff.settle_inert.keeps hI
  unhold := Eff.unhold_inert.keeps hI
  report e := (Eff.report_inert e).keeps hI
  enter t := (Eff.enter_inert t).keeps hI
  leave := Eff.leave_inert.keeps hI
  reconcile w := (Eff.reconcile_inert w).keeps hI
  teardown w := (Eff.teardown_inert w).keeps hI
  build scope getter callback o render := (Eff.build_inert scope getter callback o render).keeps hI
  object o f := (Eff.modifyObject_inert o f).keeps hI
  list l f := (Eff.modifyList_inert l f).keeps hI
  newDep := Eff.newDep_inert.keeps hI
  newProp p := (Eff.newProp_inert p).keeps hI
  watcher w f _ := (Eff.modifyWatcher_inert w f).keeps hI

end Framed

variable {L : Nat} {ongoing : Option (List WatcherId × List WatcherId)} {outer : List TickJob}

/-- Host code that keeps the scheduler's invariant lets the whole scheduler keep it. -/
theorem HostKeeps.schedules {r : Runner η} (hr : HostKeeps r) :
    Schedules (Sched L ongoing outer) r where
  notify := Eff.notify_keeps hr
  update := Eff.update_keeps hr
  flush := Triple.conseq (Eff.flush_spec hr) (fun _ h => h.1) fun _ _ h => h.2
  nextTick := Eff.nextTick_keeps
  settledSignal := Eff.settledSignal_keeps
  tick := Eff.tick_keeps hr
  drain := Triple.conseq (Eff.drain_spec hr) (fun _ h => h) fun _ _ ⟨_, _, h, _⟩ => h
  runRound := Eff.runRound_keeps hr
  awaitSignal := Eff.awaitSignal_keeps hr

/-- The scheduler's invariant, one member for each limit, walk under way and jobs still to run,
is a family the interpreter keeps. -/
theorem sched_kept :
    Script.Kept fun p : Nat × Option (List WatcherId × List WatcherId) × List TickJob =>
      (Sched p.1 p.2.1 p.2.2 : Machine Registry → Prop) where
  apart _ := Sched.framed.apart
  stable _ := Sched.framed.stable
  schedules _ hr _ := HostKeeps.schedules fun L ongoing outer => hr (L, ongoing, outer)

/-- The closures of a script keep the scheduler's invariant, whatever walk and ticks they run
inside, at every fuel: the rely of the scheduler's laws holds of the interpreter's host code. -/
theorem script_host_keeps (fuel : Nat) : HostKeeps (Script.closureRunner (Script.eval fuel)) :=
  fun L ongoing outer => sched_kept.host fuel (L, ongoing, outer)

/-- The closures of a script keep subscriptions consistent with the reads they record. -/
theorem script_host_subscribed (fuel : Nat) (c : Closure) (a : Args) :
    Keeps Machine.Subscribed ((Script.closureRunner (Script.eval fuel)).invoke c a) :=
  (Script.Kept.ofTables Machine.Subscribed.onTables subscribed_stable).host fuel () c a

/-! ## Observation switched off -/

theorem Machine.observing_of_empty {m : Machine η} (ho : m.objects = #[]) (hl : m.lists = #[])
    (hon : m.observing = true) : m.Observing := by
  have hobj : ∀ o, m.object o = {} := fun o => by simp only [Machine.object, ho]; rfl
  have hlist : ∀ l, m.listCell l = {} := fun l => by simp only [Machine.listCell, hl]; rfl
  refine ⟨⟨⟨fun o h => ?_, fun l h => ?_⟩, fun o key p h => ?_, fun o key h => ?_,
    fun l v h => ?_⟩, hon⟩
  all_goals simp [Machine.keysOf, hobj, hlist] at h

/-- A session whose one closure switches observation off. -/
def pauseObserving : Machine Registry :=
  { host := { closures := #[.obj [("toggle_observing", .bool false)]] } }

/-- A closure of a script can leave observation off, so the closures of a script do not keep
observation deep: at every fuel that runs a closure's body, there is a state deep since itself
from which a closure ends in a state that is not. -/
theorem script_host_not_deep (fuel : Nat) :
    ¬ DeepHost (Script.closureRunner (Script.eval (fuel + 1))) := by
  intro h
  have hdeep : pauseObserving.DeepFrom pauseObserving :=
    Machine.DeepFrom.refl (Machine.observing_of_empty rfl rfl rfl)
  obtain ⟨m', hrun, hoff⟩ : ∃ m', ExceptT.run
      ((Script.closureRunner (Script.eval (fuel + 1))).invoke 0 .none) pauseObserving =
        .ok (.ok .undefined, m') ∧ m'.observing = false := ⟨_, rfl, rfl⟩
  have hon := (h pauseObserving 0 .none pauseObserving hdeep _ m' hrun).1.on
  rw [hoff] at hon
  cases hon

end Reactivity

import Reactivity.Proofs.Frame
import Reactivity.Proofs.Queue

/-!
# The scheduler invariant, and host code

`Sched L ongoing outer` is what the scheduler keeps between any two steps of the engine: the
flush queue is steady (`FlushQueue.Steady L ongoing`), and a flush that was asked for (`waiting`)
while none runs is still to come (`Owed outer`): its job waits in the tick batch, or among
`outer`, the jobs still to run of the ticks under way.

Host code (getters, callbacks, hooks, jobs) reaches the engine only through its operations,
so it is trusted to keep the invariant, whatever walk it runs inside and whatever ticks are
under way (`HostKeeps`); a script's closures keep it (`script_host_keeps`). As the invariant
holds for every floor of a walk, host code never takes a watcher out of the queue of the walk it
runs in. Under that trust, everything that calls host code keeps it too; this file covers the
calls made on behalf of watchers, hooks and error routing. Faults raised by
host code are caught on all these paths, so none of them ends in a fault of its own.
-/

namespace Reactivity

variable {η α : Type}

/-- A flush that was asked for while none runs is still to come: its job waits in the tick
batch or among `outer`. -/
def Owed (outer : List TickJob) (m : Machine η) : Prop :=
  m.queue.flushing = false → m.queue.waiting = true → TickJob.flush ∈ m.ticks.jobs.toList ++ outer

/-- The scheduler invariant, inside the walk `ongoing` (none when no flush runs) of a flush with
limit `L`, and with the jobs `outer` still to run in the ticks under way. -/
def Sched (L : Nat) (ongoing : Option (List WatcherId × List WatcherId)) (outer : List TickJob)
    (m : Machine η) : Prop :=
  m.queue.Steady L ongoing ∧ Owed outer m

/-- Host code keeps the scheduler invariant, whatever walk and ticks it runs inside. -/
def HostKeeps (r : Runner η) : Prop :=
  ∀ L ongoing outer c a, Keeps (Sched L ongoing outer) (r.invoke c a)

variable {L : Nat} {ongoing : Option (List WatcherId × List WatcherId)} {outer : List TickJob}

theorem Sched.framed : Framed (Sched L ongoing outer : Machine η → Prop) := by
  intro m m' hq hj h
  unfold Sched Owed at *
  rw [hq, hj]
  exact h

theorem Inert.sched {x : Eff η α} (h : Inert x) : Keeps (Sched L ongoing outer) x :=
  h.keeps Sched.framed

theorem HostKeeps.of_pure {r : Runner η} (h : ∀ c a, r.invoke c a = pure .undefined) :
    HostKeeps r := by
  intro L ongoing outer c a
  rw [h]
  exact Keeps.pure _

theorem HostKeeps.quiet (fuel : Nat) :
    HostKeeps (⟨fun _ _ => pure .undefined, fuel⟩ : Runner η) :=
  of_pure fun _ _ => rfl

namespace Eff

/-! ## Paths that end without a fault -/

theorem report_noFault (entry : Json) : NoFault (report entry : Eff η Unit) := NoFault.modify _

theorem pin_noFault (a : Anchor) : NoFault (pin a : Eff η Unit) := NoFault.modify _

theorem settle_noFault : NoFault (settle : Eff η Unit) := NoFault.modify _

theorem unhold_noFault : NoFault (unhold : Eff η Unit) :=
  NoFault.bind (NoFault.modify _) fun _ => settle_noFault

theorem released_noFault : NoFault (released : Eff η Unit) :=
  NoFault.bind (NoFault.modify _) fun _ => settle_noFault

theorem leave_noFault : NoFault (leave : Eff η Unit) :=
  NoFault.bind (NoFault.modify _) fun _ => settle_noFault

theorem untracked_noFault {x : Eff η α} (hx : NoFault x) : NoFault (untracked x) := by
  refine NoFault.bind (NoFault.modify _) fun _ => ?_
  refine Triple.bind (Triple.attempt (Triple.conseq hx (fun _ h => h) fun _ _ ⟨a, h⟩ => ⟨a, h ▸ rfl⟩) :
    Triple _ (attempt x) fun r _ => ∃ a, r = .ok (.ok a))
    (fun res => ?_) fun _ _ ⟨_, h⟩ => nomatch h
  cases res with
  | ok v =>
    exact Triple.conseq (NoFault.bind leave_noFault fun _ => NoFault.pure v) (fun _ _ => trivial)
      fun _ _ h => h
  | error e => exact fun _ ⟨_, h⟩ => nomatch h

theorem unhandled_noFault (err : Fault) (info : String) : NoFault (unhandled err info : Eff η Unit) :=
  NoFault.bind NoFault.get fun _ => NoFault.ite _ (report_noFault _) (report_noFault _)

theorem perform_noFault (r : Runner η) (c : Closure) : NoFault (perform r c) :=
  NoFault.bind (NoFault.attempt _) fun _ => NoFault.pure _

theorem callHooks_noFault (r : Runner η) (hooks : List Closure) : NoFault (callHooks r hooks) :=
  untracked_noFault (NoFault.forM_list fun c => perform_noFault r c)

theorem captureAt_noFault (r : Runner η) (hooks : List Closure) (err : Fault) (info : String) :
    NoFault (captureAt r hooks err info) := by
  refine NoFault.bind (NoFault.forIn_list fun _ _ =>
    NoFault.bind (NoFault.attempt _) fun res => ?_) fun res => ?_
  · split
    · exact NoFault.pure _
    · exact NoFault.pure _
  · dsimp only
    split
    · exact NoFault.pure _
    · exact NoFault.pure _

theorem handleError_noFault (r : Runner η) (err : Fault) (scope : Option ScopeId) (info : String) :
    NoFault (handleError r err scope info) := by
  refine NoFault.bind NoFault.get fun m => NoFault.bind (NoFault.forIn_range fun _ _ => ?_)
    fun res => ?_
  · dsimp only
    split
    · exact NoFault.pure _
    · refine NoFault.bind (pin_noFault _) fun _ => NoFault.bind NoFault.get fun _ =>
        NoFault.bind (captureAt_noFault _ _ _ _) fun _ => NoFault.bind unhold_noFault fun _ => ?_
      exact NoFault.ite _ (NoFault.pure _) (NoFault.bind NoFault.get fun _ => NoFault.pure _)
  · dsimp only
    split
    · exact NoFault.pure _
    · exact unhandled_noFault _ _

theorem before_noFault (r : Runner η) (w : WatcherId) : NoFault (before r w) := by
  refine NoFault.bind NoFault.get fun _ => ?_
  split
  · exact NoFault.pure _
  · exact perform_noFault _ _
  · refine NoFault.bind NoFault.get fun _ => ?_
    split
    · exact NoFault.ite _ (NoFault.bind (pin_noFault _) fun _ =>
        NoFault.bind (callHooks_noFault _ _) fun _ => unhold_noFault) (NoFault.pure _)
    · exact NoFault.pure _

theorem afterRender_noFault (r : Runner η) (w : WatcherId) : NoFault (afterRender r w) := by
  refine NoFault.bind NoFault.get fun _ => ?_
  split
  · exact NoFault.ite _ (NoFault.bind (pin_noFault _) fun _ =>
      NoFault.bind (callHooks_noFault _ _) fun _ => unhold_noFault) (NoFault.pure _)
  · exact NoFault.pure _

/-! ## Host code keeps the invariant -/

section Host

variable {r : Runner η} (hr : HostKeeps r)
include hr

theorem perform_keeps (c : Closure) : Keeps (Sched L ongoing outer) (perform r c) :=
  Keeps.bind (Keeps.attempt (hr _ _ _ _ _)) fun _ => Keeps.pure _

theorem callHooks_keeps (hooks : List Closure) : Keeps (Sched L ongoing outer) (callHooks r hooks) :=
  untracked_keeps Sched.framed (Keeps.forM_list fun c => perform_keeps hr c)

theorem captureAt_keeps (hooks : List Closure) (err : Fault) (info : String) :
    Keeps (Sched L ongoing outer) (captureAt r hooks err info) := by
  refine Keeps.bind (Keeps.forIn_list fun _ _ =>
    Keeps.bind (Keeps.attempt (hr _ _ _ _ _)) fun res => ?_) fun res => ?_
  · split
    · exact Keeps.pure _
    · exact Keeps.pure _
  · dsimp only
    split
    · exact Keeps.pure _
    · exact Keeps.pure _

theorem handleError_keeps (err : Fault) (scope : Option ScopeId) (info : String) :
    Keeps (Sched L ongoing outer) (handleError r err scope info) := by
  refine Keeps.bind Keeps.get fun m => Keeps.bind (Keeps.forIn_range fun _ _ => ?_) fun res => ?_
  · dsimp only
    split
    · exact Keeps.pure _
    · refine Keeps.bind (pin_inert _).sched fun _ => Keeps.bind Keeps.get fun _ =>
        Keeps.bind (captureAt_keeps hr _ _ _) fun _ => Keeps.bind unhold_inert.sched fun _ => ?_
      exact Keeps.ite _ (Keeps.pure _) (Keeps.bind Keeps.get fun _ => Keeps.pure _)
  · dsimp only
    split
    · exact Keeps.pure _
    · exact (unhandled_inert _ _).sched

theorem before_keeps (w : WatcherId) : Keeps (Sched L ongoing outer) (before r w) := by
  refine Keeps.bind Keeps.get fun _ => ?_
  split
  · exact Keeps.pure _
  · exact perform_keeps hr _
  · refine Keeps.bind Keeps.get fun _ => ?_
    split
    · exact Keeps.ite _ (Keeps.bind (pin_inert _).sched fun _ =>
        Keeps.bind (callHooks_keeps hr _) fun _ => unhold_inert.sched) (Keeps.pure _)
    · exact Keeps.pure _

theorem afterRender_keeps (w : WatcherId) : Keeps (Sched L ongoing outer) (afterRender r w) := by
  refine Keeps.bind Keeps.get fun _ => ?_
  split
  · exact Keeps.ite _ (Keeps.bind (pin_inert _).sched fun _ =>
      Keeps.bind (callHooks_keeps hr _) fun _ => unhold_inert.sched) (Keeps.pure _)
  · exact Keeps.pure _

theorem evaluateWith_keeps (fuel : Nat) :
    (∀ w, Keeps (Sched L ongoing outer) (evaluateWith r fuel w)) ∧
    (∀ g s, Keeps (Sched L ongoing outer) (getterValue r fuel g s)) ∧
    (∀ s name, Keeps (Sched L ongoing outer) (lookupWith r fuel s name)) ∧
    ∀ w, Keeps (Sched L ongoing outer) (computedWith r fuel w) := by
  induction fuel with
  | zero =>
    exact ⟨fun _ => Keeps.halt _, fun _ _ => Keeps.halt _, fun _ _ => Keeps.halt _,
      fun _ => Keeps.halt _⟩
  | succ fuel ih =>
    obtain ⟨heval, hget, hlook, hcomp⟩ := ih
    refine ⟨fun w => ?_, fun g s => ?_, fun s name => ?_, fun w => ?_⟩
    · unfold evaluateWith
      refine Keeps.bind Keeps.get fun m => ?_
      extract_lets cell scope tail body
      -- the tail closes the frame, reconciles and hands the result back
      have htail : ∀ res, Keeps (Sched L ongoing outer) (tail res) := by
        intro res
        dsimp -zeta only [tail]
        extract_lets finish close
        have hfinish : ∀ u, Keeps (Sched L ongoing outer) (finish u) := by
          intro u
          dsimp -zeta only [finish]
          split
          · exact Keeps.pure _
          · exact Keeps.fault _
        have hclose : ∀ u, Keeps (Sched L ongoing outer) (close u) := fun _ =>
          Keeps.bind leave_inert.sched fun _ => Keeps.bind (reconcile_inert w).sched fun _ =>
            Keeps.ite _ (Keeps.bind unhold_inert.sched hfinish) (hfinish ())
        refine Keeps.ite _ ?_ (hclose ())
        split
        · exact Keeps.bind (traverse_inert _).sched hclose
        · exact hclose ()
      have hbody : ∀ u, Keeps (Sched L ongoing outer) (body u) := by
        intro u
        dsimp -zeta only [body]
        refine Keeps.bind (enter_inert _).sched fun _ =>
          Keeps.bind (Keeps.attempt (hget _ _)) fun res => ?_
        split
        · exact Keeps.ite _ (Keeps.bind (handleError_keeps hr _ _ _) fun _ =>
            Keeps.bind (Keeps.pure _) htail) (Keeps.bind (Keeps.pure _) htail)
        · exact Keeps.bind (Keeps.pure _) htail
      dsimp -zeta only [scope]
      split
      · exact Keeps.bind (pin_inert _).sched hbody
      · exact hbody ()
    · unfold getterValue
      split
      · exact hr _ _ _ _ _
      · exact Keeps.bind (hr _ _ _ _ _) fun _ => Keeps.pure _
      · exact Keeps.pure _
      · split
        · exact Keeps.pure _
        · exact Keeps.pure _
        · exact Keeps.bind (hlook _ _) fun _ => Keeps.bind (Keeps.forIn_list fun _ _ =>
            Keeps.bind (member_inert _ _).sched fun _ => Keeps.pure _) fun _ => Keeps.pure _
    · unfold lookupWith
      refine Keeps.bind Keeps.get fun _ => Keeps.bind (hasOwn_inert _ _).sched fun _ => ?_
      refine Keeps.ite _ (objGet_inert _ _).sched ?_
      refine Keeps.bind (hasOwn_inert _ _).sched fun _ => Keeps.ite _ (objGet_inert _ _).sched ?_
      split
      · exact hcomp _
      · exact Keeps.pure _
    · unfold computedWith
      refine Keeps.bind Keeps.get fun _ => ?_
      extract_lets value read
      have hvalue : ∀ u, Keeps (Sched L ongoing outer) (value u) := fun _ =>
        Keeps.bind Keeps.get fun _ => Keeps.pure _
      have hread : ∀ u, Keeps (Sched L ongoing outer) (read u) := fun _ =>
        Keeps.bind target_inert.sched fun _ =>
          Keeps.ite _ (Keeps.bind (dependOn_inert w).sched hvalue) (hvalue ())
      exact Keeps.ite _ (Keeps.bind (heval w) fun _ =>
        Keeps.bind (modifyWatcher_inert _ _).sched hread) (hread ())

theorem evaluate_keeps (w : WatcherId) : Keeps (Sched L ongoing outer) (evaluate r w) :=
  (evaluateWith_keeps hr _).1 w

theorem run_keeps (w : WatcherId) : Keeps (Sched L ongoing outer) (run r w) := by
  refine Keeps.bind Keeps.get fun _ => Keeps.ite _ (Keeps.pure _) ?_
  refine Keeps.bind (evaluate_keeps hr w) fun _ => Keeps.bind Keeps.get fun _ =>
    Keeps.ite _ (Keeps.pure _) (Keeps.bind (modifyWatcher_inert _ _).sched fun _ => ?_)
  split
  · exact Keeps.pure _
  · refine Keeps.bind (Keeps.attempt (untracked_keeps Sched.framed (hr _ _ _ _ _))) fun res => ?_
    split
    · exact Keeps.pure _
    · exact Keeps.ite _ (Keeps.bind Keeps.get fun _ => handleError_keeps hr _ _ _) (Keeps.fault _)

end Host

end Eff

end Reactivity

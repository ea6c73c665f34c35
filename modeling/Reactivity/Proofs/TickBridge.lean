import Reactivity.Proofs.Context
import Reactivity.Proofs.Operations
import Reactivity.Proofs.Scheduler
import Reactivity.Proofs.Sure

/-!
# The tick bridge

Jobs submitted to the tick batch wait until the host ticks. A tick takes the batch as it finds
it and runs its jobs in submission order, each to its end, while jobs submitted meanwhile
collect in a fresh batch for the next tick (`Eff.tick_eq`). No job ends with a fault: the fault
of a callback is routed with the description `nextTick`, so a batch always goes on to its next
job. `drain` ticks until a tick leaves nothing pending (`Eff.Drains`).

A settled signal is one more job, put behind every job pending when it is asked for. It is
unfired exactly while that job waits, in the batch or among the jobs still to run of the ticks
under way, and then it waits once (`Machine.SignalsWait`).
-/

namespace Reactivity

variable {η : Type}

namespace Eff

variable {r : Runner η}

/-! ## A tick runs its batch -/

/-- Runs the jobs of a batch in order, each to its end. -/
def runBatch (r : Runner η) : List TickJob → Eff η Unit
  | [] => pure ()
  | job :: rest => do
    runJob r job
    runBatch r rest

theorem forIn_runJob (jobs : List TickJob) :
    (forIn jobs PUnit.unit fun job _ => do
      runJob r job
      pure (ForInStep.yield PUnit.unit)) = runBatch r jobs := by
  induction jobs with
  | nil => rfl
  | cons job jobs ih =>
    simp only [List.forIn_cons, bind_assoc, pure_bind, runBatch, ih]

/-- A tick empties the batch and runs the jobs it held, in submission order, and returns their
number; the jobs submitted while they run wait in the new batch. -/
theorem tick_eq (r : Runner η) : tick r = (do
    let m ← get
    modify fun m => { m with ticks := { m.ticks with jobs := #[], armed := .idle } }
    runBatch r m.ticks.jobs.toList
    pure m.ticks.jobs.size) := by
  unfold tick
  congr 1; funext m
  dsimp only
  rw [← Array.forIn_toList, forIn_runJob]

theorem runJob_noFault (r : Runner η) (job : TickJob) : NoFault (runJob r job) := by
  cases job with
  | flush => exact flush_noFault r
  | call c scope =>
    refine NoFault.bind (NoFault.attempt _) fun res => ?_
    split
    · exact NoFault.bind NoFault.get fun _ => handleError_noFault _ _ _ _
    · exact NoFault.pure _
  | signal s => exact NoFault.modify _

theorem runBatch_noFault (r : Runner η) (jobs : List TickJob) : NoFault (runBatch r jobs) := by
  induction jobs with
  | nil => exact NoFault.pure _
  | cons job jobs ih => exact NoFault.bind (runJob_noFault r job) fun _ => ih

theorem tick_noFault (r : Runner η) : NoFault (tick r) := by
  rw [tick_eq]
  exact NoFault.bind NoFault.get fun _ => NoFault.bind (NoFault.modify _) fun _ =>
    NoFault.bind (runBatch_noFault r _) fun _ => NoFault.pure _

theorem runJob_call_fault (c : Closure) (scope : Option ScopeId) {m m' : Machine η} {e : Fault}
    (h : ExceptT.run (r.invoke c .none) m = .ok (.error e, m')) :
    ExceptT.run (runJob r (.call c scope)) m =
      ExceptT.run (handleError r e (scope.bind m'.alive) "nextTick") m' := by
  simp only [runJob]
  rw [exec_bind, exec_attempt, h]
  rfl

/-! ## Draining -/

/-- `k` ticks from `m`, each started with jobs pending, that run `n` jobs in all and leave
nothing pending in `m'`. -/
inductive Drains (r : Runner η) : Nat → Machine η → Nat → Machine η → Prop
  | done {m : Machine η} : m.ticks.jobs = #[] → Drains r 0 m 0 m
  | tick {k n₁ n : Nat} {m m₁ m' : Machine η} : m.ticks.jobs ≠ #[] →
      ExceptT.run (Eff.tick r) m = .ok (.ok n₁, m₁) → Drains r k m₁ n m' →
      Drains r (k + 1) m (n₁ + n) m'

/-- The loop of `drain`, with at most `bound` more ticks and `total` jobs run so far. -/
def drainFrom (r : Runner η) : Nat → Nat → Eff η Nat
  | 0, total => do
    if ← pending then halt .exhausted
    return total
  | bound + 1, total => do
    if !(← pending) then return total
    let n ← tick r
    drainFrom r bound (total + n)

theorem drain_eq (r : Runner η) : drain r = drainFrom r r.fuel 0 := by
  unfold drain
  simp only [Std.Legacy.Range.forIn_eq_forIn_range']
  have hk : [:r.fuel].size = r.fuel := by simp [Std.Legacy.Range.size]
  rw [hk]
  conv_rhs => rw [show r.fuel = (List.range' 0 r.fuel).length by simp]
  generalize List.range' 0 r.fuel = xs
  generalize 0 = total
  -- one turn of the loop per item of the range, from any total so far
  induction xs generalizing total with
  | nil => simp only [List.forIn_nil, pure_bind, List.length_nil, drainFrom]
  | cons x xs ih =>
    simp only [List.forIn_cons, bind_assoc, List.length_cons, drainFrom]
    congr 1; funext pend
    cases pend
    · simp
    · rw [if_neg (by decide), if_neg (by decide)]
      simp only [bind_assoc, pure_bind]
      congr 1; funext n
      exact ih _

theorem Drains.jobs_empty {k n : Nat} {m m' : Machine η} (h : Drains r k m n m') :
    m'.ticks.jobs = #[] := by
  induction h with
  | done he => exact he
  | tick _ _ _ ih => exact ih

theorem drains_zero {n : Nat} {m m' : Machine η} :
    Drains r 0 m n m' ↔ m.ticks.jobs = #[] ∧ n = 0 ∧ m' = m := by
  constructor
  · rintro ⟨he⟩
    exact ⟨he, rfl, rfl⟩
  · rintro ⟨he, rfl, rfl⟩
    exact .done he

theorem drains_succ {k n : Nat} {m m' : Machine η} :
    Drains r (k + 1) m n m' ↔ m.ticks.jobs ≠ #[] ∧ ∃ n₁ m₁ n', ExceptT.run (tick r) m =
      .ok (.ok n₁, m₁) ∧ Drains r k m₁ n' m' ∧ n = n₁ + n' := by
  constructor
  · rintro (_ | ⟨he, ht, hd⟩)
    exact ⟨he, _, _, _, ht, hd, rfl⟩
  · rintro ⟨he, n₁, m₁, n', ht, hd, rfl⟩
    exact .tick he ht hd

theorem drainFrom_iff (r : Runner η) (bound total n : Nat) (m m' : Machine η) :
    ExceptT.run (drainFrom r bound total) m = .ok (.ok n, m') ↔
      ∃ k ≤ bound, ∃ n', n = total + n' ∧ Drains r k m n' m' := by
  induction bound generalizing total m with
  | zero =>
    simp only [drainFrom, exec_pending_bind]
    by_cases he : m.ticks.jobs = #[]
    · -- nothing pending: the loop returns what it has
      rw [if_neg (by simp [he])]
      simp only [exec_pure, Except.ok.injEq, Prod.mk.injEq]
      constructor
      · rintro ⟨rfl, rfl⟩
        exact ⟨0, le_rfl, 0, rfl, .done he⟩
      · rintro ⟨k, hk, n', rfl, hd⟩
        obtain rfl : k = 0 := by omega
        obtain ⟨-, rfl, rfl⟩ := drains_zero.1 hd
        exact ⟨rfl, rfl⟩
    · -- jobs pending and no tick left: the loop halts
      rw [if_pos (by simpa using he), exec_bind, exec_halt]
      constructor
      · intro h
        cases h
      · rintro ⟨k, hk, n', -, hd⟩
        obtain rfl : k = 0 := by omega
        exact absurd (drains_zero.1 hd).1 he
  | succ bound ih =>
    simp only [drainFrom, exec_pending_bind]
    by_cases he : m.ticks.jobs = #[]
    · rw [if_pos (by simp [he])]
      simp only [exec_pure, Except.ok.injEq, Prod.mk.injEq]
      constructor
      · rintro ⟨rfl, rfl⟩
        exact ⟨0, by omega, 0, rfl, .done he⟩
      · rintro ⟨k, hk, n', rfl, hd⟩
        cases k with
        | zero =>
          obtain ⟨-, rfl, rfl⟩ := drains_zero.1 hd
          exact ⟨rfl, rfl⟩
        | succ k => exact absurd he (drains_succ.1 hd).1
    · rw [if_neg (by simpa using he), exec_bind]
      -- one tick, then the loop goes on from where it leaves the state
      rcases ht : ExceptT.run (tick r) m with _ | ⟨_ | n₁, m₁⟩
      · constructor
        · intro h
          cases h
        · rintro ⟨k, hk, n', -, hd⟩
          cases k with
          | zero => exact absurd (drains_zero.1 hd).1 he
          | succ k =>
            obtain ⟨-, _, _, _, ht', -⟩ := drains_succ.1 hd
            rw [ht] at ht'
            cases ht'
      · obtain ⟨_, h⟩ := tick_noFault r m trivial _ _ ht
        cases h
      · dsimp only
        rw [ih]
        constructor
        · rintro ⟨k, hk, n', rfl, hd⟩
          exact ⟨k + 1, by omega, n₁ + n', by omega, .tick he ht hd⟩
        · rintro ⟨k, hk, n', rfl, hd⟩
          cases k with
          | zero => exact absurd (drains_zero.1 hd).1 he
          | succ k =>
            obtain ⟨-, n₂, m₂, n'', ht', hd', rfl⟩ := drains_succ.1 hd
            rw [ht] at ht'
            simp only [Except.ok.injEq, Prod.mk.injEq] at ht'
            obtain ⟨rfl, rfl⟩ := ht'
            exact ⟨k, by omega, n'', by omega, hd'⟩

/-- `drain` returns exactly when ticking from `m` empties the batch within its budget, with the
number of jobs the ticks ran. -/
theorem drain_iff (r : Runner η) (n : Nat) (m m' : Machine η) :
    ExceptT.run (drain r) m = .ok (.ok n, m') ↔ ∃ k ≤ r.fuel, Drains r k m n m' := by
  rw [drain_eq, drainFrom_iff]
  constructor
  · rintro ⟨k, hk, n', rfl, hd⟩
    exact ⟨k, hk, by simpa using hd⟩
  · rintro ⟨k, hk, hd⟩
    exact ⟨k, hk, n, by simp, hd⟩

end Eff

/-! ## Settled signals -/

/-- Whether the job fires signal `s`. -/
def TickJob.fires (s : Nat) : TickJob → Bool
  | .signal t => t == s
  | _ => false

@[simp] theorem TickJob.fires_signal (s t : Nat) : (TickJob.signal t).fires s = (t == s) := rfl

namespace Machine

/-- Each settled signal is unfired exactly while its job waits, and then the job waits once: in
the batch, or among `outer`, the jobs still to run of the ticks under way. -/
def SignalsWait (outer : List TickJob) (m : Machine η) : Prop :=
  ∀ s, (outer ++ m.ticks.jobs.toList).countP (·.fires s) =
    if m.signals[s]? = some false then 1 else 0

theorem SignalsWait.fired_iff {outer : List TickJob} {m : Machine η} (h : m.SignalsWait outer)
    {s : Nat} (hs : s < m.signals.size) :
    m.signals[s]?.getD false = true ↔ (outer ++ m.ticks.jobs.toList).countP (·.fires s) = 0 := by
  rw [h s, Array.getElem?_eq_getElem hs]
  cases m.signals[s] <;> simp

end Machine

/-- `I` looks at nothing but the jobs of the tick batch and the settled signals. -/
def OnBatch (I : Machine η → Prop) : Prop :=
  ∀ m m', m'.ticks.jobs = m.ticks.jobs → m'.signals = m.signals → I m → I m'

namespace OnBatch

variable {I : Machine η → Prop} (hI : OnBatch I)
include hI

theorem offTables : OffTables I := fun m _ _ _ _ _ _ _ hm => hI m _ rfl rfl hm

theorem offQueue : OffQueue I := fun m _ hm => hI m _ rfl rfl hm

theorem eval : Stable.Eval I := hI.offTables.eval fun m _ hm => hI m _ rfl rfl hm

theorem arm : Stays I (Eff.arm : Eff η Armed) := by
  have hwarn : ∀ text, Stays I (Eff.warn text : Eff η Unit) := fun _ =>
    Stays.bind Stays.get fun _ => Stays.ite _ (Stays.modify fun m hm => hI m _ rfl rfl hm)
      (Stays.pure _)
  have hno : ∀ mode, Stays I (Eff.arm.noRuntime mode : Eff η Armed) := by
    intro mode
    unfold Eff.arm.noRuntime
    exact Stays.ite _ (Stays.bind (hwarn _) fun _ => Stays.pure _) (Stays.pure _)
  unfold Eff.arm
  refine Stays.bind_get fun m hm => Sure.ite _ (fun _ => Sure.pure_at _ ⟨_, rfl, hm⟩) fun _ => ?_
  have hrt : ∀ mode, Sure (· = m) (Eff.arm.noRuntime mode : Eff η Armed)
      fun r m' => ∃ a, r = .ok a ∧ I m' := fun mode _ e => e ▸ hno mode m hm
  split
  · refine Sure.ite _ (fun _ => ?_) fun _ => hrt _
    intro _ e
    rw [e, Eff.exec_setOf_bind]
    exact ⟨_, _, rfl, _, rfl, hI m _ rfl rfl hm⟩
  · exact hrt _

end OnBatch

namespace Eff

variable {r : Runner η}

theorem nextTick_batch (job : TickJob) (J : Array TickJob) (S : Array Bool) :
    Sure (fun m => m.ticks.jobs = J ∧ m.signals = S) (nextTick job : Eff η Unit)
      fun r m => ∃ a, r = .ok a ∧ m.ticks.jobs = J.push job ∧ m.signals = S := by
  have hI : OnBatch fun m : Machine η => m.ticks.jobs = J.push job ∧ m.signals = S :=
    fun _ _ hj hs h => ⟨hj.trans h.1, hs.trans h.2⟩
  refine Sure.intro fun m ⟨hj, hs⟩ => Sure.modify_bind (Sure.conseq (Stays.bind Stays.get fun _ =>
    Stays.ite _ (Stays.bind hI.arm fun _ => Stays.modify fun _ h => hI _ _ rfl rfl h)
      (Stays.pure _)) ?_ fun _ _ h => h)
  rintro _ rfl
  exact ⟨by simp [hj], hs⟩

theorem settledSignal_run (m : Machine η) :
    ∃ m', ExceptT.run settledSignal m = .ok (.ok m.signals.size, m') ∧
      m'.ticks.jobs = m.ticks.jobs.push (.signal m.signals.size) ∧
      m'.signals = m.signals.push false := by
  obtain ⟨_, m', hrun, _, rfl, hj, hs⟩ := nextTick_batch (η := η) (.signal m.signals.size)
    m.ticks.jobs (m.signals.push false) { m with signals := m.signals.push false } ⟨rfl, rfl⟩
  refine ⟨m', ?_, hj, hs⟩
  simp only [settledSignal, exec_get_bind, exec_setOf_bind]
  rw [exec_bind, hrun]
  rfl

/-! ## Settled signals wait for their jobs -/

/-- Host code keeps every settled signal waiting for its job, whatever the jobs under way. -/
def HostKeepsSignals (r : Runner η) : Prop :=
  ∀ outer c a, Keeps (Machine.SignalsWait outer) (r.invoke c a)

end Eff

namespace Machine

variable {outer : List TickJob} {m : Machine η}

theorem signalsWait_onBatch (outer : List TickJob) : OnBatch (η := η) (SignalsWait outer) := by
  intro m m' hj hs h s
  rw [hj, hs]
  exact h s

theorem signalsWait_cons {job : TickJob} (hjob : ∀ s, job.fires s = false) :
    m.SignalsWait (job :: outer) ↔ m.SignalsWait outer := by
  simp [SignalsWait, hjob]

theorem SignalsWait.take (h : m.SignalsWait outer) :
    ({ m with ticks := { m.ticks with jobs := #[], armed := .idle } } : Machine η).SignalsWait
      (m.ticks.jobs.toList ++ outer) := by
  intro s
  rw [← h s]
  simp [List.countP_append, Nat.add_comm]

theorem SignalsWait.fire {s : Nat} (h : m.SignalsWait (.signal s :: outer)) :
    ({ m with signals := m.signals.setIfInBounds s true } : Machine η).SignalsWait outer := by
  intro t
  have ht := h t
  rw [List.cons_append, List.countP_cons, TickJob.fires_signal] at ht
  show (outer ++ m.ticks.jobs.toList).countP (·.fires t) =
    if (m.signals.setIfInBounds s true)[t]? = some false then 1 else 0
  by_cases e : s = t
  · -- the job waited, so its signal was unfired and no other job waits for it
    subst e
    rw [beq_self_eq_true, if_pos rfl] at ht
    have hs : m.signals[s]? = some false := by
      by_contra hn
      rw [if_neg hn] at ht
      omega
    rw [if_pos hs] at ht
    obtain ⟨hlt, -⟩ := Array.getElem?_eq_some_iff.1 hs
    rw [Array.getElem?_setIfInBounds_self_of_lt hlt]
    simpa using ht
  · rw [Array.getElem?_setIfInBounds_ne e]
    simpa [e] using ht

end Machine

namespace Eff

open Machine

variable {r : Runner η} (hr : HostKeepsSignals r)
include hr

theorem runJob_signalsWait (job : TickJob) (outer : List TickJob) :
    Triple (SignalsWait (job :: outer)) (runJob r job) fun _ => SignalsWait (η := η) outer := by
  have hI := signalsWait_onBatch (η := η) outer
  cases job with
  | flush =>
    exact Triple.conseq (hI.eval.flush (hr outer) hI.offQueue)
      (fun _ hm => (signalsWait_cons fun _ => rfl).1 hm) fun _ _ h => h
  | call c scope =>
    refine Triple.conseq (Keeps.bind (Keeps.attempt (hr outer c .none)) fun res => ?_)
      (fun _ hm => (signalsWait_cons fun _ => rfl).1 hm) fun _ _ h => h
    split
    · exact Keeps.bind Keeps.get fun _ => hI.eval.handleError (hr outer) _ _ _
    · exact Keeps.pure _
  | signal s => exact Triple.modify _ fun _ hm => hm.fire

theorem runBatch_signalsWait (jobs outer : List TickJob) :
    Triple (SignalsWait (jobs ++ outer)) (runBatch r jobs) fun _ => SignalsWait (η := η) outer := by
  induction jobs with
  | nil => exact Keeps.pure _
  | cons job jobs ih =>
    exact Triple.bind_ok (Triple.conseq (Triple.and (runJob_signalsWait hr job _)
      (Triple.conseq (runJob_noFault r job) (fun _ _ => trivial) fun _ _ h => h))
      (fun _ h => h) fun _ _ ⟨hw, a, ha⟩ => ⟨a, ha, hw⟩) fun _ => ih

theorem tick_signalsWait (outer : List TickJob) : Keeps (SignalsWait (η := η) outer) (tick r) := by
  rw [tick_eq]
  refine Keeps.bind_get fun m hm => ?_
  have htake : Triple (· = m)
      (modify fun m => { m with ticks := { m.ticks with jobs := #[], armed := .idle } } : Eff η Unit)
      fun res m' => ∃ a, res = .ok a ∧ m'.SignalsWait (m.ticks.jobs.toList ++ outer) :=
    Triple.modify _ fun _ e => ⟨(), rfl, by subst e; exact hm.take⟩
  refine Triple.bind_ok htake fun _ => ?_
  exact Triple.bind (runBatch_signalsWait hr _ outer) (fun _ => Keeps.pure _) fun _ _ h => h

theorem drainFrom_signalsWait (outer : List TickJob) (bound total : Nat) :
    Keeps (SignalsWait (η := η) outer) (drainFrom r bound total) := by
  induction bound generalizing total with
  | zero =>
    refine Keeps.bind Stable.pending fun _ => ?_
    dsimp only
    exact Keeps.ite _ (Keeps.bind (Keeps.halt _) fun _ => Keeps.pure _) (Keeps.pure _)
  | succ bound ih =>
    exact Keeps.bind (Stable.pending) fun _ => Keeps.ite _ (Keeps.pure _)
      (Keeps.bind (tick_signalsWait hr outer) fun _ => ih _)

theorem drain_signalsWait (outer : List TickJob) : Keeps (SignalsWait (η := η) outer) (drain r) := by
  rw [drain_eq]
  exact drainFrom_signalsWait hr outer _ _

omit hr in
theorem nextTick_signalsWait {job : TickJob} (hjob : ∀ s, job.fires s = false)
    (outer : List TickJob) : Keeps (SignalsWait (η := η) outer) (nextTick job) := by
  intro m hm res m' hrun
  obtain ⟨_, m₁, hrun₁, _, -, hj, hs⟩ := nextTick_batch (η := η) job m.ticks.jobs m.signals m
    ⟨rfl, rfl⟩
  rw [hrun₁] at hrun
  cases hrun
  intro s
  rw [hj, hs, Array.toList_push, ← List.append_assoc, List.countP_append, hm s]
  simp [hjob]

omit hr in
theorem settledSignal_signalsWait (outer : List TickJob) :
    Keeps (SignalsWait (η := η) outer) settledSignal := by
  intro m hm res m' hrun
  obtain ⟨m₁, hrun₁, hj, hs⟩ := settledSignal_run m
  rw [hrun₁] at hrun
  cases hrun
  intro s
  rw [hj, hs, Array.toList_push, ← List.append_assoc, List.countP_append, hm s]
  by_cases e : m.signals.size = s
  · subst e
    simp
  · rw [Array.getElem?_push, if_neg (Ne.symm e)]
    simp [e]

/-- A drain at the top level returns with every settled signal fired. -/
theorem drain_fires_all {n : Nat} {m m' : Machine η} (hm : m.SignalsWait [])
    (h : ExceptT.run (drain r) m = .ok (.ok n, m')) (s : Nat) (hs : s < m'.signals.size) :
    m'.signals[s]?.getD false = true := by
  have hw : m'.SignalsWait [] := drain_signalsWait hr [] m hm _ m' h
  obtain ⟨k, -, hd⟩ := (drain_iff r n m m').1 h
  rw [hw.fired_iff hs, hd.jobs_empty]
  rfl

end Eff

/-- The tick bridge. A tick empties the batch before it runs the jobs it took, in submission
order, each to its end: no job ends with a fault, and the fault of a callback is routed with
the description `nextTick`. `drain` returns exactly when ticking empties the batch within its
budget. With host code that keeps settled signals waiting, ticks, drains and submissions keep
every settled signal unfired exactly while its job waits, in the batch or behind a tick under
way, so a drain at the top level returns with every signal fired. -/
structure TickBridge (r : Runner η) : Prop where
  tick : Eff.tick r = (do
    let m ← get
    modify fun m => { m with ticks := { m.ticks with jobs := #[], armed := .idle } }
    Eff.runBatch r m.ticks.jobs.toList
    pure m.ticks.jobs.size)
  noFault : ∀ job, NoFault (Eff.runJob r job)
  callFault : ∀ c scope (m m' : Machine η) e, ExceptT.run (r.invoke c .none) m = .ok (.error e, m') →
    ExceptT.run (Eff.runJob r (.call c scope)) m =
      ExceptT.run (Eff.handleError r e (scope.bind m'.alive) "nextTick") m'
  drain : ∀ n (m m' : Machine η),
    ExceptT.run (Eff.drain r) m = .ok (.ok n, m') ↔ ∃ k ≤ r.fuel, Eff.Drains r k m n m'
  settled : ∀ m : Machine η, ∃ m', ExceptT.run Eff.settledSignal m = .ok (.ok m.signals.size, m') ∧
    m'.ticks.jobs = m.ticks.jobs.push (.signal m.signals.size) ∧ m'.signals = m.signals.push false
  waits : Eff.HostKeepsSignals r → ∀ outer,
    Keeps (Machine.SignalsWait outer) (Eff.tick r) ∧ Keeps (Machine.SignalsWait outer) (Eff.drain r) ∧
    Keeps (Machine.SignalsWait outer) (Eff.settledSignal : Eff η Nat) ∧
    ∀ c scope, Keeps (Machine.SignalsWait outer) (Eff.nextTick (.call c scope) : Eff η Unit)
  drained : Eff.HostKeepsSignals r → ∀ n (m m' : Machine η), m.SignalsWait [] →
    ExceptT.run (Eff.drain r) m = .ok (.ok n, m') →
    ∀ s < m'.signals.size, m'.signals[s]?.getD false = true

theorem tick_bridge (r : Runner η) : TickBridge r where
  tick := Eff.tick_eq r
  noFault := Eff.runJob_noFault r
  callFault _ _ _ _ _ h := Eff.runJob_call_fault _ _ h
  drain := Eff.drain_iff r
  settled := Eff.settledSignal_run
  waits hr outer := ⟨Eff.tick_signalsWait hr outer, Eff.drain_signalsWait hr outer,
    Eff.settledSignal_signalsWait outer, fun _ _ => Eff.nextTick_signalsWait (fun _ => rfl) outer⟩
  drained hr _ _ _ hm h := Eff.drain_fires_all hr hm h

/-- Host code whose closure `0` asks for a settled signal and then ticks, and whose other
closures record whether signal `0` has fired. -/
def nestedTicker : Runner (List Bool) where
  invoke c _ :=
    if c = 0 then do
      let _ ← Eff.settledSignal
      let _ ← Eff.tick ⟨fun _ _ => pure .undefined, 0⟩
      pure .undefined
    else do
      modify fun m => { m with host := m.host ++ [m.signals[0]?.getD false] }
      pure .undefined
  fuel := 1

/-- A batch of two callbacks, closures `0` and `1`, and no settled signal yet. -/
def twoCallbacks : Machine (List Bool) :=
  { ticks := { jobs := #[.call 0 none, .call 1 none] }, host := [] }

/-- A tick started inside a callback runs the job of a signal asked for there before the
callback submitted ahead of it: the second callback finds the signal fired. -/
theorem signal_overtakes_outer_job :
    ∃ m', ExceptT.run (Eff.tick nestedTicker) twoCallbacks = .ok (.ok 2, m') ∧ m'.host = [true] :=
  ⟨_, rfl, rfl⟩

end Reactivity

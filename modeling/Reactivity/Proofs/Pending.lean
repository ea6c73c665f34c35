import Reactivity.Proofs.Runaway
import Reactivity.Script.Ticks

/-!
# What becomes of a queued watcher

A host drives the scheduler through its operations (`Op`), host code among them, and reaches
the states `Reachable` from one with nothing queued. Every operation keeps the scheduler
invariant at every depth, so in every reachable state the queue is at rest, holds distinct
watchers, exactly those marked queued, and has its flush owed in the tick batch.

From this, a walk takes each watcher as the least of those still to come, and picks every
watcher queued at any of its steps before it ends; a flush picks every watcher queued when it
starts, in an order that does not depend on how they were queued; a drain that returns leaves
nothing queued; and an enqueue that flushes at once runs a flush that picks the watcher.
-/

namespace Reactivity

variable {η : Type}

/-- An operation of the scheduler, as the host calls it. -/
inductive Op where
  | notify (d : DepId)
  | update (w : WatcherId)
  | enqueue (w : WatcherId)
  | flush
  | nextTick (c : Closure) (scope : Option ScopeId)
  | tick
  | drain
  | runRound
  | awaitSignal (s : Nat)
  | settledSignal
  | configure (c : Config)
  /-- host code, which reaches the engine only through these operations -/
  | invoke (c : Closure) (a : Args)

/-- What an operation runs. -/
def Op.run (r : Runner η) : Op → Eff η Unit
  | .notify d => Eff.notify r d
  | .update w => Eff.update r w
  | .enqueue w => Eff.enqueue r w
  | .flush => Eff.flush r
  | .nextTick c scope => Eff.nextTick (.call c scope)
  | .tick => do let _ ← Eff.tick r
  | .drain => do let _ ← Eff.drain r
  | .runRound => Eff.runRound r
  | .awaitSignal s => do let _ ← Eff.awaitSignal r s
  | .settledSignal => do let _ ← Eff.settledSignal
  | .configure c => modify fun m => { m with config := c }
  | .invoke c a => do let _ ← r.invoke c a

/-- The states a host reaches from one with nothing queued, by operations of the scheduler; an
operation that ends with a fault leaves its state too. -/
inductive Reachable (r : Runner η) : Machine η → Prop
  | init {m : Machine η} : m.queue = {} → Reachable r m
  | step {m m' : Machine η} (op : Op) {res : Except Fault Unit} :
      Reachable r m → ExceptT.run (op.run r) m = .ok (res, m') → Reachable r m'

variable {L : Nat} {ongoing : Option (List WatcherId × List WatcherId)} {outer : List TickJob}
  {picked floor : List WatcherId}

theorem FlushQueue.Steady.mem_has {q : FlushQueue} {rest : List WatcherId} {w : WatcherId}
    (h : q.Steady L (some (picked, picked ++ rest))) (hw : w ∈ rest) : w ∈ q.has := by
  obtain ⟨-, -, ⟨rest', hr⟩, hfloor⟩ := h
  rw [hr.queue, List.append_sublist_append_left] at hfloor
  exact (hr.mem_has w).2 (hfloor.subset hw)

theorem queuedCount_eq (m : Machine Registry) :
    ExceptT.run Script.queuedCount m = .ok (.ok m.queue.pending.length, m) := by
  have h : ExceptT.run Script.queuedCount m = .ok (.ok (if m.queue.flushing then
      m.queue.queue.size - (m.queue.index + 1) else m.queue.queue.size), m) := rfl
  rw [h, FlushQueue.pending]
  split <;> simp

namespace Eff

theorem enqueue_queued (r : Runner η) (w : WatcherId) :
    Triple (fun m => m.queue.flushing = true ∧ w ∉ m.queue.dropped) (enqueue r w)
      fun _ m => w ∈ m.queue.has := by
  unfold enqueue
  refine Triple.bind_get fun m ⟨hf, hd⟩ => ?_
  intro m₁ hm₁ res m' hrun
  subst m₁
  by_cases hc : (m.queue.has.contains w || m.queue.dropped.contains w) = true
  · rw [if_pos hc, exec_pure] at hrun
    cases hrun
    simpa [hd] using hc
  · rw [if_neg hc, exec_modify_bind] at hrun
    -- the watcher is queued now; asking for a flush leaves it so, as a flush returns at once
    by_cases hw : m.queue.waiting = true
    · rw [if_pos hw, exec_pure] at hrun
      cases hrun
      exact List.mem_cons_self
    · rw [if_neg hw, exec_modify_bind, exec_get_bind] at hrun
      by_cases ha : m.config.asyncFlush = true
      · rw [if_pos ha] at hrun
        exact (nextTick_queue .flush fun q => w ∈ q.has).of_run hrun List.mem_cons_self
      · rw [if_neg ha] at hrun
        simp only [flush_flushing, hf] at hrun
        cases hrun
        exact List.mem_cons_self

theorem enqueue_sync (r : Runner η) {m : Machine η} {w : WatcherId}
    (hf : m.queue.flushing = false) (hw : m.queue.waiting = false)
    (ha : m.config.asyncFlush = false) (hn : w ∉ m.queue.has) (hd : w ∉ m.queue.dropped) :
    ExceptT.run (enqueue r w) m = ExceptT.run (flush r) { m with queue := { m.queue with
      has := w :: m.queue.has, queue := m.queue.queue.push w, waiting := true } } := by
  unfold enqueue
  simp [hf, hw, ha, hn, hd]

end Eff

theorem Walking.pick_least {m : Machine η} {w : WatcherId} {s : Step} {q : FlushQueue}
    (hm : Walking L picked floor m) (hp : m.queue.pick L = some (w, s, q)) :
    ∀ x ∈ q.pending, w < x := by
  obtain ⟨hf, hi, ⟨rest, hw⟩, -⟩ := hm
  cases rest with
  | nil => rw [(hw.pick_eq_none hi).2 rfl] at hp; cases hp
  | cons w₀ rest =>
    obtain ⟨q₀, hp₀, hq₀, -, hindex, hflushing, -⟩ := hw.pick hi
    rw [hp₀, Option.some.injEq, Prod.mk.injEq, Prod.mk.injEq] at hp
    obtain ⟨rfl, -, rfl⟩ := hp
    rw [hq₀.pending (hflushing.trans hf) (by simp [hindex, hi])]
    exact (List.pairwise_cons.1 hw.sorted).1

section Host

variable {r : Runner η} (hr : HostKeeps r)
include hr

theorem Op.keeps (op : Op) : Keeps (Sched L ongoing outer) (op.run r) := by
  cases op with
  | notify d => exact Eff.notify_keeps hr d
  | update w => exact Eff.update_keeps hr w
  | enqueue w => exact Eff.enqueue_keeps hr w
  | flush => exact Triple.conseq (Eff.flush_spec hr) (fun _ h => h.1) fun _ _ h => h.2
  | nextTick c scope => exact Eff.nextTick_keeps _
  | tick => exact Keeps.bind (Eff.tick_keeps hr) fun _ => Keeps.pure _
  | drain =>
    exact Keeps.bind (Triple.conseq (Eff.drain_spec hr) (fun _ h => h) fun _ _ ⟨_, _, h, _⟩ => h)
      fun _ => Keeps.pure _
  | runRound => exact Eff.runRound_keeps hr
  | awaitSignal s => exact Keeps.bind (Eff.awaitSignal_keeps hr s) fun _ => Keeps.pure _
  | settledSignal => exact Keeps.bind Eff.settledSignal_keeps fun _ => Keeps.pure _
  | configure c => exact Keeps.modify fun _ h => h
  | invoke c a => exact Keeps.bind (hr _ _ _ c a) fun _ => Keeps.pure _

theorem Reachable.sched {m : Machine η} (h : Reachable r m) (L : Nat) : Sched L none [] m := by
  induction h with
  | init hq => exact Sched.of_not_waiting (by rw [hq]; exact ⟨rfl, .empty⟩) (by rw [hq])
  | step op _ hrun ih => exact (op.keeps hr).of_run hrun ih

namespace Eff

theorem Walk.floor_picked {m m' : Machine η} {t : List (WatcherId × Step)} (h : Walk r L m t m')
    (hm : Walking L picked floor m) (hend : m'.queue.pick L = none) :
    m'.queue.queue.toList = picked ++ t.map Prod.fst ∧
      floor.Sublist (picked ++ t.map Prod.fst) := by
  obtain ⟨⟨-, hi, ⟨rest, hw⟩, hfloor⟩, -⟩ := h.walking hr hm
  obtain rfl := (hw.pick_eq_none hi).1 hend
  rw [hw.queue, List.append_nil] at hfloor ⊢
  exact ⟨rfl, hfloor⟩

theorem Walk.picks_queued {m m' : Machine η} {t : List (WatcherId × Step)} (h : Walk r L m t m')
    (hm : Walking L picked floor m) (hend : m'.queue.pick L = none) {w : WatcherId}
    (hw : w ∈ m.queue.has) : w ∈ t.map Prod.fst := by
  obtain ⟨hf, hi, ⟨rest, hwk⟩, -⟩ := hm
  -- walk again from here with the queue itself as the floor
  have hm' : Walking L picked m.queue.queue.toList m := ⟨hf, hi, ⟨rest, hwk⟩, .refl _⟩
  have hsub := (h.floor_picked hr hm' hend).2
  rw [hwk.queue, List.append_sublist_append_left] at hsub
  exact hsub.subset ((hwk.mem_has w).1 hw)

theorem flush_picks {m m' : Machine η} {res : Except Fault Unit} (hm : m.queue.Steady L ongoing)
    (hs : (m.queue.flushing || m.queue.queue.isEmpty) = false)
    (h : ExceptT.run (flush r) m = .ok (res, m')) :
    ∃ t m₁, Walk r m.config.maxUpdateCount { m with queue := m.queue.start } t m₁ ∧
      t.map Prod.fst = m₁.queue.queue.toList ∧ m.queue.sorted.Sublist (t.map Prod.fst) ∧
      Labelled m.config.maxUpdateCount [] t := by
  rcases flush_run hr hm h with ⟨hc, -⟩ | ⟨rfl, t, m₁, ht, hend, -⟩
  · rw [hs] at hc
    cases hc
  · have hstart := (Walking.start m.config.maxUpdateCount hm hm.1).2
    obtain ⟨hq, hsub⟩ := ht.floor_picked hr hstart hend
    rw [List.nil_append] at hq hsub
    exact ⟨t, m₁, ht, hq.symm, hsub, (ht.walking hr hstart).2⟩

theorem drain_empties {m m' : Machine η} {res : Except Fault Nat} (hm : Reachable r m)
    (h : ExceptT.run (drain r) m = .ok (res, m')) :
    m'.queue.queue = #[] ∧ m'.queue.waiting = false := by
  obtain ⟨_, -, ⟨⟨hf, hi⟩, ho⟩, hj⟩ := (drain_spec hr).of_run h (hm.sched hr 0)
  -- the batch is empty, so no flush is owed, so nothing is queued
  have hw : m'.queue.waiting = false := by
    cases hwt : m'.queue.waiting
    · rfl
    · simpa [hj] using ho hf hwt
  have hq := mt hi.waiting.2 (by simp [hw])
  exact ⟨by simpa using hq, hw⟩

end Eff

theorem Op.keeps_queued (op : Op) {w : WatcherId} :
    Triple (fun m => Sched L (some (picked, floor)) outer m ∧ w ∈ m.queue.has) (op.run r)
      fun _ m => w ∈ m.queue.has := by
  rintro m ⟨⟨⟨hf, hl, ⟨rest, hwk⟩, -⟩, ho⟩, hw⟩ res m' hrun
  -- run the operation again with the queue itself as the floor
  have hs : Sched L (some (picked, picked ++ rest)) outer m :=
    ⟨⟨hf, hl, ⟨rest, hwk⟩, by rw [hwk.queue]⟩, ho⟩
  exact ((op.keeps hr).of_run hrun hs).1.mem_has ((hwk.mem_has w).1 hw)

end Host

/-! ## The order of the queue -/

/-- What the queue promises about the order and the count of its pending watchers. -/
structure QueueOrder (r : Runner Registry) : Prop where
  /-- in every reachable state the pending watchers are distinct, exactly those marked queued -/
  reachable : ∀ m, Reachable r m →
    m.queue.pending.Nodup ∧ ∀ w, w ∈ m.queue.has ↔ w ∈ m.queue.pending
  /-- every operation, at every depth, keeps this, and while a flush runs the pending watchers
  are in order of creation -/
  ops : ∀ (op : Op) L ongoing outer, Triple (Sched L ongoing outer) (op.run r) fun _ m =>
    Sched L ongoing outer m ∧ m.queue.pending.Nodup ∧
      (∀ w, w ∈ m.queue.has ↔ w ∈ m.queue.pending) ∧
      (m.queue.flushing = true → m.queue.pending.Pairwise (· < ·))
  /-- each pick takes the least watcher still to come -/
  pick_least : ∀ L picked floor (m : Machine Registry) w s q, Walking L picked floor m →
    m.queue.pick L = some (w, s, q) → ∀ x ∈ q.pending, w < x
  /-- a flush picks each entry of its queue once, those queued when it starts in order of
  creation, and its first pick of a watcher is the first step of the guard: a run when the
  limit is at least 1, a runaway report when it is 0 -/
  flush : ∀ m res m', Reachable r m → m.queue.queue ≠ #[] →
    ExceptT.run (Eff.flush r) m = .ok (res, m') →
    ∃ t m₁, Eff.Walk r m.config.maxUpdateCount { m with queue := m.queue.start } t m₁ ∧
      t.map Prod.fst = m₁.queue.queue.toList ∧ m.queue.sorted.Sublist (t.map Prod.fst) ∧
      ∀ t₁ w s t₂, t = t₁ ++ (w, s) :: t₂ → w ∉ t₁.map Prod.fst →
        s = pickStep m.config.maxUpdateCount 1
  /-- the walk does not depend on the order the watchers were queued in -/
  order_free : ∀ m m', Reachable r m → Reachable r m' →
    m.queue.queue.toList.Perm m'.queue.queue.toList → m.queue.start.queue = m'.queue.start.queue
  /-- the count of queued watchers is the number of distinct pending watchers -/
  queued_count : ∀ L ongoing outer (m : Machine Registry), Sched L ongoing outer m →
    ExceptT.run Script.queuedCount m = .ok (.ok m.queue.pending.dedup.length, m)

theorem queue_order (r : Runner Registry) (hr : HostKeeps r) : QueueOrder r where
  reachable m hm :=
    have h := (hm.sched hr 0).1.pending
    ⟨h.1, h.2.1⟩
  ops op _ _ _ m hm res m' hrun :=
    have h := (op.keeps hr).of_run hrun hm
    ⟨h, h.1.pending⟩
  pick_least _ _ _ _ _ _ _ hm hp := hm.pick_least hp
  flush m res m' hm hne hrun := by
    have hs := (hm.sched hr 0).1
    obtain ⟨t, m₁, ht, hq, hsub, hl⟩ := Eff.flush_picks hr hs (by simpa [hs.1] using hne) hrun
    refine ⟨t, m₁, ht, hq, hsub, fun t₁ w s t₂ he hw => ?_⟩
    -- the first pick of a watcher counts no pick before it
    rw [hl.eq_pickStep he, List.nil_append, List.count_eq_zero_of_not_mem hw]
  order_free m m' hm hm' hp := by
    show m.queue.sorted.toArray = m'.queue.sorted.toArray
    rw [(hm.sched hr 0).1.2.sorted_eq (hm'.sched hr 0).1.2 hp]
  queued_count _ _ _ m hm := by
    rw [queuedCount_eq, hm.1.pending.1.dedup]

theorem queue_order_quiet :
    HostKeeps (⟨fun _ _ => pure .undefined, 100⟩ : Runner Registry) ∧
      QueueOrder (⟨fun _ _ => pure .undefined, 100⟩ : Runner Registry) :=
  ⟨HostKeeps.quiet 100, queue_order _ (HostKeeps.quiet 100)⟩

/-- At limit 0 a flush never runs the watcher queued alone before it, however the flush ends: it
picks the watcher and reports it as a runaway instead. -/
theorem flush_limit_zero_never_runs :
    (∀ res m', ExceptT.run (Eff.flush (⟨fun _ _ => pure .undefined, 100⟩ : Runner Unit))
        { host := (), config := { maxUpdateCount := 0 },
          queue := { queue := #[⟨0⟩], has := [⟨0⟩], waiting := true } } = .ok (res, m') →
      ∃ t m₁, Eff.Walk ⟨fun _ _ => pure .undefined, 100⟩ 0
          { host := (), config := { maxUpdateCount := 0 },
            queue := ({ queue := #[⟨0⟩], has := [⟨0⟩], waiting := true } : FlushQueue).start }
          t m₁ ∧
        (⟨0⟩ : WatcherId) ∈ t.map Prod.fst ∧ ∀ w, (w, Step.run) ∉ t) ∧
    ∀ e, ExceptT.run (Eff.flush (⟨fun _ _ => pure .undefined, 100⟩ : Runner Unit))
        { host := (), config := { maxUpdateCount := 0 },
          queue := { queue := #[⟨0⟩], has := [⟨0⟩], waiting := true } } = .error e →
      ∃ t m₁, Eff.Walk ⟨fun _ _ => pure .undefined, 100⟩ 0
          { host := (), config := { maxUpdateCount := 0 },
            queue := ({ queue := #[⟨0⟩], has := [⟨0⟩], waiting := true } : FlushQueue).start }
          t m₁ ∧
        ∀ w, (w, Step.run) ∉ t := by
  have hr : HostKeeps (⟨fun _ _ => pure .undefined, 100⟩ : Runner Unit) := HostKeeps.quiet 100
  have hi : ({ queue := #[⟨0⟩], has := [⟨0⟩], waiting := true } : FlushQueue).Idle :=
    ⟨by simp, by simp, by simp, rfl, rfl, rfl, by simp⟩
  have hs : FlushQueue.Steady 0 none
      ({ queue := #[⟨0⟩], has := [⟨0⟩], waiting := true } : FlushQueue) := ⟨rfl, hi⟩
  -- at limit 0 no step of a guarded walk runs its watcher
  have hnone : ∀ t : List (WatcherId × Step), Guarded 0 t → ∀ w, (w, Step.run) ∉ t :=
    fun t hg w hw => by simpa using (List.count_pos_iff.2 hw).trans_le (hg.runs_le w)
  refine ⟨fun res m' h => ?_, fun e h => ?_⟩
  · obtain ⟨t, m₁, ht, -, hsub, -⟩ := Eff.flush_picks hr hs rfl h
    refine ⟨t, m₁, ht, hsub.subset (by simp [FlushQueue.sorted]), ?_⟩
    exact hnone t (ht.guarded hr (Eff.Walking.start 0 hs rfl).2)
  · obtain ⟨-, t, m₁, ht, -⟩ := Eff.flush_halt hr hs h
    exact ⟨t, m₁, ht, hnone t (ht.guarded hr (Eff.Walking.start 0 hs rfl).2)⟩

/-! ## No queued watcher is lost -/

/-- What the scheduler promises a queued watcher. -/
structure NotLost (r : Runner η) : Prop where
  /-- in every reachable state no flush runs, and a queue that holds watchers has a flush job
  waiting in the tick batch -/
  reachable : ∀ m, Reachable r m → m.queue.flushing = false ∧
    (m.queue.queue.toList ≠ [] → m.queue.waiting = true ∧ TickJob.flush ∈ m.ticks.jobs.toList)
  /-- at every depth, where no flush runs, a queue that holds watchers has its flush job in the
  batch or among the jobs still to run of the ticks under way -/
  owed : ∀ L ongoing outer (m : Machine η), Sched L ongoing outer m →
    m.queue.flushing = false → m.queue.queue.toList ≠ [] →
    m.queue.waiting = true ∧ TickJob.flush ∈ m.ticks.jobs.toList ++ outer
  /-- inside a walk an enqueue leaves the watcher queued, unless it was dropped -/
  enqueue : ∀ w, Triple (fun m => m.queue.flushing = true ∧ w ∉ m.queue.dropped)
    (Eff.enqueue r w) fun _ m => w ∈ m.queue.has
  /-- inside a walk no operation takes a queued watcher out of the queue -/
  stays : ∀ (op : Op) L picked floor outer w,
    Triple (fun m => Sched L (some (picked, floor)) outer m ∧ w ∈ m.queue.has) (op.run r)
      fun _ m => w ∈ m.queue.has
  /-- a walk that ends picks every watcher queued at any of its step boundaries -/
  walk : ∀ L picked floor (m m' : Machine η) t w, Eff.Walk r L m t m' →
    Walking L picked floor m → m'.queue.pick L = none → w ∈ m.queue.has → w ∈ t.map Prod.fst
  /-- a flush that starts picks every watcher queued then, and a pick runs its watcher unless
  the flush has picked it `L` times already: the next pick reports it as a runaway instead -/
  picks : ∀ m res m', Reachable r m → m.queue.queue ≠ #[] →
    ExceptT.run (Eff.flush r) m = .ok (res, m') →
    ∃ t m₁, Eff.Walk r m.config.maxUpdateCount { m with queue := m.queue.start } t m₁ ∧
      m.queue.sorted.Sublist (t.map Prod.fst) ∧
      ∀ t₁ w s t₂, t = t₁ ++ (w, s) :: t₂ →
        s = pickStep m.config.maxUpdateCount ((t₁.map Prod.fst).count w + 1)
  /-- a drain from a reachable state that returns leaves nothing queued -/
  drain : ∀ m res m', Reachable r m → ExceptT.run (Eff.drain r) m = .ok (res, m') →
    m'.queue.queue = #[] ∧ m'.queue.waiting = false
  /-- in synchronous mode an enqueue that asks for a flush runs it before returning, and the
  flush picks the watcher -/
  sync : ∀ L outer (m : Machine η) res m' w, Sched L none outer m →
    m.config.asyncFlush = false → m.queue.waiting = false → w ∉ m.queue.has →
    ExceptT.run (Eff.enqueue r w) m = .ok (res, m') →
    ∃ t m₁, Eff.Walk r m.config.maxUpdateCount
      { m with
        queue := ({ m.queue with
                    has := w :: m.queue.has
                    queue := m.queue.queue.push w
                    waiting := true } : FlushQueue).start } t m₁ ∧
      w ∈ t.map Prod.fst

theorem enqueue_not_lost {r : Runner η} (hr : HostKeeps r) : NotLost r where
  reachable m hm :=
    have hs := hm.sched hr 0
    ⟨hs.1.1, fun hq => by simpa using hs.owed_flush hs.1.1 hq⟩
  owed _ _ _ _ hs hf hq := hs.owed_flush hf hq
  enqueue w := Eff.enqueue_queued r w
  stays op _ _ _ _ _ := op.keeps_queued hr
  walk _ _ _ _ _ _ _ ht hm hend hw := ht.picks_queued hr hm hend hw
  picks m res m' hm hne hrun := by
    have hs := (hm.sched hr 0).1
    obtain ⟨t, m₁, ht, -, hsub, hl⟩ := Eff.flush_picks hr hs (by simpa [hs.1] using hne) hrun
    refine ⟨t, m₁, ht, hsub, fun t₁ w s t₂ he => ?_⟩
    rw [hl.eq_pickStep he, List.nil_append]
  drain _ _ _ hm h := Eff.drain_empties hr hm h
  sync L outer m res m' w hs ha hw hn h := by
    obtain ⟨⟨hf, hi⟩, -⟩ := hs
    rw [Eff.enqueue_sync r hf hw ha hn (by simp [hi.dropped])] at h
    -- the flush starts on the queue with the watcher pushed
    have hs' : FlushQueue.Steady L none
        ({ m.queue with
           has := w :: m.queue.has
           queue := m.queue.queue.push w
           waiting := true } : FlushQueue) := ⟨hf, hi.push hn⟩
    obtain ⟨t, m₁, ht, -, hsub, -⟩ := Eff.flush_picks hr hs' (by simp [hf]) h
    exact ⟨t, m₁, ht, hsub.subset ((FlushQueue.sorted_perm _).mem_iff.2 (by simp))⟩

/-- Host code that queues a watcher from inside the flush that runs it keeps the promise. -/
theorem enqueue_not_lost_requeue : HostKeeps Eff.requeueHost ∧ NotLost Eff.requeueHost :=
  ⟨Eff.requeueHost_keeps, enqueue_not_lost Eff.requeueHost_keeps⟩

/-- In synchronous mode, an enqueue made while a flush asked for earlier is still owed returns
without flushing: the watcher waits in the queue. -/
theorem enqueue_sync_waits :
    ExceptT.run (Eff.enqueue (⟨fun _ _ => pure .undefined, 0⟩ : Runner Unit) ⟨1⟩)
        { host := ()
          config := { asyncFlush := false }
          queue := { queue := #[⟨0⟩], has := [⟨0⟩], waiting := true }
          ticks := { jobs := #[.flush] } } =
      .ok (.ok (),
        { host := ()
          config := { asyncFlush := false }
          queue := { queue := #[⟨0⟩, ⟨1⟩], has := [⟨1⟩, ⟨0⟩], waiting := true }
          ticks := { jobs := #[.flush] } }) := by
  rfl

end Reactivity

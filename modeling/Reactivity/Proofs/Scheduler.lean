import Reactivity.Proofs.Host

/-!
# The scheduler keeps its invariant

Every operation of the scheduler keeps `Sched`, given host code does: queueing a watcher
(`Eff.enqueue`), telling watchers of a change (`Eff.update`, `Eff.notify`), flushing
(`Eff.flush`), and running the tick batch (`Eff.tick`, `Eff.drain`, the rounds of an
asynchronous runtime).

A flush walks its queue one step at a time (`Eff.flushStep`). Between two steps the queue is
`Walking`: flushing, and positioned just after the watchers picked so far. A step picks the
next watcher and runs it, reports it or passes over it with the queue steady inside the walk,
so the host code it calls sees exactly the walk it runs in. `Eff.Walk` records the steps of a
walk, each with the watcher picked and what was done with it.
-/

namespace Reactivity

variable {η α : Type}

/-- Between two steps of a walk with limit `L` that has picked `picked`, with a queue that
still holds `floor` in order. -/
def Walking (L : Nat) (picked floor : List WatcherId) (m : Machine η) : Prop :=
  m.queue.flushing = true ∧ m.queue.index = picked.length ∧
    (∃ rest, m.queue.Walked L picked rest) ∧ floor.Sublist m.queue.queue.toList

variable {L L' : Nat} {ongoing : Option (List WatcherId × List WatcherId)} {outer : List TickJob}
  {floor : List WatcherId}

theorem Sched.pop {job : TickJob} {m : Machine η} (hj : job ≠ .flush)
    (h : Sched L ongoing (job :: outer) m) : Sched L ongoing outer m := by
  refine ⟨h.1, fun hf hw => ?_⟩
  have := h.2 hf hw
  simp only [List.mem_append, List.mem_cons] at this ⊢
  rcases this with h | h | h
  · exact .inl h
  · exact absurd h.symm hj
  · exact .inr h

theorem Sched.of_flush_mem {m : Machine η} (hs : m.queue.Steady L ongoing)
    (hj : TickJob.flush ∈ m.ticks.jobs.toList) : Sched L ongoing outer m :=
  ⟨hs, fun _ _ => List.mem_append_left _ hj⟩

theorem Sched.owed_flush {m : Machine η} (h : Sched L ongoing outer m)
    (hf : m.queue.flushing = false) (hq : m.queue.queue.toList ≠ []) :
    m.queue.waiting = true ∧ TickJob.flush ∈ m.ticks.jobs.toList ++ outer :=
  have hw := (h.1.idle hf).2.waiting.2 hq
  ⟨hw, h.2 hf hw⟩

theorem Sched.of_not_waiting {m : Machine η} (hs : m.queue.Steady L ongoing)
    (hw : m.queue.waiting = false) : Sched L ongoing outer m :=
  ⟨hs, fun _ h => absurd h (by simp [hw])⟩

theorem Inert.triple {x : Eff η α} (h : Inert x) (m : Machine η) :
    Triple (· = m) x fun _ m' => m'.queue = m.queue ∧ m'.ticks.jobs = m.ticks.jobs :=
  fun _ hm => h m.queue m.ticks.jobs _ (hm ▸ ⟨rfl, rfl⟩)

namespace Eff

/-! ## The tick batch -/

theorem noRuntime_inert (mode : TickMode) : Inert (arm.noRuntime mode : Eff η Armed) := by
  unfold arm.noRuntime
  split
  · exact Inert.bind (warn_inert _) fun _ => Inert.pure _
  · exact Inert.pure _

theorem arm_inert : Inert (arm : Eff η Armed) := by
  refine Inert.bind_get fun m => ?_
  refine Triple.ite _ (fun _ => Triple.pure _ fun _ h => h ▸ ⟨rfl, rfl⟩) fun _ => ?_
  split
  · refine Triple.ite _ (fun _ => ?_) fun _ => (noRuntime_inert _).triple m
    intro _ _ _ _ hr
    simp only [exec_setOf_bind, exec_pure, Except.ok.injEq, Prod.mk.injEq] at hr
    obtain ⟨-, rfl⟩ := hr
    exact ⟨rfl, rfl⟩
  · exact (noRuntime_inert _).triple m

theorem nextTick_arm_inert :
    Inert (do
      if (← MonadState.get).ticks.armed = .idle then
        let a ← arm
        modify fun m => { m with ticks := { m.ticks with armed := a } } : Eff η Unit) :=
  Inert.bind Inert.get fun _ => Inert.ite _
    (Inert.bind arm_inert fun _ => Inert.modify fun _ => ⟨rfl, rfl⟩) (Inert.pure _)

theorem nextTick_keeps (job : TickJob) : Keeps (Sched L ongoing outer) (nextTick job : Eff η Unit) := by
  refine Keeps.bind (Keeps.modify fun m h => ⟨h.1, fun hf hw => ?_⟩) fun _ => nextTick_arm_inert.sched
  have := h.2 hf hw
  simp only [Array.toList_push, List.mem_append] at this ⊢
  rcases this with h | h
  · exact .inl (.inl h)
  · exact .inr h

theorem nextTick_queue (job : TickJob) (P : FlushQueue → Prop) :
    Keeps (fun m => P m.queue) (nextTick job : Eff η Unit) :=
  Keeps.bind (Keeps.modify fun _ h => h) fun _ =>
    nextTick_arm_inert.keeps fun _ _ hq _ h => by rwa [hq]

theorem nextTick_flush :
    Triple (fun m => m.queue.Steady L ongoing) (nextTick .flush : Eff η Unit)
      fun _ => Sched L ongoing outer := by
  have hJ : Framed fun m : Machine η => m.queue.Steady L ongoing ∧ TickJob.flush ∈ m.ticks.jobs.toList :=
    fun m m' hq hj h => by simp only at h ⊢; rw [hq, hj]; exact h
  intro m hm res m' hr
  rw [nextTick, exec_modify_bind] at hr
  obtain ⟨hs, hj⟩ := (nextTick_arm_inert.keeps hJ).of_run hr ⟨hm, by simp⟩
  exact Sched.of_flush_mem hs hj

@[simp] theorem exec_pending_bind {β : Type} (f : Bool → Eff η β) (m : Machine η) :
    ExceptT.run (pending >>= f) m = ExceptT.run (f !m.ticks.jobs.isEmpty) m := by
  rw [exec_bind]; rfl

theorem tasksWaiting_inert : Inert (tasksWaiting : Eff η Bool) :=
  Inert.bind Inert.get fun _ => Inert.pure _

/-! ## One step of a walk -/

theorem takeStep_noFault (r : Runner η) (w : WatcherId) (s : Step) :
    NoFault (takeStep r L w s) := by
  cases s with
  | run =>
    refine NoFault.bind (before_noFault r w) fun _ => NoFault.bind (NoFault.attempt _) fun res => ?_
    split
    · exact NoFault.bind NoFault.get fun _ => NoFault.bind NoFault.get fun _ =>
        handleError_noFault _ _ _ _
    · exact NoFault.pure _
  | runaway runs =>
    exact NoFault.bind (report_noFault _) fun _ => NoFault.bind NoFault.get fun _ =>
      NoFault.bind NoFault.get fun _ => handleError_noFault _ _ _ _
  | skip => exact NoFault.pure _

theorem afterFlush_noFault (r : Runner η) (flushed : Array WatcherId) :
    NoFault (afterFlush r flushed) :=
  NoFault.bind (NoFault.forIn_array fun _ _ => NoFault.bind (pin_noFault _) fun _ =>
    NoFault.pure _) fun _ => NoFault.bind (NoFault.forIn_list fun _ _ =>
      NoFault.bind NoFault.get fun _ => NoFault.ite _ (NoFault.bind (afterRender_noFault _ _)
        fun _ => NoFault.pure _) (NoFault.pure _))
    fun _ => NoFault.bind (NoFault.forIn_array fun _ _ => NoFault.bind unhold_noFault fun _ =>
      NoFault.pure _) fun _ => released_noFault

/-! ## Notifying ends without a fault

Faults of the watchers a notification runs, at once or in a flush, are routed to handlers, so a
notification itself never ends with one. -/

theorem warn_noFault (text : String) : NoFault (warn text : Eff η Unit) :=
  NoFault.bind NoFault.get fun _ => NoFault.ite _ (report_noFault _) (NoFault.pure _)

theorem arm_noFault : NoFault (arm : Eff η Armed) := by
  have hno : ∀ mode, NoFault (arm.noRuntime mode : Eff η Armed) := by
    intro mode
    unfold arm.noRuntime
    split
    · exact NoFault.bind (warn_noFault _) fun _ => NoFault.pure _
    · exact NoFault.pure _
  refine NoFault.bind NoFault.get fun m => NoFault.ite _ (NoFault.pure _) ?_
  split
  · exact NoFault.ite _ (NoFault.bind (Triple.set _ fun _ _ => ⟨(), rfl⟩) fun _ => NoFault.pure _)
      (hno _)
  · exact hno _

theorem nextTick_noFault (job : TickJob) : NoFault (nextTick job : Eff η Unit) :=
  NoFault.bind (NoFault.modify _) fun _ => NoFault.bind NoFault.get fun _ =>
    NoFault.ite _ (NoFault.bind arm_noFault fun _ => NoFault.modify _) (NoFault.pure _)

theorem walk_noFault (r : Runner η) (limit fuel : Nat) : NoFault (walk r limit fuel) := by
  induction fuel with
  | zero => exact NoFault.halt _
  | succ fuel ih =>
    refine NoFault.bind ?_ fun _ => NoFault.ite _ ih (NoFault.pure _)
    refine NoFault.bind NoFault.get fun _ => ?_
    split
    · exact NoFault.pure _
    · exact NoFault.bind (NoFault.modify _) fun _ => NoFault.bind (takeStep_noFault _ _ _) fun _ =>
        NoFault.bind (NoFault.modify _) fun _ => NoFault.pure _

theorem flush_noFault (r : Runner η) : NoFault (flush r) := by
  refine NoFault.bind NoFault.get fun m => NoFault.ite _ (NoFault.pure _) ?_
  exact NoFault.bind (Triple.set _ fun _ _ => ⟨(), rfl⟩) fun _ => NoFault.bind (walk_noFault _ _ _)
    fun _ => NoFault.bind NoFault.get fun _ => NoFault.bind (NoFault.modify _) fun _ =>
      afterFlush_noFault _ _

theorem enqueue_noFault (r : Runner η) (w : WatcherId) : NoFault (enqueue r w) := by
  refine NoFault.bind NoFault.get fun _ => NoFault.ite _ (NoFault.pure _) ?_
  exact NoFault.bind (NoFault.modify _) fun _ => NoFault.ite _ (NoFault.pure _) <|
    NoFault.bind (NoFault.modify _) fun _ => NoFault.bind NoFault.get fun _ =>
      NoFault.ite _ (nextTick_noFault _) (flush_noFault r)

theorem update_noFault (r : Runner η) (w : WatcherId) : NoFault (update r w) := by
  unfold update
  refine NoFault.bind NoFault.get fun _ => NoFault.ite _ (NoFault.pure _) <|
    NoFault.ite _ (NoFault.modify _) <| NoFault.ite _ ?_ (enqueue_noFault r w)
  -- a synchronous run routes its fault
  refine NoFault.bind (NoFault.attempt _) fun res => ?_
  split
  · exact NoFault.bind NoFault.get fun _ => handleError_noFault _ _ _ _
  · exact NoFault.pure _

theorem notify_noFault (r : Runner η) (d : DepId) : NoFault (notify r d) := by
  unfold notify
  exact NoFault.bind NoFault.get fun _ =>
    NoFault.bind (NoFault.forIn_list fun _ _ => NoFault.bind (pin_noFault _) fun _ => NoFault.pure _)
      fun _ => NoFault.bind (NoFault.forIn_list fun _ _ => NoFault.bind (update_noFault r _) fun _ =>
        NoFault.pure _) fun _ => NoFault.bind (NoFault.forIn_list fun _ _ =>
          NoFault.bind unhold_noFault fun _ => NoFault.pure _) fun _ => NoFault.pure _

/-- What each step of a walk does: at the `k`-th pick of a watcher, the step a walk with
limit `L` takes there (`pickStep L k`), counting the picks of `picked` before it. -/
def Labelled (L : Nat) : List WatcherId → List (WatcherId × Step) → Prop
  | _, [] => True
  | picked, (w, s) :: t => s = pickStep L (picked.count w + 1) ∧ Labelled L (picked ++ [w]) t

/-- The steps of a walk from `m` to `m'`, each with the watcher it picked and what it did with
it. -/
inductive Walk (r : Runner η) (L : Nat) : Machine η → List (WatcherId × Step) → Machine η → Prop
  | nil (m : Machine η) : Walk r L m [] m
  | cons {m m₁ m₂ : Machine η} {w : WatcherId} {s : Step} {q : FlushQueue}
      {t : List (WatcherId × Step)} :
      m.queue.pick L = some (w, s, q) → ExceptT.run (flushStep r L) m = .ok (.ok true, m₁) →
      Walk r L m₁ t m₂ → Walk r L m ((w, s) :: t) m₂

section Host

variable {r : Runner η} (hr : HostKeeps r)
include hr

theorem takeStep_keeps (w : WatcherId) (s : Step) :
    Keeps (Sched L' ongoing outer) (takeStep r L w s) := by
  cases s with
  | run =>
    refine Keeps.bind (before_keeps hr w) fun _ => Keeps.bind (Keeps.attempt (run_keeps hr w))
      fun res => ?_
    split
    · exact Keeps.bind Keeps.get fun _ => Keeps.bind Keeps.get fun _ => handleError_keeps hr _ _ _
    · exact Keeps.pure _
  | runaway runs =>
    exact Keeps.bind (report_inert _).sched fun _ => Keeps.bind Keeps.get fun _ =>
      Keeps.bind Keeps.get fun _ => handleError_keeps hr _ _ _
  | skip => exact Keeps.pure _

theorem flushStep_spec {picked : List WatcherId} (m₀ : Machine η)
    (h₀ : Walking L picked floor m₀) :
    Triple (· = m₀) (flushStep r L) fun res m =>
      (res = .ok false ∧ m = m₀ ∧ m₀.queue.pick L = none) ∨
      ∃ w s q, res = .ok true ∧ m₀.queue.pick L = some (w, s, q) ∧
        Walking L (picked ++ [w]) floor m := by
  intro m hm res m' hrun
  subst hm
  obtain ⟨hf, hi, ⟨rest, hw⟩, hfloor⟩ := h₀
  rw [flushStep, exec_get_bind] at hrun
  cases rest with
  | nil =>
    have hp := (hw.pick_eq_none hi).2 rfl
    simp only [hp, exec_pure, Except.ok.injEq, Prod.mk.injEq] at hrun
    obtain ⟨rfl, rfl⟩ := hrun
    exact .inl ⟨rfl, rfl, hp⟩
  | cons w rest =>
    obtain ⟨q, hp, hq, hqueue, hindex, hflushing, -⟩ := hw.pick hi
    simp only [hp, exec_modify_bind] at hrun
    -- inside the step the walk has picked `w`, and host code sees it so
    have hin : Sched L (some (picked ++ [w], floor)) [] { m with queue := q } :=
      ⟨⟨hflushing ▸ hf, by simp [hindex, hi], ⟨rest, hq⟩, by rw [hqueue]; exact hfloor⟩,
        fun h => by simp [hflushing, hf] at h⟩
    have hadvance : Triple (Sched L (some (picked ++ [w], floor)) [])
        (do
          modify fun m => { m with queue := { m.queue with index := m.queue.index + 1 } }
          Pure.pure true : Eff η Bool)
        fun res m => res = .ok true ∧ Walking L (picked ++ [w]) floor m := by
      intro m₁ ⟨⟨hf₁, hl₁, ⟨rest₁, hw₁⟩, hfloor₁⟩, _⟩ res m₂ hrun
      simp only [exec_modify_bind, exec_pure, Except.ok.injEq, Prod.mk.injEq] at hrun
      obtain ⟨rfl, rfl⟩ := hrun
      exact ⟨rfl, hf₁, by simp only [hl₁], ⟨rest₁, hw₁.with_index _⟩, hfloor₁⟩
    obtain ⟨hres, hwalking⟩ := (Triple.bind_of_keeps (takeStep_keeps hr w _)
      (takeStep_noFault r w _) fun _ => hadvance).of_run hrun hin
    exact .inr ⟨w, _, q, hres, hp, hwalking⟩

theorem Walk.walking {m m' : Machine η} {t : List (WatcherId × Step)} (h : Walk r L m t m')
    {picked : List WatcherId} (hm : Walking L picked floor m) :
    Walking L (picked ++ t.map Prod.fst) floor m' ∧ Labelled L picked t := by
  induction h generalizing picked with
  | nil m => exact ⟨by simpa using hm, trivial⟩
  | @cons m m₁ m₂ w s q t hp hrun _ ih =>
    obtain ⟨hf, hi, ⟨rest, hw⟩, hfloor⟩ := hm
    -- the watcher picked is the first still to come, and the step is the one for its count
    cases rest with
    | nil => rw [(hw.pick_eq_none hi).2 rfl] at hp; cases hp
    | cons w₀ rest =>
      obtain ⟨q₀, hp₀, -⟩ := hw.pick hi
      rw [hp₀, Option.some.injEq, Prod.mk.injEq, Prod.mk.injEq] at hp
      obtain ⟨rfl, rfl, rfl⟩ := hp
      rcases (flushStep_spec hr m ⟨hf, hi, ⟨_, hw⟩, hfloor⟩).of_run hrun rfl with
        ⟨h, -⟩ | ⟨w', s', q', -, hp', hwalk⟩
      · cases h
      · rw [hp₀, Option.some.injEq, Prod.mk.injEq] at hp'
        obtain ⟨rfl, -⟩ := hp'
        obtain ⟨hwalk', hlab⟩ := ih hwalk
        exact ⟨by simpa using hwalk', rfl, hlab⟩

theorem walk_trace (fuel : Nat) {picked : List WatcherId} {m m' : Machine η}
    {res : Except Fault Unit} (hm : Walking L picked floor m)
    (h : ExceptT.run (walk r L fuel) m = .ok (res, m')) :
    res = .ok () ∧ m'.queue.pick L = none ∧ ∃ t, Walk r L m t m' := by
  induction fuel generalizing picked m with
  | zero => rw [walk] at h; cases h
  | succ fuel ih =>
    rw [walk, exec_bind] at h
    rcases hrun : ExceptT.run (flushStep r L) m with _ | ⟨res₁, m₁⟩ <;> rw [hrun] at h
    · cases h
    · rcases (flushStep_spec hr m hm).of_run hrun rfl with
        ⟨rfl, rfl, hp⟩ | ⟨w, s, q, rfl, hp, hwalk⟩
      · simp only [Bool.false_eq_true, ite_false, exec_pure, Except.ok.injEq,
          Prod.mk.injEq] at h
        obtain ⟨rfl, rfl⟩ := h
        exact ⟨rfl, hp, [], .nil _⟩
      · simp only [ite_true] at h
        obtain ⟨hres, hdone, t, ht⟩ := ih hwalk h
        exact ⟨hres, hdone, _, .cons hp hrun ht⟩

theorem walk_halt (fuel : Nat) {picked : List WatcherId} {m : Machine η} {e : Halt}
    (hm : Walking L picked floor m) (h : ExceptT.run (walk r L fuel) m = .error e) :
    ∃ t m₁, Walk r L m t m₁ ∧
      (t.length = fuel ∧ e = .exhausted ∨ ExceptT.run (flushStep r L) m₁ = .error e) := by
  induction fuel generalizing picked m with
  | zero =>
    rw [walk, exec_halt] at h
    cases h
    exact ⟨[], m, .nil _, .inl ⟨rfl, rfl⟩⟩
  | succ fuel ih =>
    rw [walk, exec_bind] at h
    rcases hrun : ExceptT.run (flushStep r L) m with e' | ⟨res₁, m₁⟩ <;> rw [hrun] at h
    · cases h
      exact ⟨[], m, .nil _, .inr hrun⟩
    · rcases (flushStep_spec hr m hm).of_run hrun rfl with
        ⟨rfl, rfl, -⟩ | ⟨w, s, q, rfl, hp, hwalk⟩
      · simp at h
      · simp only [ite_true] at h
        obtain ⟨t, m₂, ht, hend⟩ := ih hwalk h
        exact ⟨_, m₂, .cons hp hrun ht, by simpa using hend⟩

theorem afterFlush_keeps (flushed : Array WatcherId) :
    Keeps (Sched L ongoing outer) (afterFlush r flushed) :=
  Keeps.bind (Keeps.forIn_array fun _ _ => Keeps.bind (pin_inert _).sched fun _ => Keeps.pure _)
    fun _ => Keeps.bind (Keeps.forIn_list fun _ _ => Keeps.bind Keeps.get fun _ =>
      Keeps.ite _ (Keeps.bind (afterRender_keeps hr _) fun _ => Keeps.pure _) (Keeps.pure _))
    fun _ => Keeps.bind (Keeps.forIn_array fun _ _ => Keeps.bind unhold_inert.sched fun _ =>
      Keeps.pure _) fun _ => released_inert.sched

/-! ## Flushing -/

end Host

theorem flush_flushing (r : Runner η) {m : Machine η} (hf : m.queue.flushing = true) :
    ExceptT.run (flush r) m = .ok (.ok (), m) := by
  unfold flush
  simp [hf]

theorem Walking.start (L' : Nat) {m : Machine η} (hm : m.queue.Steady L ongoing)
    (hf : m.queue.flushing = false) :
    ongoing = none ∧ Walking L' [] m.queue.sorted { m with queue := m.queue.start } :=
  have hi := hm.idle hf
  ⟨hi.1, rfl, rfl, ⟨_, hi.2.start⟩, by simp [FlushQueue.start]⟩

section Host

variable {r : Runner η} (hr : HostKeeps r)
include hr

theorem flush_run {m m' : Machine η} {res : Except Fault Unit} (hm : m.queue.Steady L ongoing)
    (h : ExceptT.run (flush r) m = .ok (res, m')) :
    (m.queue.flushing || m.queue.queue.isEmpty) = true ∧ res = .ok () ∧ m' = m ∨
      ongoing = none ∧ ∃ t m₁,
        Walk r m.config.maxUpdateCount { m with queue := m.queue.start } t m₁ ∧
        m₁.queue.pick m.config.maxUpdateCount = none ∧
        ExceptT.run (afterFlush r m₁.queue.queue) { m₁ with queue := {} } = .ok (res, m') := by
  unfold flush at h
  simp only [exec_get_bind] at h
  by_cases hc : (m.queue.flushing || m.queue.queue.isEmpty) = true
  · rw [if_pos hc, exec_pure] at h
    cases h
    exact .inl ⟨hc, rfl, rfl⟩
  · rw [if_neg hc, exec_setOf_bind, exec_bind] at h
    simp only [Bool.or_eq_true, not_or, Bool.not_eq_true] at hc
    obtain ⟨rfl, hstart⟩ := Walking.start m.config.maxUpdateCount hm hc.1
    rcases hrun : ExceptT.run (walk r m.config.maxUpdateCount r.fuel)
      { m with queue := m.queue.start } with _ | ⟨res₁, m₁⟩ <;> rw [hrun] at h
    · cases h
    · obtain ⟨rfl, hp, t, ht⟩ := walk_trace hr r.fuel hstart hrun
      simp only [exec_get_bind, exec_modify_bind] at h
      exact .inr ⟨rfl, t, m₁, ht, hp, h⟩

theorem flush_halt {m : Machine η} {e : Halt} (hm : m.queue.Steady L ongoing)
    (h : ExceptT.run (flush r) m = .error e) :
    ongoing = none ∧ ∃ t m₁, Walk r m.config.maxUpdateCount { m with queue := m.queue.start } t m₁ ∧
      (t.length = r.fuel ∧ e = .exhausted ∨
        ExceptT.run (flushStep r m.config.maxUpdateCount) m₁ = .error e ∨
        ExceptT.run (afterFlush r m₁.queue.queue) { m₁ with queue := {} } = .error e) := by
  unfold flush at h
  simp only [exec_get_bind] at h
  by_cases hc : (m.queue.flushing || m.queue.queue.isEmpty) = true
  · rw [if_pos hc, exec_pure] at h
    cases h
  · rw [if_neg hc, exec_setOf_bind, exec_bind] at h
    simp only [Bool.or_eq_true, not_or, Bool.not_eq_true] at hc
    obtain ⟨rfl, hstart⟩ := Walking.start m.config.maxUpdateCount hm hc.1
    rcases hrun : ExceptT.run (walk r m.config.maxUpdateCount r.fuel)
      { m with queue := m.queue.start } with e' | ⟨res₁, m₁⟩ <;> rw [hrun] at h
    · cases h
      obtain ⟨t, m₁, ht, hend⟩ := walk_halt hr r.fuel hstart hrun
      exact ⟨rfl, t, m₁, ht, hend.imp_right .inl⟩
    · obtain ⟨rfl, -, t, ht⟩ := walk_trace hr r.fuel hstart hrun
      simp only [exec_get_bind, exec_modify_bind] at h
      exact ⟨rfl, t, m₁, ht, .inr (.inr h)⟩

/-- A flush raises no fault and leaves the invariant in place, with the flush it may owe paid. -/
theorem flush_spec : Triple (fun m => m.queue.Steady L ongoing) (flush r)
    fun res m => res = .ok () ∧ Sched L ongoing outer m := by
  intro m hm res m' h
  rcases flush_run hr hm h with ⟨hc, rfl, rfl⟩ | ⟨rfl, t, m₁, -, -, ha⟩
  · refine ⟨rfl, hm, fun hf hw => absurd ((hm.idle hf).2.waiting.1 hw) ?_⟩
    simpa [hf] using hc
  · obtain ⟨a, rfl⟩ := (afterFlush_noFault r _).of_run ha trivial
    exact ⟨rfl, (afterFlush_keeps hr _).of_run ha (Sched.of_not_waiting ⟨rfl, .empty⟩ rfl)⟩

/-! ## Queueing and notifying -/

end Host

theorem enqueue_dropped (r : Runner η) {w : WatcherId} {m : Machine η}
    (hd : w ∈ m.queue.dropped) : ExceptT.run (enqueue r w) m = .ok (.ok (), m) := by
  unfold enqueue
  simp [hd]

section Host

variable {r : Runner η} (hr : HostKeeps r)
include hr

theorem enqueue_keeps (w : WatcherId) : Keeps (Sched L ongoing outer) (enqueue r w) := by
  unfold enqueue
  refine Keeps.bind_get fun m ⟨hs, ho⟩ => ?_
  refine Triple.ite _ (fun _ => Triple.pure _ fun _ h => h ▸ ⟨hs, ho⟩) fun hc => ?_
  simp only [Bool.or_eq_true, List.contains_iff_mem, not_or] at hc
  have hq := hs.enqueue hc.1 hc.2
  intro m₁ hm₁ res m' hrun
  subst m₁
  rw [exec_modify_bind] at hrun
  by_cases hw : m.queue.waiting = true
  · -- a flush was already asked for: it is still owed
    rw [if_pos hw, exec_pure] at hrun
    cases hrun
    exact ⟨by rw [hw]; exact hq, fun hf _ => ho hf hw⟩
  · rw [if_neg hw, exec_modify_bind, exec_get_bind] at hrun
    by_cases ha : m.config.asyncFlush = true
    · rw [if_pos ha] at hrun
      exact nextTick_flush.of_run hrun hq
    · rw [if_neg ha] at hrun
      exact ((flush_spec hr).of_run hrun hq).2

theorem update_keeps (w : WatcherId) : Keeps (Sched L ongoing outer) (update r w) := by
  unfold update
  refine Keeps.bind Keeps.get fun m => Keeps.ite _ (Keeps.pure _) <|
    Keeps.ite _ (modifyWatcher_inert _ _).sched <| Keeps.ite _ ?_ (enqueue_keeps hr w)
  refine Keeps.bind (Keeps.attempt (run_keeps hr w)) fun res => ?_
  split
  · exact Keeps.bind Keeps.get fun _ => handleError_keeps hr _ _ _
  · exact Keeps.pure _

theorem notify_keeps (d : DepId) : Keeps (Sched L ongoing outer) (notify r d) := by
  unfold notify
  exact Keeps.bind Keeps.get fun _ =>
    Keeps.bind (Keeps.forIn_list fun _ _ => Keeps.bind (pin_inert _).sched fun _ => Keeps.pure _)
      fun _ => Keeps.bind (Keeps.forIn_list fun _ _ => Keeps.bind (update_keeps hr _) fun _ =>
        Keeps.pure _) fun _ => Keeps.bind (Keeps.forIn_list fun _ _ =>
          Keeps.bind unhold_inert.sched fun _ => Keeps.pure _) fun _ => Keeps.pure _

/-! ## The tick batch -/

theorem runJob_spec (job : TickJob) :
    Triple (Sched L ongoing (job :: outer)) (runJob r job)
      fun res m => ∃ a, res = .ok a ∧ Sched L ongoing outer m := by
  cases job with
  | flush =>
    exact Triple.conseq (flush_spec hr) (fun _ h => h.1) fun _ _ ⟨h, hs⟩ => ⟨_, h, hs⟩
  | call c scope =>
    refine Triple.conseq (Triple.of_keeps ?_ ?_) (fun _ => Sched.pop TickJob.noConfusion)
      fun _ _ h => h
    · refine Keeps.bind (Keeps.attempt (hr _ _ _ c _)) fun res => ?_
      split
      · exact Keeps.bind Keeps.get fun _ => handleError_keeps hr _ _ _
      · exact Keeps.pure _
    · refine NoFault.bind (NoFault.attempt _) fun res => ?_
      split
      · exact NoFault.bind NoFault.get fun _ => handleError_noFault _ _ _ _
      · exact NoFault.pure _
  | signal s =>
    rw [runJob]
    exact Triple.conseq (Triple.of_keeps (Inert.sched (Inert.modify fun _ => ⟨rfl, rfl⟩))
      (NoFault.modify _)) (fun _ => Sched.pop TickJob.noConfusion) fun _ _ h => h

theorem runJobs_spec (jobs : List TickJob) :
    Triple (Sched L ongoing (jobs ++ outer))
      (forIn jobs PUnit.unit fun job _ => do runJob r job; pure (ForInStep.yield PUnit.unit))
      fun res m => ∃ a, res = .ok a ∧ Sched L ongoing outer m := by
  induction jobs with
  | nil => exact Triple.pure _ fun _ h => ⟨_, rfl, h⟩
  | cons job jobs ih =>
    rw [List.forIn_cons]
    refine Triple.bind_ok (R := fun s m => s = .yield PUnit.unit ∧ Sched L ongoing (jobs ++ outer) m)
      (Triple.bind_ok (runJob_spec hr job) fun _ => Triple.pure _ fun _ h => ⟨_, rfl, rfl, h⟩)
      fun s => ?_
    intro m ⟨hs, hm⟩
    subst hs
    exact ih m hm

/-- A tick runs the batch it finds without a fault: the flush it may owe moves from the batch
to the jobs still to run. -/
theorem tick_spec : Triple (Sched L ongoing outer) (tick r)
    fun res m => ∃ n, res = .ok n ∧ Sched L ongoing outer m := by
  unfold tick
  refine Triple.bind_get fun m hm => ?_
  intro m₁ hm₁ res m' hrun
  subst m₁
  rw [exec_modify_bind] at hrun
  have hm₁ : Sched L ongoing (m.ticks.jobs.toList ++ outer)
      { m with ticks := { m.ticks with jobs := #[], armed := .idle } } :=
    ⟨hm.1, fun hf hw => by simpa using hm.2 hf hw⟩
  have hjobs : Triple (Sched L ongoing (m.ticks.jobs.toList ++ outer))
      (forIn m.ticks.jobs PUnit.unit fun job _ => do
        runJob r job
        pure (ForInStep.yield PUnit.unit))
      fun res m => ∃ a, res = .ok a ∧ Sched L ongoing outer m := by
    rw [← Array.forIn_toList]
    exact runJobs_spec hr _
  exact (show Triple _ _ fun res m => ∃ n, res = .ok n ∧ Sched L ongoing outer m from
    Triple.bind_ok hjobs fun _ => Triple.pure _ fun _ h => ⟨_, rfl, h⟩).of_run hrun hm₁

theorem tick_keeps : Keeps (Sched L ongoing outer) (tick r) :=
  Triple.conseq (tick_spec hr) (fun _ h => h) fun _ _ ⟨_, _, h⟩ => h

theorem drain_spec : Triple (Sched L ongoing outer) (drain r)
    fun res m => ∃ n, res = .ok n ∧ Sched L ongoing outer m ∧ m.ticks.jobs = #[] := by
  unfold drain
  dsimp only
  -- the loop has stopped early only on an empty batch
  let J : Option Nat × Nat → Machine η → Prop := fun b m =>
    Sched L ongoing outer m ∧ (b.1.isSome → m.ticks.jobs = #[])
  refine Triple.bind_ok (Triple.conseq (Triple.forIn_range J fun _ b => ?_)
    (fun _ h => ⟨h, by simp⟩) fun _ _ h => h) fun b => ?_
  · intro m hm res m' hrun
    rw [exec_pending_bind] at hrun
    by_cases he : m.ticks.jobs.isEmpty = true
    · simp only [he, Bool.not_true] at hrun
      cases hrun
      exact ⟨_, rfl, hm.1, fun _ => by simpa using he⟩
    · simp only [he, Bool.not_false] at hrun
      have ht : Triple (Sched L ongoing outer) (tick r)
          fun res m => ∃ n, res = .ok n ∧ J (none, b.2 + n) m :=
        Triple.conseq (tick_spec hr) (fun _ h => h) fun _ _ ⟨n, hn, h⟩ => ⟨n, hn, h, by simp⟩
      exact (show Triple _ _ fun res m => ∃ s, res = .ok s ∧ J s.value m from
        Triple.bind_ok ht fun _ => Triple.pure _ fun _ h => ⟨_, rfl, h⟩).of_run hrun hm.1
  · intro m ⟨hs, hj⟩ res m' hrun
    split at hrun
    · rw [exec_pure] at hrun
      cases hrun
      exact ⟨_, rfl, hs, hj (by simp [*])⟩
    · rw [exec_pending_bind] at hrun
      split at hrun
      · rw [exec_bind] at hrun; cases hrun
      · rw [exec_pure] at hrun
        cases hrun
        rename_i hne
        exact ⟨_, rfl, hs, by simpa using hne⟩

theorem runRound_keeps : Keeps (Sched L ongoing outer) (runRound r) := by
  unfold runRound
  refine Keeps.bind (Keeps.forIn_range fun _ _ => Keeps.bind Keeps.get fun m => ?_) fun _ => ?_
  · split
    · split
      · exact Keeps.pure _
      · refine Keeps.bind (Keeps.modify fun _ h => h) fun _ =>
          Keeps.bind (tick_keeps hr) fun _ =>
          Keeps.bind (Keeps.modify fun _ h => ?_) fun _ => Keeps.pure _
        split
        · exact h
        · exact h
    · exact Keeps.pure _
  · dsimp only
    split
    · exact Keeps.pure _
    · exact Keeps.pure _

theorem awaitSignal_keeps (s : Nat) : Keeps (Sched L ongoing outer) (awaitSignal r s) := by
  unfold awaitSignal
  refine Keeps.bind (Keeps.forIn_range fun _ _ => Keeps.bind (runRound_keeps hr) fun _ =>
    Keeps.bind Keeps.get fun _ => Keeps.ite _ (Keeps.pure _) <| Keeps.bind tasksWaiting_inert.sched
      fun _ => Keeps.ite _ (Keeps.pure _) (Keeps.pure _)) fun _ => ?_
  dsimp only
  split
  · exact Keeps.pure _
  · exact Keeps.halt _

end Host

theorem settledSignal_keeps : Keeps (Sched L ongoing outer) (settledSignal : Eff η Nat) := by
  unfold settledSignal
  refine Keeps.bind_get fun m hm => ?_
  intro m₁ hm₁ res m' hrun
  subst m₁
  rw [exec_setOf_bind] at hrun
  exact (Keeps.bind (nextTick_keeps _) fun _ => Keeps.pure _).of_run hrun hm

end Eff

end Reactivity

import Reactivity.Proofs.ComputedCache
import Reactivity.Proofs.DeepReads
import Reactivity.Proofs.RootLedger
import Reactivity.Proofs.Sure

/-!
# Invalidation before evaluation

In the default asynchronous mode a notification runs no getter unless a watcher it tells is
synchronous. It marks every computed value it tells dirty and queues every other watcher it
tells, and changes nothing a getter reads: the heap, the cells, the host, the values and the
reads of every watcher stay as they were (`notify_defers`). Telling composes
(`Machine.Told.trans`), so on a machine with no synchronous watcher a whole run of
notifications, such as a batch of writes sends, runs no getter and leaves every watcher that a
notified set lists told, unless it was dropped on the way (`notifications_defer`). A watcher
that the flush runs later therefore finds every computed value reached by the changes already
marked.

A synchronous watcher runs at its turn instead, before the watchers after it are told. A
computed value it reads that comes later among the subscribers is still clean then, so the
watcher computes with the old cache and stores a value that its getter no longer gives once
the notification is over (`sync_watcher_reads_stale_computed`).
-/

namespace Reactivity

variable {η : Type}

namespace Machine

theorem dropped_collect {s : Machine η} {w : WatcherId} (h : (s.watcher w).dropped = true) :
    (s.collect.watcher w).dropped = true := by
  refine collect_inv (fun t => (t.watcher w).dropped = true) h (fun _ _ ht => ht) fun t i ht => ?_
  rw [watcher_dropWatcher]
  split
  · rfl
  · exact ht

theorem mem_subs_dropWatcher {t : Machine η} {w w' : WatcherId} {d : DepId}
    (h : w ∈ (t.dep d).subs) (hne : ¬(w = w' ∧ w'.idx < t.watchers.size)) :
    w ∈ ((t.dropWatcher w').dep d).subs := by
  unfold dropWatcher
  dsimp only
  by_cases he : w = w'
  · -- a watcher past the table has read nothing, so dropping it leaves every set alone
    subst he
    rw [watcher_of_size_le (Nat.le_of_not_lt fun hlt => hne ⟨rfl, hlt⟩)]
    exact h
  · refine foldl_unsubscribe_of (P := fun m => w ∈ (m.dep d).subs) (fun m d' hm => ?_) _ h
    rw [subs_unsubscribe]
    split
    · exact (List.mem_erase_of_ne he).2 hm
    · exact hm

theorem subs_collect (s : Machine η) {d : DepId} {w : WatcherId} (h : w ∈ (s.dep d).subs) :
    w ∈ (s.collect.dep d).subs ∨ (s.collect.watcher w).dropped = true := by
  refine collect_inv (fun t => w ∈ (t.dep d).subs ∨ (t.watcher w).dropped = true) (.inl h)
    (fun _ _ ht => ht) fun t i ht => ?_
  rw [watcher_dropWatcher]
  by_cases hi : w = ⟨i⟩ ∧ (⟨i⟩ : WatcherId).idx < t.watchers.size
  · exact .inr (by rw [if_pos hi])
  · rw [if_neg hi]
    exact ht.imp_left fun hs => mem_subs_dropWatcher hs hi

/-- `m'` is `m` after the watchers in `told` were told of a change and no getter ran. A watcher
changed only by its dirty mark, set on the active computed values told, and by being dropped;
every other active watcher told is queued, unless the flush under way dropped it as runaway,
and nothing left or else joined the queue; a watcher left a set only by being dropped; the heap,
the cells, the host, the tracking context and the settings are as they were. -/
structure Told (m : Machine η) (told : List WatcherId) (m' : Machine η) : Prop where
  watcher : ∀ w, ∃ c b, m'.watcher w = { m.watcher w with dirty := c, dropped := b }
  dirty : ∀ w, (m'.watcher w).dirty = true ↔ (m.watcher w).dirty = true ∨
    w ∈ told ∧ (m.watcher w).active = true ∧ (m.watcher w).lazy = true
  queued : ∀ w ∈ told, (m.watcher w).active = true → (m.watcher w).lazy = false →
    w ∈ m'.queue.has ∨ w ∈ m.queue.dropped
  only : ∀ w ∈ m'.queue.has, w ∈ m.queue.has ∨ w ∈ told
  kept : ∀ w ∈ m.queue.has, w ∈ m'.queue.has
  dropped : m'.queue.dropped = m.queue.dropped
  subs : ∀ d w, w ∈ (m.dep d).subs → w ∈ (m'.dep d).subs ∨ (m'.watcher w).dropped = true
  stillDropped : ∀ w, (m.watcher w).dropped = true → (m'.watcher w).dropped = true
  heap : m'.heap = m.heap
  cells : m'.cells = m.cells
  host : m'.host = m.host
  context : m'.context = m.context
  config : m'.config = m.config

namespace Told

variable {m s : Machine η} {told : List WatcherId}

theorem refl (m : Machine η) : m.Told [] m where
  watcher _ := ⟨_, _, rfl⟩
  dirty _ := by simp
  queued _ h := absurd h List.not_mem_nil
  only _ h := .inl h
  kept _ h := h
  dropped := rfl
  subs _ _ h := .inl h
  stillDropped _ h := h
  heap := rfl
  cells := rfl
  host := rfl
  context := rfl
  config := rfl

theorem cell (h : m.Told told s) (w : WatcherId) :
    (s.watcher w).active = (m.watcher w).active ∧ (s.watcher w).lazy = (m.watcher w).lazy ∧
      (s.watcher w).sync = (m.watcher w).sync ∧ (s.watcher w).value = (m.watcher w).value ∧
      (s.watcher w).deps = (m.watcher w).deps := by
  obtain ⟨c, b, hw⟩ := h.watcher w
  rw [hw]
  exact ⟨rfl, rfl, rfl, rfl, rfl⟩

theorem books (h : m.Told told s) (ps : List Anchor) (u : Bool) (t : TickBatch)
    (rt : Option Runtime) (lg : Array Json) :
    m.Told told { s with pins := ps, unheld := u, ticks := t, runtime := rt, log := lg } :=
  ⟨h.watcher, h.dirty, h.queued, h.only, h.kept, h.dropped, h.subs, h.stillDropped, h.heap,
    h.cells, h.host, h.context, h.config⟩

theorem collect (h : m.Told told s) : m.Told told s.collect := by
  -- a collection marks watchers dropped and otherwise changes only sets and scopes
  obtain ⟨ws, ds, ss, -, hc⟩ := s.collect_eq
  have hw : ∀ w, ∃ b, s.collect.watcher w = { s.watcher w with dropped := b } :=
    s.collect_watcher
  refine ⟨fun w => ?_, fun w => ?_, ?_, ?_, ?_, ?_,
    fun d w hw => (h.subs d w hw).elim (s.subs_collect ·) fun hd => .inr (dropped_collect hd),
    fun w hw => dropped_collect (h.stillDropped w hw), ?_, ?_, ?_, ?_, ?_⟩
  · obtain ⟨b', hb'⟩ := hw w
    obtain ⟨c, b, hcell⟩ := h.watcher w
    exact ⟨c, b', by rw [hb', hcell]⟩
  · obtain ⟨b', hb'⟩ := hw w
    rw [hb']
    exact h.dirty w
  all_goals rw [hc]
  · exact h.queued
  · exact h.only
  · exact h.kept
  · exact h.dropped
  · exact h.heap
  · exact h.cells
  · exact h.host
  · exact h.context
  · exact h.config

theorem skip {a : WatcherId} (h : m.Told told s) (hA : (m.watcher a).active = false) :
    m.Told (told ++ [a]) s := by
  refine ⟨h.watcher, fun w => ?_, fun w hw => ?_, fun w hw => ?_, h.kept, h.dropped, h.subs,
    h.stillDropped, h.heap, h.cells, h.host, h.context, h.config⟩
  · rw [h.dirty w]
    by_cases hwa : w = a
    · subst hwa
      simp [hA]
    · simp [hwa]
  · rcases List.mem_append.1 hw with hw | hw
    · exact h.queued w hw
    · rw [List.mem_singleton.1 hw, hA]
      intro h
      cases h
  · exact (h.only w hw).imp_right (List.mem_append_left _)

theorem mark {a : WatcherId} (h : m.Told told s) (hA : (m.watcher a).active = true)
    (hL : (m.watcher a).lazy = true) :
    m.Told (told ++ [a])
      { s with watchers := s.watchers.modify a.idx fun c => { c with dirty := true } } := by
  have hlt : a.idx < s.watchers.size := Machine.lt_of_active ((h.cell a).1.trans hA)
  have hcell : ∀ w, ({ s with watchers := s.watchers.modify a.idx fun c => { c with dirty := true } } :
      Machine η).watcher w = if w = a then { s.watcher w with dirty := true } else s.watcher w :=
    fun w => Machine.watcher_modify _ _ _ _ (.inl hlt)
  -- marking changes no watcher's dropped flag
  have hdrop : ∀ w, (({ s with watchers := s.watchers.modify a.idx fun c => { c with dirty := true } } :
      Machine η).watcher w).dropped = (s.watcher w).dropped := fun w => by
    rw [hcell]
    split <;> rfl
  refine ⟨fun w => ?_, fun w => ?_, fun w hw => ?_, fun w hw => ?_, h.kept, h.dropped,
    fun d w hw => ?_, fun w hw => ?_, h.heap, h.cells, h.host, h.context, h.config⟩
  · obtain ⟨c, b, hw⟩ := h.watcher w
    rw [hcell]
    split
    · exact ⟨true, b, by rw [hw]⟩
    · exact ⟨c, b, hw⟩
  · rw [hcell]
    split
    · rename_i hwa
      subst hwa
      simp [hA, hL]
    · rename_i hwa
      rw [h.dirty w]
      simp [hwa]
  · rcases List.mem_append.1 hw with hw | hw
    · exact h.queued w hw
    · rw [List.mem_singleton.1 hw, hL]
      intro _ h
      cases h
  · exact (h.only w hw).imp_right (List.mem_append_left _)
  · rw [hdrop]
    exact h.subs d w hw
  · rw [hdrop]
    exact h.stillDropped w hw

theorem queue {a : WatcherId} (h : m.Told told s) (hL : (m.watcher a).lazy = false)
    {q : FlushQueue} (hin : a ∈ q.has ∨ a ∈ s.queue.dropped) (hkeep : ∀ x ∈ s.queue.has, x ∈ q.has)
    (honly : ∀ x ∈ q.has, x ∈ s.queue.has ∨ x = a) (hdrop : q.dropped = s.queue.dropped)
    (t : TickBatch) (rt : Option Runtime) (lg : Array Json) :
    m.Told (told ++ [a]) { s with queue := q, ticks := t, runtime := rt, log := lg } := by
  refine ⟨h.watcher, fun w => ?_, fun w hw hA _ => ?_, fun w hw => ?_,
    fun w hw => hkeep w (h.kept w hw), hdrop.trans h.dropped, h.subs, h.stillDropped, h.heap,
    h.cells, h.host, h.context, h.config⟩
  · show (s.watcher w).dirty = true ↔ _
    rw [h.dirty w]
    by_cases hwa : w = a
    · subst hwa
      simp [hL]
    · simp [hwa]
  · rcases List.mem_append.1 hw with hw | hw
    · exact (h.queued w hw hA ‹_›).imp_left (hkeep w)
    · rw [List.mem_singleton.1 hw, ← h.dropped]
      exact hin
  · rcases honly w hw with hw | rfl
    · exact (h.only w hw).imp_right (List.mem_append_left _)
    · exact .inr (List.mem_append_right _ (List.mem_singleton_self _))

/-- Two stretches of telling in which no getter ran make one. -/
theorem trans {s' : Machine η} {told' : List WatcherId} (h : m.Told told s)
    (h' : s.Told told' s') : m.Told (told ++ told') s' := by
  refine ⟨fun w => ?_, fun w => ?_, fun w hw hA hL => ?_, fun w hw => ?_,
    fun w hw => h'.kept w (h.kept w hw), h'.dropped.trans h.dropped, fun d w hw => ?_,
    fun w hw => h'.stillDropped w (h.stillDropped w hw), h'.heap.trans h.heap,
    h'.cells.trans h.cells, h'.host.trans h.host, h'.context.trans h.context,
    h'.config.trans h.config⟩
  · obtain ⟨c, b, hc⟩ := h.watcher w
    obtain ⟨c', b', hc'⟩ := h'.watcher w
    exact ⟨c', b', by rw [hc', hc]⟩
  · obtain ⟨hact, hlazy, -⟩ := h.cell w
    rw [h'.dirty w, h.dirty w, hact, hlazy, List.mem_append, or_and_right, or_assoc]
  · obtain ⟨hact, hlazy, -⟩ := h.cell w
    rcases List.mem_append.1 hw with hw | hw
    · exact (h.queued w hw hA hL).imp_left (h'.kept w)
    · rw [← h.dropped]
      exact h'.queued w hw (hact.trans hA) (hlazy.trans hL)
  · rcases h'.only w hw with hw | hw
    · exact (h.only w hw).imp_right (List.mem_append_left _)
    · exact .inr (List.mem_append_right _ hw)
  · rcases h.subs d w hw with hs | hd
    · exact h'.subs d w hs
    · exact .inr (h'.stillDropped w hd)

end Told

/-- Every active watcher that a flush would run is asynchronous. -/
def NoSync (m : Machine η) : Prop :=
  ∀ w, (m.watcher w).active = true → (m.watcher w).lazy = false → (m.watcher w).sync = false

theorem Told.noSync {m s : Machine η} {told : List WatcherId} (h : m.Told told s)
    (hn : m.NoSync) : s.NoSync := fun w hA hL => by
  obtain ⟨hact, hlazy, hsync, -⟩ := h.cell w
  rw [hsync]
  exact hn w (hact ▸ hA) (hlazy ▸ hL)

theorem mem_notified_iff {m : Machine η} {d : DepId} {w : WatcherId} :
    w ∈ m.notified d ↔ w ∈ (m.dep d).subs ∧ (m.watcher w).dropped = false := by
  unfold notified
  split <;> simp [List.mem_mergeSort]

end Machine

namespace Eff

/-! ## Runs that only keep books -/

theorem arm_run (s : Machine η) :
    ∃ a t rt lg, ExceptT.run arm s = .ok (.ok a, { s with ticks := t, runtime := rt, log := lg }) := by
  have hno : ∀ mode, ∃ lg, ExceptT.run (arm.noRuntime mode) s =
      .ok (.ok .host, ({ s with log := lg } : Machine η)) := by
    intro mode
    unfold arm.noRuntime
    split
    · obtain ⟨lg, hw⟩ := warn_run s _
      rw [exec_bind, hw]
      exact ⟨lg, rfl⟩
    · exact ⟨s.log, rfl⟩
  unfold arm
  rw [exec_get_bind]
  split
  · exact ⟨_, s.ticks, s.runtime, s.log, rfl⟩
  · split
    · split
      · exact ⟨_, _, _, s.log, rfl⟩
      · obtain ⟨lg, h⟩ := hno s.config.tick
        exact ⟨_, s.ticks, s.runtime, lg, h⟩
    · obtain ⟨lg, h⟩ := hno s.config.tick
      exact ⟨_, s.ticks, s.runtime, lg, h⟩

theorem nextTick_run (job : TickJob) (s : Machine η) :
    ∃ t rt lg, ExceptT.run (nextTick job) s =
      .ok (.ok (), { s with ticks := t, runtime := rt, log := lg }) := by
  unfold nextTick
  rw [exec_modify_bind, exec_get_bind]
  split
  · obtain ⟨a, t, rt, lg, h⟩ := arm_run ({ s with ticks := { s.ticks with
      jobs := s.ticks.jobs.push job } } : Machine η)
    rw [exec_bind, h]
    exact ⟨_, rt, lg, rfl⟩
  · exact ⟨_, s.runtime, s.log, rfl⟩

theorem enqueue_async (r : Runner η) (w : WatcherId) (s : Machine η)
    (ha : s.config.asyncFlush = true) :
    ∃ q t rt lg, ExceptT.run (enqueue r w) s =
        .ok (.ok (), { s with queue := q, ticks := t, runtime := rt, log := lg }) ∧
      (w ∈ q.has ∨ w ∈ s.queue.dropped) ∧ (∀ x ∈ s.queue.has, x ∈ q.has) ∧
      (∀ x ∈ q.has, x ∈ s.queue.has ∨ x = w) ∧ q.dropped = s.queue.dropped := by
  unfold enqueue
  rw [exec_get_bind]
  -- it returns at once if queued or dropped, after queueing if a flush is owed, and else asks
  -- the tick batch for one
  by_cases hc : (s.queue.has.contains w || s.queue.dropped.contains w) = true
  · rw [if_pos hc]
    refine ⟨s.queue, s.ticks, s.runtime, s.log, rfl, ?_, fun _ h => h, fun _ h => .inl h, rfl⟩
    simpa using hc
  rw [if_neg hc, exec_modify_bind]
  by_cases hw : s.queue.waiting = true
  · rw [if_pos hw]
    exact ⟨_, s.ticks, s.runtime, s.log, rfl, .inl List.mem_cons_self,
      fun _ h => List.mem_cons_of_mem _ h, fun _ h => (List.mem_cons.1 h).symm, rfl⟩
  rw [if_neg hw, exec_modify_bind, exec_get_bind, if_pos ha]
  obtain ⟨t, rt, lg, h⟩ := nextTick_run (η := η) .flush _
  rw [h]
  exact ⟨_, t, rt, lg, rfl, .inl List.mem_cons_self,
    fun _ h => List.mem_cons_of_mem _ h, fun _ h => (List.mem_cons.1 h).symm, rfl⟩

/-! ## A notification that runs no getter -/

variable {r : Runner η} {m s : Machine η} {told : List WatcherId}

theorem update_told {a : WatcherId} (ha : m.config.asyncFlush = true)
    (hsync : (m.watcher a).active = true → (m.watcher a).lazy = false →
      (m.watcher a).sync = false)
    (h : m.Told told s) :
    ∃ s', ExceptT.run (update r a) s = .ok (.ok (), s') ∧ m.Told (told ++ [a]) s' := by
  obtain ⟨hact, hlazy, hsy, -, -⟩ := h.cell a
  -- the branches of `update`, decided by the cell as it was before the notification
  cases hA : (m.watcher a).active with
  | false =>
    refine ⟨s, ?_, h.skip hA⟩
    unfold update
    rw [exec_get_bind]
    dsimp only
    rw [if_pos (by simp [hact, hA])]
    rfl
  | true =>
    cases hL : (m.watcher a).lazy with
    | true => exact ⟨_, update_lazy (hact.trans hA) (hlazy.trans hL), h.mark hA hL⟩
    | false =>
      obtain ⟨q, t, rt, lg, hrun, hin, hkeep, honly, hdrop⟩ :=
        enqueue_async r a s (by rw [h.config]; exact ha)
      refine ⟨_, ?_, h.queue hL hin hkeep honly hdrop t rt lg⟩
      unfold update
      rw [exec_get_bind]
      dsimp only
      rw [if_neg (by simp [hact, hA]), if_neg (by simp [hlazy, hL]),
        if_neg (by simp [hsy, hsync hA hL])]
      exact hrun

theorem pin_told (a : Anchor) : Stays (m.Told told) (pin a) :=
  Stays.modify fun s h => h.books _ s.unheld s.ticks s.runtime s.log

theorem settle_told : Stays (m.Told told) settle :=
  Stays.modify fun s h => by
    dsimp only
    split
    · exact h.collect.books _ _ s.collect.ticks s.collect.runtime s.collect.log
    · exact h

theorem unhold_told : Stays (m.Told told) unhold :=
  Stays.bind (Stays.modify fun s h => h.books _ s.unheld s.ticks s.runtime s.log) fun _ =>
    settle_told

end Eff

/-- In asynchronous mode, a notification that tells no synchronous watcher runs no getter: it
marks every active computed value it tells dirty, queues every other active watcher it tells
(unless the flush under way dropped it as runaway), and leaves the heap, the cells, the host
and the values and reads of every watcher as they were. -/
theorem notify_defers (r : Runner η) (d : DepId) (m : Machine η)
    (ha : m.config.asyncFlush = true)
    (hsync : ∀ w ∈ m.notified d, (m.watcher w).active = true → (m.watcher w).lazy = false →
      (m.watcher w).sync = false) :
    ∃ m', ExceptT.run (Eff.notify r d) m = .ok (.ok (), m') ∧ m.Told (m.notified d) m' := by
  have hrun : Sure (· = m) (Eff.notify r d)
      fun res s => res = .ok () ∧ m.Told (m.notified d) s := by
    rw [Eff.notify_eq]
    refine Sure.bind_get fun m' e => ?_
    rw [e]
    -- the watchers are pinned, told in order, and released
    refine Sure.bind_ok (Sure.conseq (Stays.forIn_list fun w _ =>
      Stays.bind (Eff.pin_told (.watcher w)) fun _ => Stays.pure _)
      (fun _ e => by rw [e]; exact Machine.Told.refl m) fun _ _ h => h) fun _ => ?_
    refine Sure.bind_ok (Sure.forIn_list (fun pre _ s => m.Told pre s)
      fun pre a post _ hxs => ?_) fun _ => ?_
    · intro s h
      have hmem : a ∈ m.notified d := by
        rw [hxs]
        exact List.mem_append_right _ List.mem_cons_self
      obtain ⟨s', hrun, h'⟩ := Eff.update_told ha (hsync a hmem) h
      rw [Eff.exec_bind, hrun]
      exact ⟨_, _, rfl, _, rfl, h'⟩
    · exact Sure.bind_ok (Stays.forIn_list fun _ _ => Stays.bind Eff.unhold_told fun _ =>
        Stays.pure _) fun _ => Sure.pure () fun _ h => ⟨rfl, h⟩
  obtain ⟨_, m', hrun, rfl, h⟩ := hrun m rfl
  exact ⟨m', hrun, h⟩

theorem notify_defers_computed_and_queued :
    let m : Machine Unit :=
      { host := ()
        deps := #[{ subs := [⟨0⟩, ⟨1⟩] }]
        watchers := #[{ (default : WatcherCell) with lazy := true, active := true, deps := [⟨0⟩] },
          { (default : WatcherCell) with active := true, deps := [⟨0⟩] }] }
    m.config.asyncFlush = true ∧
      (∀ w ∈ m.notified ⟨0⟩, (m.watcher w).active = true → (m.watcher w).lazy = false →
        (m.watcher w).sync = false) ∧
      ∃ m', ExceptT.run (Eff.notify ⟨fun _ _ => pure .undefined, 0⟩ ⟨0⟩) m = .ok (.ok (), m') ∧
        m.Told (m.notified ⟨0⟩) m' :=
  ⟨rfl, by decide, notify_defers _ ⟨0⟩ _ rfl (by decide)⟩

/-- Over a run of notifications in asynchronous mode, on a machine with no synchronous watcher,
no getter runs: every watcher that a notified set lists, and that is not dropped on the way, is
told, so it ends marked dirty if computed and queued otherwise; the heap, the cells and the host
are as they were. When the flush that the run asked for starts, every watcher a change reached is
queued, and every computed value it reaches is marked. -/
theorem notifications_defer (r : Runner η) (ds : List DepId) (m : Machine η)
    (ha : m.config.asyncFlush = true) (hsync : m.NoSync) :
    ∃ told m', ExceptT.run (ds.forM (Eff.notify r)) m = .ok (.ok (), m') ∧ m.Told told m' ∧
      ∀ d ∈ ds, ∀ w ∈ m.notified d, w ∈ told ∨ (m'.watcher w).dropped = true := by
  induction ds generalizing m with
  | nil => exact ⟨[], m, rfl, .refl m, fun _ h => absurd h List.not_mem_nil⟩
  | cons d ds ih =>
    obtain ⟨m₁, hrun, h₁⟩ := notify_defers r d m ha fun w _ => hsync w
    obtain ⟨told, m', hrun', h', hall⟩ := ih m₁ (by rw [h₁.config]; exact ha) (h₁.noSync hsync)
    refine ⟨m.notified d ++ told, m', ?_, h₁.trans h', fun d' hd' w hw => ?_⟩
    · rw [List.forM_eq_forM, List.forM_cons, Eff.exec_bind, hrun]
      exact hrun'
    rcases List.mem_cons.1 hd' with rfl | hd'
    · exact .inl (List.mem_append_left _ hw)
    -- a watcher a later set lists is still listed after the first notification, or dropped
    obtain ⟨hs, -⟩ := Machine.mem_notified_iff.1 hw
    rcases h₁.subs d' w hs with hs₁ | hd₁
    · by_cases hdr : (m₁.watcher w).dropped = true
      · exact .inr (h'.stillDropped w hdr)
      · rcases hall d' hd' w (Machine.mem_notified_iff.2 ⟨hs₁, by simpa using hdr⟩) with h | h
        · exact .inl (List.mem_append_right _ h)
        · exact .inr h
    · exact .inr (h'.stillDropped w hd₁)

/-- An observed object `o = {a: false}` (its set first, then that of `a`), a computed value `c`
reading `o.a` and a synchronous watcher `s` whose getter says whether `o.a` and `c` agree, made
in that order: `s` read `o.a` before `c` did, so it comes first among the subscribers of `a`. -/
def syncBeforeComputed : Machine Unit :=
  { host := ()
    objects := #[{ slots := [("a", .tracked ⟨0⟩)], observer := some ⟨⟨0⟩, 0⟩ }]
    props := #[{ value := .bool false, dep := ⟨1⟩, childDep := none, shallow := false, hook := none }]
    deps := #[{}, { subs := [⟨1⟩, ⟨0⟩] }]
    watchers := #[
      { (default : WatcherCell) with
        getter := .function 0, lazy := true, active := true, value := .bool false, deps := [⟨1⟩] },
      { (default : WatcherCell) with
        getter := .function 1, sync := true, active := true, value := .bool true, deps := [⟨1⟩] }] }

/-- The getter of `s` gives `true` in every state, but writing `o.a` runs `s` while `c` is still
clean: it stores `false`, nothing is left to run, and its getter evaluated now gives `true`. -/
theorem sync_watcher_reads_stale_computed :
    let cached : Runner Unit := ⟨fun _ _ => Eff.objGet ⟨0⟩ "a", 4⟩
    let agree : Runner Unit := ⟨fun c _ => if c = 0 then Eff.objGet ⟨0⟩ "a" else do
      let a ← Eff.objGet ⟨0⟩ "a"
      let b ← Eff.computedGet cached ⟨0⟩
      pure (.bool (a.same b)), 4⟩
    ∃ m₁ m₂, ExceptT.run (Eff.objPut agree ⟨0⟩ "a" (.bool true)) syncBeforeComputed =
        .ok (.ok (), m₁) ∧
      (m₁.watcher ⟨1⟩).value = .bool false ∧ m₁.queue.has = [] ∧ m₁.ticks.jobs = #[] ∧
      ExceptT.run (Eff.evaluate agree ⟨1⟩) m₁ = .ok (.ok (.bool true), m₂) :=
  ⟨_, _, rfl, rfl, rfl, rfl, rfl⟩

end Reactivity

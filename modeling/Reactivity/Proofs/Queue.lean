import Reactivity.Schedule

/-!
# The flush queue at rest and under a walk

A queue at rest (`FlushQueue.Idle`) holds each queued watcher once, marks exactly those as
queued, and keeps no runs, drops or position from an earlier flush. A flush sorts it and
walks it by position; `FlushQueue.Walked L picked rest` describes the queue after the walk
has taken `picked`, in order, with `rest` still to come: `rest` is strictly increasing and is
exactly the set of watchers marked queued, each watcher's run count is the number of times
it was picked, and a watcher is dropped exactly when it was picked `L + 1` times. A dropped
watcher is never in `rest`, so the walk never passes over one.

`FlushQueue.Steady` is the queue as code outside the walk sees it: at rest, or inside the
step that picked the last entry of `picked`; which of the two it is, and what the walk has
picked, is part of the statement, so code that keeps it cannot end or restart a walk.
-/

namespace Reactivity

namespace WatcherId

theorem lt_iff {a b : WatcherId} : a < b ↔ a.idx < b.idx := Iff.rfl

theorem idx_inj {a b : WatcherId} : a.idx = b.idx ↔ a = b := by
  cases a; cases b; simp

theorem lt_irrefl (a : WatcherId) : ¬ a < a := Nat.lt_irrefl a.idx

theorem ne_of_lt {a b : WatcherId} (h : a < b) : a ≠ b := fun e => lt_irrefl a (e ▸ h)

theorem pairwise_lt {l : List WatcherId} (hs : l.Pairwise fun a b => a.idx ≤ b.idx)
    (hn : l.Nodup) : l.Pairwise (· < ·) :=
  (hs.and hn).imp fun ⟨hle, hne⟩ =>
    lt_iff.2 (Nat.lt_of_le_of_ne hle fun h => hne (idx_inj.1 h))

end WatcherId

/-- The step a flush with limit `L` takes at its `k`-th pick of one watcher. -/
def pickStep (L k : Nat) : Step := if k ≤ L then .run else .runaway k

namespace FlushQueue

variable {L : Nat} {q : FlushQueue} {w : WatcherId} {picked rest : List WatcherId}

/-- The queued watchers not yet taken: the whole queue, or those after the current position
while a flush runs. -/
def pending (q : FlushQueue) : List WatcherId :=
  if q.flushing then q.queue.toList.drop (q.index + 1) else q.queue.toList

/-- A queue between flushes. -/
structure Idle (q : FlushQueue) : Prop where
  nodup : q.queue.toList.Nodup
  mem_has : ∀ w, w ∈ q.has ↔ w ∈ q.queue.toList
  has_nodup : q.has.Nodup
  runs : q.runs = []
  dropped : q.dropped = []
  index : q.index = 0
  waiting : q.waiting = true ↔ q.queue.toList ≠ []

/-- A queue whose walk has taken `picked` in order and has `rest` still to come. -/
structure Walked (L : Nat) (picked rest : List WatcherId) (q : FlushQueue) : Prop where
  queue : q.queue.toList = picked ++ rest
  sorted : rest.Pairwise (· < ·)
  mem_has : ∀ w, w ∈ q.has ↔ w ∈ rest
  has_nodup : q.has.Nodup
  runs : ∀ w, (q.runs.lookup w).getD 0 = picked.count w
  count_le : ∀ w, picked.count w ≤ L + 1
  mem_dropped : ∀ w, w ∈ q.dropped ↔ picked.count w = L + 1
  live : ∀ w ∈ rest, w ∉ q.dropped

theorem Walked.with_index {L : Nat} {picked rest : List WatcherId} {q : FlushQueue}
    (h : Walked L picked rest q) (i : Nat) : Walked L picked rest { q with index := i } :=
  ⟨h.queue, h.sorted, h.mem_has, h.has_nodup, h.runs, h.count_le, h.mem_dropped, h.live⟩

/-- The queue as code outside a walk sees it: at rest when no walk runs (`none`), or inside
the step of a walk with limit `L` that has just picked the last of `picked`, with a queue that
still holds `floor` in order (`some (picked, floor)`). -/
def Steady (L : Nat) : Option (List WatcherId × List WatcherId) → FlushQueue → Prop
  | none, q => q.flushing = false ∧ Idle q
  | some (picked, floor), q => q.flushing = true ∧ picked.length = q.index + 1 ∧
      (∃ rest, Walked L picked rest q) ∧ floor.Sublist q.queue.toList

/-! ## What the invariants say about the pending watchers -/

theorem Walked.pending (h : Walked L picked rest q) (hf : q.flushing = true)
    (hi : picked.length = q.index + 1) : q.pending = rest := by
  simp [FlushQueue.pending, hf, h.queue, ← hi]

theorem Walked.not_mem_rest (h : Walked L picked (w :: rest) q) : w ∉ rest := fun hw =>
  WatcherId.lt_irrefl w ((List.pairwise_cons.1 h.sorted).1 w hw)

/-- The pending watchers of a steady queue are distinct and are the ones marked queued; while
a flush runs they are strictly increasing. -/
theorem Steady.pending {ongoing : Option (List WatcherId × List WatcherId)} (h : Steady L ongoing q) :
    q.pending.Nodup ∧ (∀ w, w ∈ q.has ↔ w ∈ q.pending) ∧
      (q.flushing = true → q.pending.Pairwise (· < ·)) := by
  cases ongoing with
  | none =>
    obtain ⟨hf, hi⟩ := h
    simp only [FlushQueue.pending, hf]
    exact ⟨hi.nodup, hi.mem_has, by simp⟩
  | some _ =>
    obtain ⟨hf, hl, ⟨rest, hw⟩, -⟩ := h
    rw [hw.pending hf hl]
    exact ⟨hw.sorted.imp WatcherId.ne_of_lt, hw.mem_has, fun _ => hw.sorted⟩

theorem Steady.idle {ongoing : Option (List WatcherId × List WatcherId)} (h : Steady L ongoing q)
    (hf : q.flushing = false) : ongoing = none ∧ Idle q := by
  cases ongoing with
  | none => exact ⟨rfl, h.2⟩
  | some _ => exact absurd (h.1.symm.trans hf) Bool.noConfusion

theorem Idle.empty : Idle ({} : FlushQueue) where
  nodup := List.nodup_nil
  mem_has := by simp
  has_nodup := List.nodup_nil
  runs := rfl
  dropped := rfl
  index := rfl
  waiting := by simp

/-! ## Starting a walk -/

theorem sorted_perm (q : FlushQueue) : q.sorted.Perm q.queue.toList :=
  List.mergeSort_perm _ _

theorem Idle.sorted_lt (h : Idle q) : q.sorted.Pairwise (· < ·) := by
  have hs : q.sorted.Pairwise fun a b => decide (a.idx ≤ b.idx) = true :=
    List.pairwise_mergeSort (fun _ _ _ h₁ h₂ => by simp only [decide_eq_true_eq] at *; omega)
      (fun a b => by simpa using Nat.le_total a.idx b.idx) _
  exact WatcherId.pairwise_lt (hs.imp of_decide_eq_true) ((sorted_perm q).nodup_iff.2 h.nodup)

theorem Idle.start (h : Idle q) : Walked L [] q.sorted q.start where
  queue := by simp [FlushQueue.start]
  sorted := h.sorted_lt
  mem_has w := (h.mem_has w).trans (sorted_perm q).mem_iff.symm
  has_nodup := h.has_nodup
  runs w := by simp [FlushQueue.start, h.runs]
  count_le w := by simp
  mem_dropped w := by simp [FlushQueue.start, h.dropped]
  live w _ := by simp [FlushQueue.start, h.dropped]

theorem Idle.sorted_eq {q' : FlushQueue} (h : Idle q) (h' : Idle q')
    (hp : q.queue.toList.Perm q'.queue.toList) : q.sorted = q'.sorted :=
  List.Perm.eq_of_pairwise
    (fun _ _ _ _ hab hba => WatcherId.idx_inj.1 (Nat.le_antisymm hab hba))
    (h.sorted_lt.imp Nat.le_of_lt) (h'.sorted_lt.imp Nat.le_of_lt)
    ((sorted_perm q).trans (hp.trans (sorted_perm q').symm))

/-! ## One pick -/

theorem lookup_filter_ne (l : List (WatcherId × Nat)) {a : WatcherId} (h : a ≠ w) :
    (l.filter (·.1 ≠ w)).lookup a = l.lookup a := by
  induction l with
  | nil => rfl
  | cons e l ih =>
    obtain ⟨k, v⟩ := e
    by_cases he : k = w
    · subst he
      rw [List.filter_cons_of_neg (by simp), ih, List.lookup_cons, beq_false_of_ne h]
    · rw [List.filter_cons_of_pos (by simpa using he), List.lookup_cons, List.lookup_cons, ih]

theorem count_append_singleton (l : List WatcherId) (a w : WatcherId) :
    (l ++ [w]).count a = l.count a + if a = w then 1 else 0 := by
  by_cases h : a = w
  · subst h; simp
  · simp [h, Ne.symm h]

/-- A walk that has taken `picked` and stands at position `picked.length` picks the first
watcher still to come, the smallest pending one: its run is counted once more, it is dropped
at its `L + 1`-th pick, and it is never passed over as dropped. -/
theorem Walked.pick (h : Walked L picked (w :: rest) q) (hi : q.index = picked.length) :
    ∃ q', q.pick L = some (w, pickStep L (picked.count w + 1), q') ∧
      Walked L (picked ++ [w]) rest q' ∧ q'.queue = q.queue ∧ q'.index = q.index ∧
      q'.flushing = q.flushing ∧ q'.waiting = q.waiting := by
  have hget : q.queue[q.index]? = some w := by
    rw [← Array.getElem?_toList, h.queue, hi]; simp
  have hd : w ∉ q.dropped := h.live w List.mem_cons_self
  have hle : picked.count w ≤ L := by
    have := h.count_le w
    have := mt (h.mem_dropped w).2 hd
    omega
  have hrest := h.not_mem_rest
  let counted := (w, picked.count w + 1) :: q.runs.filter (·.1 ≠ w)
  let dropped := if picked.count w + 1 ≤ L then q.dropped else w :: q.dropped
  refine ⟨{ q with has := q.has.erase w, runs := counted, dropped := dropped }, ?_, ?_,
    rfl, rfl, rfl, rfl⟩
  · have hc : q.dropped.contains w = false := by simpa using hd
    simp only [FlushQueue.pick, hget, Option.pure_def, Option.bind_eq_bind, Option.bind_some,
      h.runs w, hc, Bool.false_eq_true, if_false, pickStep, counted, dropped]
    by_cases hk : picked.count w + 1 ≤ L
    · rw [if_neg (by omega), if_pos hk, if_pos hk]
    · rw [if_pos (by omega), if_neg hk, if_neg hk]
  · refine ⟨by simp [h.queue], (List.pairwise_cons.1 h.sorted).2, fun x => ?_,
      h.has_nodup.erase w, fun x => ?_, fun x => ?_, fun x => ?_, fun x hx => ?_⟩
    · rw [h.has_nodup.mem_erase_iff, h.mem_has, List.mem_cons]
      exact ⟨fun ⟨hne, hx⟩ => hx.resolve_left hne, fun hx => ⟨fun e => hrest (e ▸ hx), .inr hx⟩⟩
    · rw [count_append_singleton]
      by_cases hx : x = w
      · subst hx; simp [counted]
      · simp only [counted]
        rw [List.lookup_cons, beq_false_of_ne hx, lookup_filter_ne _ hx, h.runs x]
        simp [hx]
    · rw [count_append_singleton]
      by_cases hx : x = w
      · subst hx; simp only [ite_true]; omega
      · simp only [hx, ite_false, Nat.add_zero]; exact h.count_le x
    · rw [count_append_singleton]
      by_cases hx : x = w
      · subst hx
        rw [if_pos rfl]
        by_cases hk : picked.count x + 1 ≤ L
        · simp only [dropped, hk, ite_true, hd, false_iff]; omega
        · simp only [dropped, hk, ite_false, List.mem_cons_self, true_iff]; omega
      · have : x ∈ dropped ↔ x ∈ q.dropped := by simp only [dropped]; split <;> simp [hx]
        simp only [this, hx, ite_false, Nat.add_zero]; exact h.mem_dropped x
    · have hxw : x ≠ w := fun e => hrest (e ▸ hx)
      have hxd := h.live x (List.mem_cons_of_mem w hx)
      simp only [dropped]; split <;> simp [hxw, hxd]

theorem Walked.pick_eq_none (h : Walked L picked rest q) (hi : q.index = picked.length) :
    q.pick L = none ↔ rest = [] := by
  cases rest with
  | nil =>
    have hget : q.queue[q.index]? = none := by
      rw [← Array.getElem?_toList, h.queue, hi]; simp
    simp [FlushQueue.pick, hget]
  | cons w rest =>
    obtain ⟨q', hp, -⟩ := h.pick hi
    simp [hp]

/-! ## Joining the queue -/

theorem insertionPoint_eq (w : WatcherId) (h : q.queue.toList = picked ++ rest)
    (hi : picked.length = q.index + 1) (hs : rest.Pairwise (· < ·)) :
    ∃ k, Eff.insertionPoint q.queue q.index w = picked.length + k ∧
      (∀ x ∈ rest.take k, ¬ w < x) ∧ ∀ x ∈ rest.drop k, w < x := by
  -- scanning back from position `picked.length + j`, the scan stops after the last watcher
  -- of `rest.take j` that is not greater than `w`
  have scan : ∀ j ≤ rest.length, ∃ k ≤ j,
      Eff.insertionPoint.go q.queue q.index w (picked.length + j) = picked.length + k ∧
      (∀ x ∈ rest.take k, ¬ w < x) ∧ ∀ x ∈ (rest.take j).drop k, w < x := by
    intro j
    induction j with
    | zero =>
      intro _
      refine ⟨0, Nat.le_refl 0, ?_, by simp, by simp⟩
      rw [hi, Eff.insertionPoint.go]
      simp
    | succ j ih =>
      intro hj
      obtain ⟨k, hk, hgo, hlow, hhigh⟩ := ih (Nat.le_of_succ_le hj)
      have hj' : j < rest.length := hj
      have hget : q.queue[picked.length + j]? = some rest[j] := by
        rw [← Array.getElem?_toList, h, List.getElem?_append_right (by omega),
          Nat.add_sub_cancel_left, List.getElem?_eq_getElem hj']
      have hbefore : ∀ x ∈ rest.take j, x < rest[j] := by
        have hp := List.take_append_drop j rest ▸ hs
        exact fun x hx => (List.pairwise_append.1 hp).2.2 x hx rest[j]
          (by rw [List.mem_drop_iff_getElem]; exact ⟨0, by omega, by simp⟩)
      have htake : rest.take (j + 1) = rest.take j ++ [rest[j]] := by
        rw [List.take_add_one, List.getElem?_eq_getElem hj']; rfl
      have hg : q.queue[picked.length + j]?.getD w = rest[j] := by rw [hget]; rfl
      rw [show picked.length + (j + 1) = picked.length + j + 1 by omega, Eff.insertionPoint.go]
      by_cases hw : w < rest[j]
      · have hcond : (picked.length + j + 1 > q.index + 1 && w < (q.queue[picked.length + j]?.getD w)) = true := by
          simp only [hg, hw, decide_true, Bool.and_true, decide_eq_true_eq]; omega
        rw [if_pos hcond, hgo]
        refine ⟨k, by omega, rfl, hlow, ?_⟩
        rw [htake, List.drop_append_of_le_length (by simp; omega)]
        intro x hx
        rcases List.mem_append.1 hx with hx | hx
        · exact hhigh x hx
        · simp only [List.mem_singleton] at hx; exact hx ▸ hw
      · have hcond : (picked.length + j + 1 > q.index + 1 && w < (q.queue[picked.length + j]?.getD w)) = false := by
          simp only [hg, hw, decide_false, Bool.and_false]
        rw [if_neg (ne_true_of_eq_false hcond)]
        refine ⟨j + 1, Nat.le_refl _, by omega, ?_, by simp⟩
        rw [htake]
        intro x hx
        rcases List.mem_append.1 hx with hx | hx
        · have := hbefore x hx
          simp only [WatcherId.lt_iff] at *
          omega
        · simp only [List.mem_singleton] at hx; exact hx ▸ hw
  obtain ⟨k, -, hgo, hlow, hhigh⟩ := scan rest.length (Nat.le_refl _)
  refine ⟨k, ?_, hlow, by simpa using hhigh⟩
  have hsize : q.queue.size = picked.length + rest.length := by
    rw [← Array.length_toList, h, List.length_append]
  rw [Eff.insertionPoint, hsize, hgo]

theorem Idle.push (h : Idle q) (hw : w ∉ q.has) :
    Idle { q with has := w :: q.has, queue := q.queue.push w, waiting := true } where
  nodup := by
    rw [Array.toList_push]
    exact List.nodup_append.2 ⟨h.nodup, by simp,
      fun a ha b hb e => hw ((h.mem_has w).2 (by simp at hb; exact hb ▸ e ▸ ha))⟩
  mem_has x := by simp [h.mem_has x, or_comm]
  has_nodup := List.nodup_cons.2 ⟨hw, h.has_nodup⟩
  runs := h.runs
  dropped := h.dropped
  index := h.index
  waiting := by simp

theorem Walked.insert (h : Walked L picked rest q) (hi : picked.length = q.index + 1)
    (hw : w ∉ q.has) (hd : w ∉ q.dropped) (b : Bool) :
    ∃ rest', Walked L picked rest' { q with
      has := w :: q.has, waiting := b,
      queue := (q.queue.toList.take (Eff.insertionPoint q.queue q.index w) ++
        w :: q.queue.toList.drop (Eff.insertionPoint q.queue q.index w)).toArray } := by
  obtain ⟨k, hk, hlow, hhigh⟩ := insertionPoint_eq w h.queue hi h.sorted
  have hwr : w ∉ rest := fun hr => hw ((h.mem_has w).2 hr)
  have hperm : (rest.take k ++ w :: rest.drop k).Perm (w :: rest) := by
    simpa using (List.perm_middle : (rest.take k ++ w :: rest.drop k).Perm
      (w :: (rest.take k ++ rest.drop k)))
  have hs := List.take_append_drop k rest ▸ h.sorted
  refine ⟨rest.take k ++ w :: rest.drop k, ⟨?_, ?_, fun x => ?_, ?_, h.runs, h.count_le,
    h.mem_dropped, fun x hx => ?_⟩⟩
  · simp [hk, h.queue, List.take_length_add_append, List.drop_length_add_append]
  · refine List.pairwise_append.2 ⟨(List.pairwise_append.1 hs).1,
      List.pairwise_cons.2 ⟨hhigh, (List.pairwise_append.1 hs).2.1⟩, fun a ha c hc => ?_⟩
    rcases List.mem_cons.1 hc with rfl | hc
    · have hne : a ≠ c := fun e => hwr (e ▸ List.mem_of_mem_take ha)
      have := hlow a ha
      simp only [WatcherId.lt_iff, ne_eq, ← WatcherId.idx_inj] at *
      omega
    · exact (List.pairwise_append.1 hs).2.2 a ha c hc
  · simp [hperm.mem_iff, h.mem_has x]
  · exact List.nodup_cons.2 ⟨hw, h.has_nodup⟩
  · rcases List.mem_cons.1 (hperm.mem_iff.1 hx) with rfl | hx
    · exact hd
    · exact h.live x hx

theorem sublist_insert (l : List WatcherId) (p : Nat) (w : WatcherId) :
    l.Sublist (l.take p ++ w :: l.drop p) := by
  have h := (List.sublist_cons_self w (l.drop p)).append_left (l.take p)
  rwa [List.take_append_drop] at h

/-- A watcher neither queued nor dropped joins a steady queue, which then asks for a flush:
at the end of a queue at rest, in order among the watchers still to come of a walk. -/
theorem Steady.enqueue {ongoing : Option (List WatcherId × List WatcherId)} (h : Steady L ongoing q) (hw : w ∉ q.has)
    (hd : w ∉ q.dropped) :
    Steady L ongoing { q with
      has := w :: q.has, waiting := true,
      queue := if q.flushing = true then
          (q.queue.toList.take (Eff.insertionPoint q.queue q.index w) ++
            w :: q.queue.toList.drop (Eff.insertionPoint q.queue q.index w)).toArray
        else q.queue.push w } := by
  cases ongoing with
  | none =>
    obtain ⟨hf, hi⟩ := h
    rw [if_neg (by simp [hf])]
    exact ⟨hf, hi.push hw⟩
  | some _ =>
    obtain ⟨hf, hl, ⟨rest, hr⟩, hfloor⟩ := h
    rw [if_pos hf]
    exact ⟨hf, hl, hr.insert hl hw hd true, hfloor.trans (by simpa using sublist_insert _ _ w)⟩

end FlushQueue

end Reactivity

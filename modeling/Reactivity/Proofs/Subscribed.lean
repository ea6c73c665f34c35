import Mathlib
import Reactivity.Proofs.Stable
import Reactivity.Proofs.Frame
import Reactivity.Proofs.Queue

/-!
# Consistent subscriptions

`Machine.Subscribed`: every dependency set lists only watchers that read it, in their last
evaluation or in the one under way; a live watcher (active, and not dropped by collection) is
listed by every set it read; no list holds an entry twice; and every set read exists. Each
primitive update keeps it (`subscribed_stable`), so reading, evaluating, running and creating
watchers do too, given host code that keeps it.
-/

namespace Reactivity

variable {η : Type}

theorem DepId.idx_inj {a b : DepId} : a.idx = b.idx ↔ a = b := by
  cases a; cases b; simp

namespace WatcherCell

/-- `c` read `d`, in its last evaluation or in the one under way. -/
def Reads (c : WatcherCell) (d : DepId) : Prop := d ∈ c.deps ∨ d ∈ c.newDeps

/-- `c` is live: active, and not dropped by collection. -/
def Live (c : WatcherCell) : Prop := c.active = true ∧ c.dropped = false

theorem deps_congr {c c' : WatcherCell} (h : c'.tracking = c.tracking) : c'.deps = c.deps :=
  congrArg Prod.fst h

theorem newDeps_congr {c c' : WatcherCell} (h : c'.tracking = c.tracking) :
    c'.newDeps = c.newDeps :=
  congrArg (·.2.1) h

theorem reads_congr {c c' : WatcherCell} (h : c'.tracking = c.tracking) (d : DepId) :
    c'.Reads d ↔ c.Reads d := by
  simp only [Reads, deps_congr h, newDeps_congr h]

theorem live_congr {c c' : WatcherCell} (h : c'.tracking = c.tracking) : c'.Live ↔ c.Live := by
  have ha : c'.active = c.active := congrArg (·.2.2.1) h
  have hd : c'.dropped = c.dropped := congrArg (·.2.2.2) h
  simp only [Live, ha, hd]

theorem not_reads_default (d : DepId) : ¬ (default : WatcherCell).Reads d := by
  show ¬ (d ∈ [] ∨ d ∈ [])
  simp

theorem not_live_default : ¬ (default : WatcherCell).Live := by
  show ¬ (false = true ∧ _)
  simp

end WatcherCell

namespace Machine

/-! ## Views of the tables after an update -/

theorem watcher_modify (m : Machine η) (w w' : WatcherId) (f : WatcherCell → WatcherCell)
    (h : w.idx < m.watchers.size ∨ f default = default) :
    ({ m with watchers := m.watchers.modify w.idx f } : Machine η).watcher w' =
      if w' = w then f (m.watcher w') else m.watcher w' := by
  unfold Machine.watcher
  simp only [Array.getElem?_modify]
  by_cases hw : w' = w
  · subst hw
    by_cases hlt : w'.idx < m.watchers.size
    · simp [Array.getElem?_eq_getElem hlt]
    · have hf : f default = default := h.resolve_left hlt
      simp [Array.getElem?_eq_none (Nat.le_of_not_lt hlt), hf]
  · have hne : w.idx ≠ w'.idx := fun e => hw (WatcherId.idx_inj.1 e.symm)
    simp [hw, hne]

theorem dep_modify (m : Machine η) (d d' : DepId) (f : DepCell → DepCell)
    (h : d.idx < m.deps.size ∨ f default = default) :
    ({ m with deps := m.deps.modify d.idx f } : Machine η).dep d' =
      if d' = d then f (m.dep d') else m.dep d' := by
  unfold Machine.dep
  simp only [Array.getElem?_modify]
  by_cases hd : d' = d
  · subst hd
    by_cases hlt : d'.idx < m.deps.size
    · simp [Array.getElem?_eq_getElem hlt]
    · have hf : f default = default := h.resolve_left hlt
      simp [Array.getElem?_eq_none (Nat.le_of_not_lt hlt), hf]
  · have hne : d.idx ≠ d'.idx := fun e => hd (DepId.idx_inj.1 e.symm)
    simp [hd, hne]

theorem watcher_push (m : Machine η) (c : WatcherCell) (w : WatcherId) :
    ({ m with watchers := m.watchers.push c } : Machine η).watcher w =
      if w.idx = m.watchers.size then c else m.watcher w := by
  unfold Machine.watcher
  simp only [Array.getElem?_push]
  split <;> rfl

theorem dep_push_subs (m : Machine η) (d : DepId) :
    (({ m with deps := m.deps.push {} } : Machine η).dep d).subs = (m.dep d).subs := by
  unfold Machine.dep
  simp only [Array.getElem?_push]
  split
  · rename_i h
    simp [Array.getElem?_eq_none (Nat.le_of_eq h.symm)]
    rfl
  · rfl

theorem watcher_of_size_le {m : Machine η} {w : WatcherId} (h : m.watchers.size ≤ w.idx) :
    m.watcher w = default := by
  unfold Machine.watcher
  simp [Array.getElem?_eq_none h]

theorem dep_of_size_le {m : Machine η} {d : DepId} (h : m.deps.size ≤ d.idx) :
    m.dep d = default := by
  unfold Machine.dep
  simp [Array.getElem?_eq_none h]

theorem watcher_eq_of_watchers_eq {m m' : Machine η} (h : m'.watchers = m.watchers) (w : WatcherId) :
    m'.watcher w = m.watcher w := by
  unfold Machine.watcher; rw [h]

/-! ## The invariant -/

/-- Subscriptions agree with what watchers read. -/
structure Subscribed (m : Machine η) : Prop where
  listed : ∀ {w d}, w ∈ (m.dep d).subs → (m.watcher w).Reads d
  complete : ∀ {w d}, (m.watcher w).Live → (m.watcher w).Reads d → w ∈ (m.dep d).subs
  allocated : ∀ {w d}, (m.watcher w).Reads d → d.idx < m.deps.size
  deps_nodup : ∀ w, (m.watcher w).deps.Nodup
  newDeps_nodup : ∀ w, (m.watcher w).newDeps.Nodup
  subs_nodup : ∀ d, (m.dep d).subs.Nodup

variable {m m' : Machine η}

theorem Subscribed.of_frame (hm : m.Subscribed)
    (hw : ∀ w, (m'.watcher w).tracking = (m.watcher w).tracking)
    (hd : ∀ d, (m'.dep d).subs = (m.dep d).subs) (hs : m.deps.size ≤ m'.deps.size) :
    m'.Subscribed where
  listed h := by
    rw [hd] at h
    exact (WatcherCell.reads_congr (hw _) _).2 (hm.listed h)
  complete hl hr := by
    rw [hd]
    exact hm.complete ((WatcherCell.live_congr (hw _)).1 hl) ((WatcherCell.reads_congr (hw _) _).1 hr)
  allocated hr := Nat.lt_of_lt_of_le (hm.allocated ((WatcherCell.reads_congr (hw _) _).1 hr)) hs
  deps_nodup w := by
    rw [WatcherCell.deps_congr (hw w)]
    exact hm.deps_nodup w
  newDeps_nodup w := by
    rw [WatcherCell.newDeps_congr (hw w)]
    exact hm.newDeps_nodup w
  subs_nodup d := by
    rw [hd]
    exact hm.subs_nodup d

theorem Subscribed.of_tables (hm : m.Subscribed) (hw : m'.watchers = m.watchers)
    (hd : m'.deps = m.deps) : m'.Subscribed := by
  refine hm.of_frame (fun w => ?_) (fun d => ?_) (by rw [hd])
  · rw [watcher_eq_of_watchers_eq hw]
  · unfold Machine.dep; rw [hd]

theorem watcher_modify_of_size_le (m : Machine η) (w w' : WatcherId)
    (f : WatcherCell → WatcherCell) (h : m.watchers.size ≤ w.idx) :
    ({ m with watchers := m.watchers.modify w.idx f } : Machine η).watcher w' = m.watcher w' := by
  unfold Machine.watcher
  simp only [Array.getElem?_modify]
  split
  · rename_i he
    simp [← he, Array.getElem?_eq_none h]
  · rfl

/-! ## Leaving sets -/

section Unsubscribe

variable {w w' : WatcherId} {d d' : DepId}

theorem subs_unsubscribe (m : Machine η) :
    ((m.unsubscribe d w).dep d').subs = if d' = d then (m.dep d').subs.erase w else (m.dep d').subs := by
  unfold unsubscribe
  rw [dep_modify _ _ _ _ (.inr rfl)]
  split <;> rfl

theorem mem_subs_unsubscribe (m : Machine η) (hnd : (m.dep d).subs.Nodup) :
    w' ∈ ((m.unsubscribe d w).dep d').subs ↔ w' ∈ (m.dep d').subs ∧ ¬ (d' = d ∧ w' = w) := by
  rw [subs_unsubscribe]
  by_cases hd : d' = d
  · subst hd
    simp [hnd.mem_erase_iff, and_comm]
  · simp [hd]

theorem foldl_unsubscribe_watchers (ds : List DepId) (m : Machine η) :
    (ds.foldl (fun m d => m.unsubscribe d w) m).watchers = m.watchers := by
  induction ds generalizing m with
  | nil => rfl
  | cons d ds ih => exact ih (m.unsubscribe d w)

theorem foldl_unsubscribe_size (ds : List DepId) (m : Machine η) :
    (ds.foldl (fun m d => m.unsubscribe d w) m).deps.size = m.deps.size := by
  induction ds generalizing m with
  | nil => rfl
  | cons d ds ih => exact (ih (m.unsubscribe d w)).trans Array.size_modify

theorem foldl_unsubscribe (ds : List DepId) (m : Machine η) (hnd : ∀ d, (m.dep d).subs.Nodup) :
    (∀ d, ((ds.foldl (fun m d => m.unsubscribe d w) m).dep d).subs.Nodup) ∧
    ∀ w' d', w' ∈ ((ds.foldl (fun m d => m.unsubscribe d w) m).dep d').subs ↔
      w' ∈ (m.dep d').subs ∧ ¬ (d' ∈ ds ∧ w' = w) := by
  induction ds generalizing m with
  | nil => exact ⟨hnd, fun _ _ => by simp⟩
  | cons d ds ih =>
    have hnd' : ∀ d', ((m.unsubscribe d w).dep d').subs.Nodup := fun d' => by
      rw [subs_unsubscribe]
      split
      · exact (hnd d').erase w
      · exact hnd d'
    obtain ⟨ihnd, ihmem⟩ := ih (m.unsubscribe d w) hnd'
    refine ⟨ihnd, fun w' d' => ?_⟩
    rw [List.foldl_cons, ihmem, mem_subs_unsubscribe m (hnd d), List.mem_cons]
    tauto

end Unsubscribe

variable {w : WatcherId} {d : DepId}

/-- Leaving the sets `S`, then an update `g` of the watcher that forgets no read outside `S`, and
leaves the watcher live only if it keeps none of `S`: the shape of reconciling, tearing down
and dropping a watcher. -/
theorem Subscribed.forget (hm : m.Subscribed) (S : List DepId) (g : WatcherCell → WatcherCell)
    (hg : w.idx < m.watchers.size ∨ g default = default)
    (hreads : ∀ d, (g (m.watcher w)).Reads d → (m.watcher w).Reads d)
    (hkept : ∀ d, (m.watcher w).Reads d → d ∉ S → (g (m.watcher w)).Reads d)
    (hlive : (g (m.watcher w)).Live → (m.watcher w).Live ∧ ∀ d ∈ S, ¬ (g (m.watcher w)).Reads d)
    (hnodup : (g (m.watcher w)).deps.Nodup ∧ (g (m.watcher w)).newDeps.Nodup)
    {m₁ : Machine η} (h₁ : m₁ = S.foldl (fun m d => m.unsubscribe d w) m) :
    ({ m₁ with watchers := m₁.watchers.modify w.idx g } : Machine η).Subscribed := by
  have hws : m₁.watchers = m.watchers := h₁ ▸ foldl_unsubscribe_watchers S m
  have hw₁ : ∀ w', m₁.watcher w' = m.watcher w' := watcher_eq_of_watchers_eq hws
  have hW : ∀ w', ({ m₁ with watchers := m₁.watchers.modify w.idx g } : Machine η).watcher w' =
      if w' = w then g (m.watcher w') else m.watcher w' := fun w' => by
    rw [watcher_modify _ _ _ _ (hws ▸ hg), hw₁]
  obtain ⟨hnd₁, hmem₁⟩ := foldl_unsubscribe S m hm.subs_nodup
  rw [← h₁] at hnd₁ hmem₁
  have hsize : m₁.deps.size = m.deps.size := h₁ ▸ foldl_unsubscribe_size S m
  constructor
  · intro w' d' h
    change w' ∈ (m₁.dep d').subs at h
    obtain ⟨hin, hnot⟩ := (hmem₁ w' d').1 h
    rw [hW]
    by_cases hw' : w' = w
    · subst hw'
      rw [if_pos rfl]
      exact hkept d' (hm.listed hin) fun hd => hnot ⟨hd, rfl⟩
    · rw [if_neg hw']
      exact hm.listed hin
  · intro w' d' hl hr
    change w' ∈ (m₁.dep d').subs
    rw [hW] at hl hr
    by_cases hw' : w' = w
    · subst hw'
      rw [if_pos rfl] at hl hr
      obtain ⟨hl₀, hS⟩ := hlive hl
      exact (hmem₁ _ _).2 ⟨hm.complete hl₀ (hreads _ hr), fun ⟨hd, _⟩ => hS d' hd hr⟩
    · rw [if_neg hw'] at hl hr
      exact (hmem₁ _ _).2 ⟨hm.complete hl hr, fun ⟨_, e⟩ => hw' e⟩
  · intro w' d' hr
    change d'.idx < m₁.deps.size
    rw [hsize]
    rw [hW] at hr
    by_cases hw' : w' = w
    · subst hw'
      rw [if_pos rfl] at hr
      exact hm.allocated (hreads _ hr)
    · rw [if_neg hw'] at hr
      exact hm.allocated hr
  · intro w'
    rw [hW]
    by_cases hw' : w' = w
    · subst hw'; rw [if_pos rfl]; exact hnodup.1
    · rw [if_neg hw']; exact hm.deps_nodup w'
  · intro w'
    rw [hW]
    by_cases hw' : w' = w
    · subst hw'; rw [if_pos rfl]; exact hnodup.2
    · rw [if_neg hw']; exact hm.newDeps_nodup w'
  · exact hnd₁

theorem lt_of_active (h : (m.watcher w).active = true) : w.idx < m.watchers.size := by
  by_contra hlt
  rw [watcher_of_size_le (Nat.le_of_not_lt hlt)] at h
  exact absurd h (by decide)

/-! ## Recording a read -/

section Record

variable (hm : m.Subscribed) (hact : (m.watcher w).active = true)
  (hnew : d ∉ (m.watcher w).newDeps)
include hm hact hnew

omit hm hnew in
theorem watcher_record (w' : WatcherId) :
    ({ m with watchers := m.watchers.modify w.idx fun c => { c with newDeps := c.newDeps ++ [d] } }
      : Machine η).watcher w' =
      if w' = w then { m.watcher w' with newDeps := (m.watcher w').newDeps ++ [d] }
      else m.watcher w' :=
  watcher_modify _ _ _ _ (.inl (lt_of_active hact))

omit hm in
theorem reads_record (w' : WatcherId) (d' : DepId) :
    (({ m with watchers := m.watchers.modify w.idx fun c => { c with newDeps := c.newDeps ++ [d] } }
      : Machine η).watcher w').Reads d' ↔ (m.watcher w').Reads d' ∨ (w' = w ∧ d' = d) := by
  rw [watcher_record hact]
  by_cases hw : w' = w
  · subst hw
    simp only [if_pos, WatcherCell.Reads, List.mem_append, List.mem_singleton, true_and]
    tauto
  · simp [hw]

theorem Subscribed.record_known (hd : d ∈ (m.watcher w).deps) :
    ({ m with watchers := m.watchers.modify w.idx fun c => { c with newDeps := c.newDeps ++ [d] } }
      : Machine η).Subscribed where
  listed h := (reads_record hact hnew _ _).2 (.inl (hm.listed h))
  complete {w' d'} hl hr := by
    have hl₀ : (m.watcher w').Live := by
      rw [watcher_record hact] at hl
      split at hl
      · subst w'; exact hl
      · exact hl
    rcases (reads_record hact hnew _ _).1 hr with hr | ⟨rfl, rfl⟩
    · exact hm.complete hl₀ hr
    · exact hm.complete hl₀ (.inl hd)
  allocated {w' d'} hr := by
    rcases (reads_record hact hnew _ _).1 hr with hr | ⟨rfl, rfl⟩
    · exact hm.allocated hr
    · exact hm.allocated (.inl hd)
  deps_nodup w' := by
    rw [watcher_record hact]
    split
    · subst w'; exact hm.deps_nodup _
    · exact hm.deps_nodup w'
  newDeps_nodup w' := by
    rw [watcher_record hact]
    split
    · subst w'
      exact (hm.newDeps_nodup _).append (List.nodup_singleton d) (List.disjoint_singleton.2 hnew)
    · exact hm.newDeps_nodup w'
  subs_nodup := hm.subs_nodup

theorem Subscribed.record_new (hlt : d.idx < m.deps.size) {m₁ m₂ : Machine η}
    (h₁ : m₁ = { m with
      watchers := m.watchers.modify w.idx fun c => { c with newDeps := c.newDeps ++ [d] } })
    (h₂ : m₂ = { m₁ with
      deps := m₁.deps.modify d.idx fun c =>
        if c.subs.contains w then c else { c with subs := c.subs ++ [w] } }) :
    m₂.Subscribed := by
  have hW : ∀ w', m₂.watcher w' = m₁.watcher w' := fun w' => by rw [h₂]; rfl
  have hsubs : ∀ d', (m₂.dep d').subs =
      if d' = d ∧ w ∉ (m.dep d').subs then (m.dep d').subs ++ [w] else (m.dep d').subs := by
    intro d'
    rw [h₂, dep_modify _ _ _ _ (by rw [h₁]; exact .inl hlt)]
    have hd₁ : m₁.dep d' = m.dep d' := by rw [h₁]; rfl
    by_cases hd : d' = d
    · subst hd
      by_cases hw : w ∈ (m.dep d').subs
      · simp [hw, hd₁]
      · simp [hw, hd₁]
    · simp [hd, hd₁]
  have hmem : ∀ w' d', w' ∈ (m₂.dep d').subs ↔ w' ∈ (m.dep d').subs ∨ (w' = w ∧ d' = d) := by
    intro w' d'
    rw [hsubs]
    split
    · rename_i h
      obtain ⟨rfl, _⟩ := h
      simp only [List.mem_append, List.mem_singleton]
      tauto
    · rename_i h
      constructor
      · exact .inl
      · rintro (h' | ⟨rfl, rfl⟩)
        · exact h'
        · by_contra h''; exact h ⟨rfl, h''⟩
  have hrec : ∀ w' d', (m₂.watcher w').Reads d' ↔ (m.watcher w').Reads d' ∨ (w' = w ∧ d' = d) :=
    fun w' d' => by rw [hW, h₁]; exact reads_record hact hnew w' d'
  have hcell : ∀ w', m₂.watcher w' =
      if w' = w then { m.watcher w' with newDeps := (m.watcher w').newDeps ++ [d] }
      else m.watcher w' := fun w' => by rw [hW, h₁]; exact watcher_record hact w'
  constructor
  · intro w' d' h
    rcases (hmem w' d').1 h with h | ⟨rfl, rfl⟩
    · exact (hrec _ _).2 (.inl (hm.listed h))
    · exact (hrec _ _).2 (.inr ⟨rfl, rfl⟩)
  · intro w' d' hl hr
    have hl₀ : (m.watcher w').Live := by
      rw [hcell] at hl
      split at hl
      · subst w'; exact hl
      · exact hl
    refine (hmem w' d').2 ?_
    rcases (hrec _ _).1 hr with hr | h
    · exact .inl (hm.complete hl₀ hr)
    · exact .inr h
  · intro w' d' hr
    have hsize : m₂.deps.size = m.deps.size := by rw [h₂, h₁]; exact Array.size_modify
    rw [hsize]
    rcases (hrec _ _).1 hr with hr | ⟨rfl, rfl⟩
    · exact hm.allocated hr
    · exact hlt
  · intro w'
    rw [hcell]
    split
    · subst w'; exact hm.deps_nodup _
    · exact hm.deps_nodup w'
  · intro w'
    rw [hcell]
    split
    · subst w'
      exact (hm.newDeps_nodup _).append (List.nodup_singleton d) (List.disjoint_singleton.2 hnew)
    · exact hm.newDeps_nodup w'
  · intro d'
    rw [hsubs]
    split
    · rename_i h
      exact (hm.subs_nodup d').append (List.nodup_singleton w) (List.disjoint_singleton.2 h.2)
    · exact hm.subs_nodup d'

end Record

/-! ## New sets and watchers, and collection -/

theorem Subscribed.push_dep (hm : m.Subscribed) :
    ({ m with deps := m.deps.push {} } : Machine η).Subscribed :=
  hm.of_frame (fun _ => rfl) (dep_push_subs m) (by simp)

theorem Subscribed.push_watcher (hm : m.Subscribed) (c : WatcherCell) (hc : c.deps = [])
    (hc' : c.newDeps = []) : ({ m with watchers := m.watchers.push c } : Machine η).Subscribed := by
  -- a set lists only watchers that read something, so never the handle of the new one
  have hold : ∀ {w' d'}, (m.watcher w').Reads d' → w'.idx ≠ m.watchers.size := by
    intro w' d' hr he
    rw [watcher_of_size_le (Nat.le_of_eq he.symm)] at hr
    exact WatcherCell.not_reads_default d' hr
  have hnew : ∀ d', ¬ c.Reads d' := by simp [WatcherCell.Reads, hc, hc']
  constructor
  · intro w' d' h
    have hr := hm.listed h
    rw [watcher_push, if_neg (hold hr)]
    exact hr
  · intro w' d' hl hr
    rw [watcher_push] at hl hr
    split at hr
    · exact absurd hr (hnew d')
    · rename_i hne
      rw [if_neg hne] at hl
      exact hm.complete hl hr
  · intro w' d' hr
    rw [watcher_push] at hr
    split at hr
    · exact absurd hr (hnew d')
    · exact hm.allocated hr
  · intro w'
    rw [watcher_push]
    split
    · rw [hc]; exact List.nodup_nil
    · exact hm.deps_nodup w'
  · intro w'
    rw [watcher_push]
    split
    · rw [hc']; exact List.nodup_nil
    · exact hm.newDeps_nodup w'
  · exact hm.subs_nodup

theorem Subscribed.dropWatcher (hm : m.Subscribed) (w : WatcherId) : (m.dropWatcher w).Subscribed := by
  by_cases hlt : w.idx < m.watchers.size
  · unfold Machine.dropWatcher
    refine hm.forget ((m.watcher w).deps ++ (m.watcher w).newDeps) (fun c => { c with dropped := true })
      (.inl hlt) (fun _ h => h) (fun d h hS => absurd (List.mem_append.2 h) hS)
      (fun hl => Bool.noConfusion hl.2) ⟨hm.deps_nodup w, hm.newDeps_nodup w⟩ rfl
  · -- a handle past the table has read nothing: dropping it changes no set and no watcher
    have hle := Nat.le_of_not_lt hlt
    have hdrop : m.dropWatcher w =
        { m with watchers := m.watchers.modify w.idx fun c => { c with dropped := true } } := by
      unfold Machine.dropWatcher
      rw [watcher_of_size_le hle]
      rfl
    rw [hdrop]
    exact hm.of_frame (fun w' => by rw [watcher_modify_of_size_le _ _ _ _ hle]) (fun _ => rfl) le_rfl

theorem Subscribed.collect (hm : m.Subscribed) : m.collect.Subscribed := by
  unfold Machine.collect
  simp only [Std.Legacy.Range.forIn_eq_forIn_range', Id.run_bind, Id.run_pure]
  refine forIn_id_inv (fun s : Machine η => s.Subscribed)
    (forIn_id_inv (fun s : Machine η => s.Subscribed) hm fun _ s hs => ?_) fun i s hs => ?_
  · split
    · exact ⟨_, .inl rfl, hs.of_tables rfl rfl⟩
    · exact ⟨_, .inl rfl, hs⟩
  · split
    · exact ⟨_, .inl rfl, hs.dropWatcher ⟨i⟩⟩
    · exact ⟨_, .inl rfl, hs⟩

end Machine

namespace Eff

/-! ## The primitive updates keep the invariant -/

theorem forIn_removeSub_run (w : WatcherId) {f : DepId → PUnit → Eff η (ForInStep PUnit)}
    (p : DepId → Bool)
    (hf : ∀ d, f d PUnit.unit = if p d = true then
      (removeSub d w >>= fun _ => pure (ForInStep.yield PUnit.unit)) else pure (ForInStep.yield PUnit.unit))
    (ds : List DepId) (m : Machine η) :
    ExceptT.run (forIn ds PUnit.unit f) m =
      .ok (.ok PUnit.unit, (ds.filter p).foldl (fun m d => m.unsubscribe d w) m) := by
  induction ds generalizing m with
  | nil => rfl
  | cons d ds ih =>
    rw [List.forIn_cons, exec_bind, hf d, List.filter_cons]
    by_cases hp : p d = true
    · rw [if_pos hp, if_pos hp, List.foldl_cons]
      exact ih (m.unsubscribe d w)
    · rw [if_neg hp, if_neg hp]
      exact ih m

theorem modify_subscribed {f : Machine η → Machine η} (hw : ∀ m, (f m).watchers = m.watchers)
    (hd : ∀ m, (f m).deps = m.deps) : Keeps Machine.Subscribed (modify f : Eff η Unit) :=
  Keeps.modify fun m hm => hm.of_tables (hw m) (hd m)

theorem settle_subscribed : Keeps Machine.Subscribed (settle : Eff η Unit) := by
  refine Keeps.modify fun m hm => ?_
  split
  · exact hm.collect.of_tables rfl rfl
  · exact hm

theorem released_subscribed : Keeps Machine.Subscribed (released : Eff η Unit) :=
  Keeps.bind (modify_subscribed (fun _ => rfl) fun _ => rfl) fun _ => settle_subscribed

theorem depend_subscribed (d : DepId) : Keeps Machine.Subscribed (depend d : Eff η Unit) := by
  refine Keeps.bind_get fun m hm => ?_
  split
  · exact Triple.pure _ fun _ h => h ▸ hm
  · rename_i w _
    dsimp only
    split
    · rename_i hguard
      simp only [Bool.and_eq_true, Bool.not_eq_true', decide_eq_true_eq] at hguard
      obtain ⟨⟨hact, hnew⟩, hlt⟩ := hguard
      have hnew' : d ∉ (m.watcher w).newDeps := by simpa using hnew
      -- the read is recorded first; the set learns of it unless it listed the watcher already
      have hrec : Triple (· = m) (modifyWatcher w fun c => { c with newDeps := c.newDeps ++ [d] })
          fun r m₁ => r = .ok () ∧ m₁ = { m with
            watchers := m.watchers.modify w.idx fun c => { c with newDeps := c.newDeps ++ [d] } } :=
        Triple.modify _ fun _ h => ⟨rfl, h ▸ rfl⟩
      refine Triple.bind hrec (fun _ => ?_) fun _ _ h => nomatch h.1
      split
      · exact Triple.modify _ fun m₁ h₁ => hm.record_new hact hnew' hlt h₁.2 rfl
      · rename_i hd
        have hd' : d ∈ (m.watcher w).deps := by simpa using hd
        exact Triple.pure _ fun m₁ h₁ => h₁.2 ▸ hm.record_known hact hnew' hd'
    · exact Triple.pure _ fun _ h => h ▸ hm

/-- Reconciling: the sets read last time and not this time are left, and this evaluation's
reads become the watcher's reads. -/
theorem reconcile_subscribed (w : WatcherId) : Keeps Machine.Subscribed (reconcile w : Eff η Unit) := by
  intro m hm r m' hrun
  unfold reconcile at hrun
  rw [exec_get_bind, exec_bind,
    forIn_removeSub_run w (fun d => !(m.watcher w).newDeps.contains d) (fun _ => rfl)] at hrun
  cases hrun
  refine hm.forget _ (fun c => { c with deps := c.newDeps, newDeps := [] }) (.inr rfl)
    (fun d h => ?_) (fun d h hS => ?_) (fun hl => ⟨hl, fun d hd h => ?_⟩)
    ⟨hm.newDeps_nodup w, List.nodup_nil⟩ rfl
  · rcases h with h | h
    · exact .inr h
    · exact absurd h List.not_mem_nil
  · rcases h with h | h
    · refine .inl (by_contra fun hn => hS ?_)
      simpa [List.mem_filter] using ⟨h, hn⟩
    · exact .inl h
  · rcases h with h | h
    · simp only [List.mem_filter, Bool.not_eq_true'] at hd
      exact absurd h (by simpa using hd.2)
    · exact absurd h List.not_mem_nil

/-- Tearing down, past the guard and the scope: every set of the last evaluation is left, and
the watcher is inactive with no reads of its last evaluation. -/
theorem teardown_rest_subscribed (w : WatcherId) :
    Keeps Machine.Subscribed (do
      for d in ((← MonadState.get).watcher w).deps do removeSub d w
      modifyWatcher w fun c => { c with deps := [], active := false } : Eff η Unit) := by
  intro m hm r m' hrun
  rw [exec_get_bind, exec_bind, forIn_removeSub_run w (fun _ => true) (fun _ => rfl),
    List.filter_true] at hrun
  cases hrun
  refine hm.forget _ (fun c => { c with deps := [], active := false }) (.inr rfl)
    (fun d h => ?_) (fun d h hS => ?_) (fun hl => Bool.noConfusion hl.1)
    ⟨List.nodup_nil, hm.newDeps_nodup w⟩ rfl
  · rcases h with h | h
    · exact absurd h List.not_mem_nil
    · exact .inr h
  · rcases h with h | h
    · exact absurd h hS
    · exact .inr h

theorem teardown_subscribed (w : WatcherId) : Keeps Machine.Subscribed (teardown w : Eff η Unit) := by
  refine Keeps.bind Keeps.get fun m => Keeps.ite _ (Keeps.pure _) ?_
  dsimp only
  split
  · split
    · exact Keeps.bind (Keeps.bind (modify_subscribed (fun _ => rfl) fun _ => rfl) fun _ =>
        released_subscribed) fun _ => teardown_rest_subscribed w
    · exact teardown_rest_subscribed w
  · exact teardown_rest_subscribed w

theorem build_subscribed (scope : Option ScopeId) (getter : Getter) (callback : Option Closure)
    (o : WatcherOptions) (render : Bool) :
    Keeps Machine.Subscribed (build scope getter callback o render : Eff η WatcherId) := by
  have hscope : ∀ s (f : ScopeCell → ScopeCell), Keeps Machine.Subscribed (modifyScope s f : Eff η Unit) :=
    fun _ _ => modify_subscribed (fun _ => rfl) fun _ => rfl
  refine Keeps.get_set_bind (fun m hm => hm.push_watcher _ rfl rfl) fun m _ => ?_
  dsimp only
  split
  · split
    · exact Keeps.bind (hscope _ _) fun _ => Keeps.bind (modify_subscribed (fun _ => rfl) fun _ => rfl)
        fun _ => Keeps.bind (hscope _ _) fun _ => Keeps.pure _
    · exact Keeps.bind (hscope _ _) fun _ => Keeps.pure _
  · exact Keeps.pure _

theorem modifyWatcher_subscribed (w : WatcherId) {f : WatcherCell → WatcherCell}
    (hf : WatcherCell.Retains f) : Keeps Machine.Subscribed (modifyWatcher w f : Eff η Unit) := by
  refine Keeps.modify fun m hm => hm.of_frame (fun w' => ?_) (fun _ => rfl) le_rfl
  by_cases hlt : w.idx < m.watchers.size
  · rw [Machine.watcher_modify _ _ _ _ (.inl hlt)]
    split
    · rename_i h; subst h; exact hf _
    · rfl
  · rw [Machine.watcher_modify_of_size_le _ _ _ _ (Nat.le_of_not_lt hlt)]

end Eff

/-- Every primitive update keeps subscriptions consistent. -/
theorem subscribed_stable : Stable (Machine.Subscribed : Machine η → Prop) where
  depend := Eff.depend_subscribed
  reconcile := Eff.reconcile_subscribed
  teardown := Eff.teardown_subscribed
  build := Eff.build_subscribed
  watcher _ _ hf := Eff.modifyWatcher_subscribed _ hf
  object _ _ := Eff.modify_subscribed (fun _ => rfl) fun _ => rfl
  list _ _ := Eff.modify_subscribed (fun _ => rfl) fun _ => rfl
  newDep := Keeps.get_set_bind (fun _ hm => hm.push_dep) fun _ _ => Keeps.pure _
  newProp _ := Keeps.get_set_bind (fun _ hm => hm.of_tables rfl rfl) fun _ _ => Keeps.pure _
  pin _ := Eff.modify_subscribed (fun _ => rfl) fun _ => rfl
  release := Eff.modify_subscribed (fun _ => rfl) fun _ => rfl
  settle := Eff.settle_subscribed
  unhold := Keeps.bind (Eff.modify_subscribed (fun _ => rfl) fun _ => rfl) fun _ => Eff.settle_subscribed
  enter _ := Eff.modify_subscribed (fun _ => rfl) fun _ => rfl
  leave := Keeps.bind (Eff.modify_subscribed (fun _ => rfl) fun _ => rfl) fun _ => Eff.settle_subscribed
  report _ := Eff.modify_subscribed (fun _ => rfl) fun _ => rfl

end Reactivity

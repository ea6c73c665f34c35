import Reactivity.Proofs.ReadAttribution
import Reactivity.Proofs.Dismantling

/-!
# The registry of scopes

A scope lists the watchers made for it, and names one of them its render watcher. Making a
watcher lists it; tearing it down takes it off the list and out of the render slot, unless a
destroy of its scope has begun, which empties the list itself. So every scope that is neither
dropped by collection nor being destroyed (`ScopeCell.Standing`) lists, once each, exactly the
active watchers made for it, and its render watcher, if any, is one of them, made as a render
watcher, and the newest render watcher made for it (`Machine.Registered`). Every operation on
scopes and watchers keeps this (`RegistryOp.exec_registered`), so it holds in every state they
reach (`RegistryReach.registered`). A creation or a mount whose first evaluation faults leaves
the watcher it made stopped (`Eff.create_fault_stopped`, `Eff.mount_fault_stopped`); the laws
together are `scope_registry`.

Once a destroy has begun on a scope, nothing takes a watcher off its list again: a watcher made
for a destroyed scope stays listed after it is torn down.
-/

namespace Reactivity

variable {η : Type}

namespace ScopeCell

/-- Neither dropped by collection nor being destroyed: a scope whose lists the registry keeps. -/
def Standing (c : ScopeCell) : Prop := c.dropped = false ∧ c.beingDestroyed = false

/-- What the registry keeps of a scope: its list of watchers and its render watcher. -/
def entry (c : ScopeCell) : List WatcherId × Option WatcherId := (c.watchers, c.render)

theorem standing_default : (default : ScopeCell).Standing := ⟨rfl, rfl⟩

/-- The scope's lists with `w` added, as the render watcher when `render` is set. -/
def enlist (c : ScopeCell) (w : WatcherId) (render : Bool) : ScopeCell :=
  { c with watchers := c.watchers ++ [w], render := if render then some w else c.render }

end ScopeCell

namespace WatcherCell

/-- What the registry reads of a watcher: the scope it was made for, if any, and whether it was
made as a render watcher. -/
def home (c : WatcherCell) : Option (ScopeId × Bool) := c.scope.map fun s => (s, c.render)

theorem scope_eq_of_home {c c' : WatcherCell} (h : c'.home = c.home) : c'.scope = c.scope := by
  have h' := congrArg (Option.map Prod.fst) h
  simpa [home, Option.map_map, Function.comp_def] using h'

theorem render_eq_of_home {c c' : WatcherCell} {s : ScopeId} (h : c'.home = c.home)
    (hs : c.scope = some s) : c'.render = c.render := by
  have hs' := (scope_eq_of_home h).trans hs
  unfold home at h
  rw [hs, hs'] at h
  exact (Prod.ext_iff.1 (Option.some_inj.1 h)).2

end WatcherCell

namespace Machine

/-- The registry of scopes, with `live` the watchers that count as active: a standing scope
lists, once each, exactly the live watchers made for it; its render watcher is one of them, made
as a render watcher, and no render watcher made for the scope is newer. -/
structure ScopeLists (live : WatcherId → Prop) (m : Machine η) : Prop where
  listed : ∀ s w, (m.scope s).Standing →
    (w ∈ (m.scope s).watchers ↔ live w ∧ (m.watcher w).scope = some s)
  nodup : ∀ s, (m.scope s).Standing → (m.scope s).watchers.Nodup
  render : ∀ s w, (m.scope s).Standing → (m.scope s).render = some w →
    w ∈ (m.scope s).watchers ∧ (m.watcher w).render = true ∧
    ∀ w', (m.watcher w').scope = some s → (m.watcher w').render = true → w'.idx ≤ w.idx

/-- The registry of scopes, with the active watchers live. -/
def Registered (m : Machine η) : Prop := m.ScopeLists fun w => (m.watcher w).active = true

/-- The registry of scopes, with the active watchers other than `w` live: how a teardown of `w`
leaves it once `w` is off its scope's lists. -/
def RegisteredBut (w : WatcherId) (m : Machine η) : Prop :=
  m.ScopeLists fun w' => (m.watcher w').active = true ∧ w' ≠ w

variable {live : WatcherId → Prop} {m m' : Machine η}

theorem ScopeLists.of_frame {live' : WatcherId → Prop} (h : m.ScopeLists live)
    (hl : ∀ w s, (m.watcher w).scope = some s → (live' w ↔ live w))
    (hw : ∀ w, (m'.watcher w).home = (m.watcher w).home)
    (hs : ∀ s, (m'.scope s).Standing →
      (m.scope s).Standing ∧ (m'.scope s).entry = (m.scope s).entry) :
    m'.ScopeLists live' := by
  have hscope : ∀ w, (m'.watcher w).scope = (m.watcher w).scope := fun w =>
    WatcherCell.scope_eq_of_home (hw w)
  have hlist : ∀ s, (m'.scope s).Standing → (m'.scope s).watchers = (m.scope s).watchers :=
    fun s hst => congrArg Prod.fst (hs s hst).2
  refine ⟨fun s w hst => ?_, fun s hst => ?_, fun s w hst hr => ?_⟩
  · rw [hlist s hst, hscope, h.listed s w (hs s hst).1]
    constructor
    · rintro ⟨hw', hs'⟩
      exact ⟨(hl w s hs').2 hw', hs'⟩
    · rintro ⟨hw', hs'⟩
      exact ⟨(hl w s hs').1 hw', hs'⟩
  · rw [hlist s hst]
    exact h.nodup s (hs s hst).1
  · have hr' : (m.scope s).render = some w := (congrArg Prod.snd (hs s hst).2).symm.trans hr
    obtain ⟨hmem, hflag, hnew⟩ := h.render s w (hs s hst).1 hr'
    have hws : (m.watcher w).scope = some s := ((h.listed s w (hs s hst).1).1 hmem).2
    refine ⟨(hlist s hst).symm ▸ hmem,
      (WatcherCell.render_eq_of_home (hw w) hws).trans hflag, fun w' hw' hf' => ?_⟩
    have hs' : (m.watcher w').scope = some s := (hscope w').symm.trans hw'
    exact hnew w' hs' ((WatcherCell.render_eq_of_home (hw w') hs').symm.trans hf')

theorem Registered.of_frame (h : m.Registered)
    (hw : ∀ w, (m'.watcher w).home = (m.watcher w).home ∧
      (m'.watcher w).active = (m.watcher w).active)
    (hs : ∀ s, (m'.scope s).Standing →
      (m.scope s).Standing ∧ (m'.scope s).entry = (m.scope s).entry) :
    m'.Registered :=
  ScopeLists.of_frame h (fun w _ _ => by rw [(hw w).2]) (fun w => (hw w).1) hs

theorem Registered.of_cells (h : m.Registered) (hw : m'.watchers = m.watchers)
    (hs : ∀ s, m'.scope s = m.scope s) : m'.Registered := by
  refine h.of_frame (fun w => ?_) fun s hst => ?_
  · rw [watcher_eq_of_watchers_eq hw]
    exact ⟨rfl, rfl⟩
  · rw [hs] at hst ⊢
    exact ⟨hst, rfl⟩

theorem Registered.of_tables (h : m.Registered) (hw : m'.watchers = m.watchers)
    (hs : m'.scopes = m.scopes) : m'.Registered :=
  h.of_cells hw fun s => by
    unfold Machine.scope
    rw [hs]

theorem Registered.modify_watcher (h : m.Registered) (w : WatcherId) {f : WatcherCell → WatcherCell}
    (hf : ∀ c, (f c).home = c.home ∧ (f c).active = c.active) :
    ({ m with watchers := m.watchers.modify w.idx f } : Machine η).Registered := by
  refine h.of_frame (fun w' => ?_) fun s hst => ⟨hst, rfl⟩
  by_cases hlt : w.idx < m.watchers.size
  · rw [watcher_modify _ _ _ _ (.inl hlt)]
    split
    · exact hf _
    · exact ⟨rfl, rfl⟩
  · rw [watcher_modify_of_size_le _ _ _ _ (Nat.le_of_not_lt hlt)]
    exact ⟨rfl, rfl⟩

theorem collect_scope_standing (m : Machine η) (u : ScopeId) (hst : (m.collect.scope u).Standing) :
    (m.scope u).Standing ∧ (m.collect.scope u).entry = (m.scope u).entry := by
  have key : (m.collect.scope u).entry = (m.scope u).entry ∧
      (m.collect.scope u).beingDestroyed = (m.scope u).beingDestroyed ∧
      ((m.collect.scope u).dropped = false → (m.scope u).dropped = false) := by
    refine collect_inv (fun s => (s.scope u).entry = (m.scope u).entry ∧
      (s.scope u).beingDestroyed = (m.scope u).beingDestroyed ∧
      ((s.scope u).dropped = false → (m.scope u).dropped = false)) ⟨rfl, rfl, id⟩
      (fun s i hs => ?_) fun s i hs => ?_
    · have hu := scope_modify s ⟨i⟩ u fun c => { c with dropped := true }
      split at hu
      · rw [hu]
        exact ⟨hs.1, hs.2.1, fun h => by cases h⟩
      · rw [hu]
        exact hs
    · unfold Machine.scope
      rw [(dropWatcher_tables s ⟨i⟩).2.1]
      exact hs
  exact ⟨⟨key.2.2 hst.1, key.2.1 ▸ hst.2⟩, key.1⟩

theorem Registered.collect (h : m.Registered) : m.collect.Registered := by
  refine h.of_frame (fun w => ?_) fun s hst => collect_scope_standing m s hst
  obtain ⟨b, hb⟩ := m.collect_watcher w
  rw [hb]
  exact ⟨rfl, rfl⟩

theorem Registered.absent (h : m.Registered) {w : WatcherId} (hw : (m.watcher w).active = false)
    {s : ScopeId} (hst : (m.scope s).Standing) :
    w ∉ (m.scope s).watchers ∧ (m.scope s).render ≠ some w := by
  have hnot : w ∉ (m.scope s).watchers := fun hmem => by
    have ha := ((h.listed s w hst).1 hmem).1
    rw [hw] at ha
    cases ha
  exact ⟨hnot, fun hr => hnot (h.render s w hst hr).1⟩

/-! ## Tearing a watcher down -/

variable {w : WatcherId}

theorem RegisteredBut.of_frame (h : m.RegisteredBut w)
    (hw : ∀ w', (m'.watcher w').home = (m.watcher w').home ∧
      (m'.watcher w').active = (m.watcher w').active)
    (hs : ∀ s, (m'.scope s).Standing →
      (m.scope s).Standing ∧ (m'.scope s).entry = (m.scope s).entry) :
    m'.RegisteredBut w :=
  ScopeLists.of_frame h (fun w' _ _ => by rw [(hw w').2]) (fun w' => (hw w').1) hs

theorem RegisteredBut.of_tables (h : m.RegisteredBut w) (hw : m'.watchers = m.watchers)
    (hs : m'.scopes = m.scopes) : m'.RegisteredBut w := by
  refine h.of_frame (fun w' => ?_) fun s hst => ?_
  · rw [watcher_eq_of_watchers_eq hw]
    exact ⟨rfl, rfl⟩
  · have hscope : m'.scope s = m.scope s := by
      unfold Machine.scope
      rw [hs]
    rw [hscope] at hst ⊢
    exact ⟨hst, rfl⟩

theorem RegisteredBut.collect (h : m.RegisteredBut w) : m.collect.RegisteredBut w := by
  refine h.of_frame (fun w' => ?_) fun s hst => collect_scope_standing m s hst
  obtain ⟨b, hb⟩ := m.collect_watcher w'
  rw [hb]
  exact ⟨rfl, rfl⟩

theorem Registered.but (h : m.Registered)
    (hw : ∀ s, (m.watcher w).scope = some s → ¬(m.scope s).Standing) : m.RegisteredBut w := by
  refine ⟨fun s w' hst => ?_, h.nodup, h.render⟩
  rw [h.listed s w' hst]
  constructor
  · rintro ⟨hact, hs⟩
    refine ⟨⟨hact, ?_⟩, hs⟩
    rintro rfl
    exact hw s hs hst
  · rintro ⟨⟨hact, -⟩, hs⟩
    exact ⟨hact, hs⟩

/-- Taking `w` off the lists of its scope. -/
def unlisted (m : Machine η) (s : ScopeId) (w : WatcherId) : Machine η :=
  { m with scopes := m.scopes.modify s.idx fun c => { c with
    watchers := c.watchers.filter (· ≠ w)
    render := if c.render = some w then none else c.render } }

theorem Registered.unlisted {s : ScopeId} (h : m.Registered) (hw : (m.watcher w).scope = some s) :
    (m.unlisted s w).RegisteredBut w := by
  have hcell := scope_modify m s
  -- the scope of `w` loses it; every other scope never listed it
  refine ⟨fun s' w' hst => ?_, fun s' hst => ?_, fun s' w' hst hr => ?_⟩
  · unfold Machine.unlisted at hst ⊢
    rw [hcell] at hst ⊢
    split
    · rename_i hs'
      rw [if_pos hs'] at hst
      obtain ⟨rfl, -⟩ := hs'
      rw [List.mem_filter, h.listed s' w' hst]
      simp only [decide_eq_true_eq]
      exact ⟨fun ⟨⟨ha, hsc⟩, hne⟩ => ⟨⟨ha, hne⟩, hsc⟩, fun ⟨⟨ha, hne⟩, hsc⟩ => ⟨⟨ha, hsc⟩, hne⟩⟩
    · rename_i hs'
      rw [if_neg hs'] at hst
      rw [h.listed s' w' hst]
      constructor
      · rintro ⟨ha, hsc⟩
        refine ⟨⟨ha, ?_⟩, hsc⟩
        rintro rfl
        have hss : s' = s := Option.some_inj.1 (hsc.symm.trans hw)
        subst hss
        exact absurd ((h.listed s' w' hst).2 ⟨ha, hsc⟩) (by
          rw [scope_of_size_le (Nat.le_of_not_lt fun hlt => hs' ⟨rfl, hlt⟩)]
          exact List.not_mem_nil)
      · rintro ⟨⟨ha, -⟩, hsc⟩
        exact ⟨ha, hsc⟩
  · unfold Machine.unlisted at hst ⊢
    rw [hcell] at hst ⊢
    split
    · rename_i hs'
      rw [if_pos hs'] at hst
      exact (h.nodup s' hst).filter _
    · rename_i hs'
      rw [if_neg hs'] at hst
      exact h.nodup s' hst
  · unfold Machine.unlisted at hst hr ⊢
    rw [hcell] at hst hr ⊢
    split
    · rename_i hs'
      rw [if_pos hs'] at hst hr
      dsimp only at hr
      split at hr
      · cases hr
      · obtain ⟨hmem, hflag, hnew⟩ := h.render s' w' hst hr
        refine ⟨List.mem_filter.2 ⟨hmem, ?_⟩, hflag, hnew⟩
        rename_i hne
        simpa using fun e : w' = w => hne (e ▸ hr)
    · rename_i hs'
      rw [if_neg hs'] at hst hr
      exact h.render s' w' hst hr

theorem idx_lt_of_scope {s : ScopeId} (h : (m.watcher w).scope = some s) :
    w.idx < m.watchers.size := by
  by_contra hle
  rw [watcher_of_size_le (Nat.le_of_not_lt hle)] at h
  cases h

theorem RegisteredBut.stop (h : m.RegisteredBut w) :
    ({ m with watchers := m.watchers.modify w.idx fun c =>
      { c with deps := [], active := false } } : Machine η).Registered := by
  by_cases hlt : w.idx < m.watchers.size
  · have hcell := fun w' => watcher_modify m w w'
      (fun c => { c with deps := [], active := false }) (.inl hlt)
    refine ScopeLists.of_frame h (fun w' _ _ => ?_) (fun w' => ?_) fun s hst => ⟨hst, rfl⟩
    · rw [hcell]
      by_cases hw' : w' = w
      · subst hw'
        simp
      · simp [hw']
    · rw [hcell]
      split <;> rfl
  · have hcell := fun w' => watcher_modify_of_size_le m w w'
      (fun c => { c with deps := [], active := false }) (Nat.le_of_not_lt hlt)
    refine ScopeLists.of_frame h (fun w' s hs => ?_) (fun w' => by rw [hcell])
      fun s hst => ⟨hst, rfl⟩
    -- a watcher made for a scope lies in the table, where `w` does not
    have hne : w' ≠ w := fun e => hlt (e ▸ idx_lt_of_scope hs)
    rw [hcell]
    exact ⟨fun ha => ⟨ha, hne⟩, fun h => h.1⟩

theorem RegisteredBut.tornDown (h : m.RegisteredBut w) : (m.tornDown w).Registered :=
  (foldl_unsubscribe_of (fun _ _ hm => RegisteredBut.of_tables hm rfl rfl) _ h).stop

/-! ## Updates of scopes -/

theorem Registered.modify_scope (h : m.Registered) {s : ScopeId} {f : ScopeCell → ScopeCell}
    (hf : s.idx < m.scopes.size → (f (m.scope s)).Standing →
      (m.scope s).Standing ∧ (f (m.scope s)).entry = (m.scope s).entry) :
    ({ m with scopes := m.scopes.modify s.idx f } : Machine η).Registered := by
  refine h.of_frame (fun _ => ⟨rfl, rfl⟩) fun s' hst => ?_
  rw [scope_modify] at hst ⊢
  split
  · rename_i e
    obtain ⟨rfl, hlt⟩ := e
    rw [if_pos ⟨rfl, hlt⟩] at hst
    exact hf hlt hst
  · rename_i e
    rw [if_neg e] at hst
    exact ⟨hst, rfl⟩

theorem Registered.push_scope (h : m.Registered) {c : ScopeCell} (hw : c.watchers = [])
    (hr : c.render = none) : ({ m with scopes := m.scopes.push c } : Machine η).Registered := by
  have hcell := scope_push m c
  -- before, the new handle named the default scope, which stands and lists no watcher
  have hdef : m.scope ⟨m.scopes.size⟩ = default := scope_of_size_le (Nat.le_refl _)
  have hnone : ∀ w, (m.watcher w).active = true →
      (m.watcher w).scope ≠ some ⟨m.scopes.size⟩ := fun w ha hs => by
    have hl := (h.listed ⟨m.scopes.size⟩ w (by rw [hdef]; exact ScopeCell.standing_default)).2
      ⟨ha, hs⟩
    rw [hdef] at hl
    exact List.not_mem_nil hl
  refine ⟨fun s w hst => ?_, fun s hst => ?_, fun s w hst hrs => ?_⟩
  · rw [hcell] at hst ⊢
    split
    · rename_i e
      obtain ⟨i⟩ := s
      cases e
      rw [hw]
      exact ⟨fun hm => absurd hm List.not_mem_nil, fun ⟨ha, hs⟩ => absurd hs (hnone w ha)⟩
    · rename_i e
      rw [if_neg e] at hst
      exact h.listed s w hst
  · rw [hcell] at hst ⊢
    split
    · rw [hw]
      exact List.nodup_nil
    · rename_i e
      rw [if_neg e] at hst
      exact h.nodup s hst
  · rw [hcell] at hst hrs ⊢
    split at hrs
    · rw [hr] at hrs
      cases hrs
    · rename_i e
      rw [if_neg e] at hst ⊢
      exact h.render s w hst hrs

/-! ## Scopes a destroy has begun on -/

/-- A destroy has begun on `s`, unless `s` lies past the table. -/
def Marked (s : ScopeId) (m : Machine η) : Prop :=
  s.idx < m.scopes.size → (m.scope s).beingDestroyed = true

theorem Marked.of_scopes {u : ScopeId} (h : m.Marked u) (hs : m'.scopes = m.scopes) :
    m'.Marked u := by
  unfold Marked Machine.scope
  rw [hs]
  exact h

theorem Marked.modify_scope {u s : ScopeId} {f : ScopeCell → ScopeCell} (h : m.Marked u)
    (hf : ∀ c, c.beingDestroyed = true → (f c).beingDestroyed = true) :
    ({ m with scopes := m.scopes.modify s.idx f } : Machine η).Marked u := by
  intro hlt
  rw [Array.size_modify] at hlt
  rw [scope_modify]
  split
  · exact hf _ (h hlt)
  · exact h hlt

theorem Marked.collect {u : ScopeId} (h : m.Marked u) : m.collect.Marked u := fun hlt =>
  (Quiet.collect m).marked u (h ((Quiet.collect m).size ▸ hlt))

/-! ## Making a watcher -/

/-- Listing the watcher `w` for the scope `s`, as its render watcher when `render` is set. -/
def enlisted (m : Machine η) (s : ScopeId) (w : WatcherId) (render : Bool) : Machine η :=
  { m with scopes := m.scopes.modify s.idx fun c => c.enlist w render }

theorem watcher_enlisted {s : ScopeId} {w' : WatcherId} {render : Bool} :
    (m.enlisted s w render).watcher w' = m.watcher w' := rfl

theorem scope_enlisted {s s' : ScopeId} {render : Bool} :
    (m.enlisted s w render).scope s' =
      if s' = s ∧ s.idx < m.scopes.size then (m.scope s').enlist w render else m.scope s' :=
  scope_modify m s s' _

theorem Registered.pushed (h : m.Registered) {c : WatcherCell} (hc : c.scope = none) :
    ({ m with watchers := m.watchers.push c } : Machine η).Registered := by
  have hcell := watcher_push m c
  refine ScopeLists.of_frame h (fun w' s hs => ?_) (fun w' => ?_) fun s hst => ⟨hst, rfl⟩
  · rw [hcell, if_neg (Nat.ne_of_lt (idx_lt_of_scope hs))]
  · rw [hcell]
    split
    · rename_i e
      rw [watcher_of_size_le (Nat.le_of_eq e.symm)]
      unfold WatcherCell.home
      rw [hc]
      rfl
    · rfl

theorem Registered.enlisted (h : m.Registered) {c : WatcherCell} {s : ScopeId}
    (hc : c.scope = some s) (hact : c.active = true) (hs : s.idx < m.scopes.size) :
    (({ m with watchers := m.watchers.push c } : Machine η).enlisted s ⟨m.watchers.size⟩
      c.render).Registered := by
  set w : WatcherId := ⟨m.watchers.size⟩
  have hw : ∀ w', (({ m with watchers := m.watchers.push c } : Machine η).enlisted s w
      c.render).watcher w' = if w' = w then c else m.watcher w' := fun w' => by
    rw [watcher_enlisted, watcher_push]
    exact if_congr ⟨fun e => WatcherId.idx_inj.1 e, fun e => e ▸ rfl⟩ rfl rfl
  have hsame : ∀ s', ({ m with watchers := m.watchers.push c } : Machine η).scope s' = m.scope s' :=
    fun _ => rfl
  have hold : ∀ w', (m.watcher w').active = true → w' ≠ w := fun w' ha e =>
    absurd (lt_size_of_active ha) (by rw [e]; exact Nat.lt_irrefl _)
  -- an active watcher made for a scope is one of before, or `w` for `s`
  have hlive : ∀ w' s', (if w' = w then c else m.watcher w').active = true ∧
      (if w' = w then c else m.watcher w').scope = some s' ↔
        ((m.watcher w').active = true ∧ (m.watcher w').scope = some s') ∨ (w' = w ∧ s' = s) := by
    intro w' s'
    by_cases e : w' = w
    · rw [if_pos e, hc, e]
      have hnot : ¬(m.watcher w).active = true := fun ha => hold w ha rfl
      simp [hact, hnot, eq_comm]
    · simp [e]
  -- a render watcher made for a scope is one of before, or `w` for `s` made as one
  have hflag : ∀ w' s', (if w' = w then c else m.watcher w').scope = some s' →
      (if w' = w then c else m.watcher w').render = true →
      ((m.watcher w').scope = some s' ∧ (m.watcher w').render = true) ∨
        (w' = w ∧ s' = s ∧ c.render = true) := by
    intro w' s' hs' hr'
    by_cases e : w' = w
    · rw [if_pos e, hc] at hs'
      rw [if_pos e] at hr'
      exact .inr ⟨e, (Option.some_inj.1 hs').symm, hr'⟩
    · rw [if_neg e] at hs' hr'
      exact .inl ⟨hs', hr'⟩
  -- the render watcher of a scope that `w` does not take over stays the newest
  have hkept : ∀ s' w', (m.scope s').Standing → (m.scope s').render = some w' →
      ¬(s' = s ∧ c.render = true) → (if w' = w then c else m.watcher w').render = true ∧
        ∀ w'', (if w'' = w then c else m.watcher w'').scope = some s' →
          (if w'' = w then c else m.watcher w'').render = true → w''.idx ≤ w'.idx := by
    intro s' w' hst hr hnot
    obtain ⟨hmem, hrw, hnew⟩ := h.render s' w' hst hr
    refine ⟨by rw [if_neg (hold w' ((h.listed s' w' hst).1 hmem).1)]; exact hrw,
      fun w'' hs'' hr'' => ?_⟩
    rcases hflag w'' s' hs'' hr'' with ⟨hs₀, hr₀⟩ | ⟨-, e, hcr⟩
    · exact hnew w'' hs₀ hr₀
    · exact absurd ⟨e, hcr⟩ hnot
  refine ⟨fun s' w' hst => ?_, fun s' hst => ?_, fun s' w' hst hr => ?_⟩
  · rw [scope_enlisted, hsame] at hst ⊢
    rw [hw, hlive]
    by_cases e : s' = s
    · subst e
      rw [if_pos ⟨rfl, hs⟩] at hst ⊢
      rw [ScopeCell.enlist, List.mem_append, List.mem_singleton, h.listed s' w' hst]
      simp only [and_true]
    · rw [if_neg fun e' => e e'.1] at hst ⊢
      rw [h.listed s' w' hst]
      simp [e]
  · rw [scope_enlisted, hsame] at hst ⊢
    by_cases e : s' = s
    · subst e
      rw [if_pos ⟨rfl, hs⟩] at hst ⊢
      refine List.nodup_append.2 ⟨h.nodup s' hst, List.nodup_singleton _, ?_⟩
      rintro a ha b hb rfl
      rw [List.mem_singleton] at hb
      exact hold a ((h.listed s' a hst).1 ha).1 hb
    · rw [if_neg fun e' => e e'.1] at hst ⊢
      exact h.nodup s' hst
  · rw [scope_enlisted, hsame] at hst hr ⊢
    simp only [hw]
    by_cases e : s' = s
    · subst e
      rw [if_pos ⟨rfl, hs⟩] at hst hr ⊢
      unfold ScopeCell.enlist at hr ⊢
      split at hr
      · -- `w` is the new render watcher, and the newest
        rename_i hcr
        cases hr
        refine ⟨List.mem_append_right _ (List.mem_singleton_self _), by rw [if_pos rfl]; exact hcr,
          fun w'' hs'' hr'' => ?_⟩
        rcases hflag w'' s' hs'' hr'' with ⟨hs₀, -⟩ | ⟨rfl, -⟩
        · exact Nat.le_of_lt (idx_lt_of_scope hs₀)
        · exact le_rfl
      · rename_i hcr
        exact ⟨List.mem_append_left _ (h.render s' w' hst hr).1,
          hkept s' w' hst hr fun h' => hcr h'.2⟩
    · rw [if_neg fun e' => e e'.1] at hst hr ⊢
      exact ⟨(h.render s' w' hst hr).1, hkept s' w' hst hr fun h' => e h'.1⟩

theorem scopeOf_eq_some {s : ScopeId} :
    m.scopeOf w = some s ↔ (m.watcher w).scope = some s ∧ (m.scope s).dropped = false := by
  unfold scopeOf alive
  cases (m.watcher w).scope with
  | none => simp
  | some s' =>
    simp only [Option.bind_some, Option.some.injEq]
    constructor
    · intro h
      split at h
      · cases h
      · rename_i hd
        cases h
        exact ⟨rfl, by simpa using hd⟩
    · rintro ⟨rfl, hd⟩
      rw [if_neg (by simp [hd])]

end Machine

namespace Stable

open Machine

theorem registered_base : Base (Registered : Machine η → Prop) := by
  have hsettle : Keeps Registered (Eff.settle : Eff η Unit) := by
    refine Keeps.modify fun m hm => ?_
    split
    · exact hm.collect.of_tables rfl rfl
    · exact hm
  refine ⟨fun d => ?_, fun _ => Keeps.modify fun _ hm => hm.of_tables rfl rfl,
    Keeps.modify fun _ hm => hm.of_tables rfl rfl, hsettle,
    Keeps.bind (Keeps.modify fun _ hm => hm.of_tables rfl rfl) fun _ => hsettle,
    fun _ => Keeps.modify fun _ hm => hm.of_tables rfl rfl⟩
  -- a read changes the reads of one watcher and the subscribers of one set
  refine Keeps.bind Keeps.get fun m => ?_
  split
  · exact Keeps.pure _
  · refine Keeps.ite _ ?_ (Keeps.pure _)
    refine Keeps.bind (Keeps.modify fun _ hm => hm.modify_watcher _ fun _ => ⟨rfl, rfl⟩) fun _ => ?_
    exact Keeps.ite _ (Keeps.modify fun _ hm => hm.of_tables rfl rfl) (Keeps.pure _)

theorem registered_frames : Frames (Registered : Machine η → Prop) :=
  ⟨registered_base, fun _ => Keeps.modify fun _ hm => hm.of_tables rfl rfl,
    Keeps.bind (Keeps.modify fun _ hm => hm.of_tables rfl rfl) fun _ => registered_base.settle⟩

theorem registered_evaluates : Evaluates (Registered : Machine η → Prop) := by
  refine ⟨registered_frames, fun w => ?_,
    fun _ _ => Keeps.modify fun _ hm => hm.modify_watcher _ fun _ => ⟨rfl, rfl⟩⟩
  refine Keeps.bind Keeps.get fun _ => Keeps.bind (Keeps.forIn_list fun _ _ => ?_) fun _ =>
    Keeps.modify fun _ hm => hm.modify_watcher _ fun _ => ⟨rfl, rfl⟩
  exact Keeps.ite _ (Keeps.bind (Keeps.modify fun _ hm => hm.of_tables rfl rfl) fun _ =>
    Keeps.pure _) (Keeps.pure _)

theorem registered_heap : Heap (Registered : Machine η → Prop) :=
  ⟨fun _ _ => Keeps.modify fun _ hm => hm.of_tables rfl rfl,
    fun _ _ => Keeps.modify fun _ hm => hm.of_tables rfl rfl,
    Keeps.get_set_bind (fun _ hm => hm.of_tables rfl rfl) fun _ _ => Keeps.pure _,
    fun _ => Keeps.get_set_bind (fun _ hm => hm.of_tables rfl rfl) fun _ _ => Keeps.pure _⟩

theorem active_evaluates (w : WatcherId) :
    Evaluates (fun m : Machine η => (m.watcher w).active = true) := by
  have hplain : ∀ f : Machine η → Machine η, (∀ m, (f m).watchers = m.watchers) →
      Keeps (fun m : Machine η => (m.watcher w).active = true) (modify f) := fun f hf =>
    Keeps.modify fun m hm => by rw [watcher_eq_of_watchers_eq (hf m)]; exact hm
  have hcell : ∀ (w' : WatcherId) (f : WatcherCell → WatcherCell), (∀ c, (f c).active = c.active) →
      Keeps (fun m : Machine η => (m.watcher w).active = true) (Eff.modifyWatcher w' f) :=
    fun w' f hf => Keeps.modify fun m hm => by
      by_cases hlt : w'.idx < m.watchers.size
      · rw [watcher_modify m w' w f (.inl hlt)]
        split
        · rw [hf]
          exact hm
        · exact hm
      · rw [watcher_modify_of_size_le m w' w f (Nat.le_of_not_lt hlt)]
        exact hm
  have hsettle :
      Keeps (fun m : Machine η => (m.watcher w).active = true) (Eff.settle : Eff η Unit) := by
    refine Keeps.modify fun m hm => ?_
    split
    · obtain ⟨b, hb⟩ := m.collect_watcher w
      show (m.collect.watcher w).active = true
      rw [hb]
      exact hm
    · exact hm
  refine ⟨⟨⟨fun d => ?_, fun _ => hplain _ fun _ => rfl, hplain _ fun _ => rfl, hsettle,
    Keeps.bind (hplain _ fun _ => rfl) fun _ => hsettle, fun _ => hplain _ fun _ => rfl⟩,
    fun _ => hplain _ fun _ => rfl, Keeps.bind (hplain _ fun _ => rfl) fun _ => hsettle⟩,
    fun _ => ?_, fun _ _ => hcell _ _ fun _ => rfl⟩
  · intro m hm r m' hrun
    obtain ⟨m₁, hrun₁, hrec, -⟩ := Eff.depend_newDeps d m
    rw [hrun₁] at hrun
    cases hrun
    exact (hrec.active w).trans hm
  · refine Keeps.bind Keeps.get fun _ => Keeps.bind (Keeps.forIn_list fun _ _ => ?_) fun _ =>
      hcell _ _ fun _ => rfl
    exact Keeps.ite _ (Keeps.bind (hplain _ fun _ => rfl) fun _ => Keeps.pure _) (Keeps.pure _)

end Stable

namespace Eff

open Machine

theorem released_registeredBut (w : WatcherId) :
    Keeps (RegisteredBut w) (released : Eff η Unit) := by
  refine Keeps.bind (Keeps.modify fun _ hm => hm.of_tables rfl rfl) fun _ =>
    Keeps.modify fun m hm => ?_
  split
  · exact hm.collect.of_tables rfl rfl
  · exact hm

theorem unregister_registeredBut (s : ScopeId) (w : WatcherId) :
    Triple (fun m : Machine η => m.Registered ∧ (m.watcher w).scope = some s) (unregister s w)
      fun r m' => ∃ a, r = .ok a ∧ m'.RegisteredBut w := by
  unfold unregister
  exact Triple.bind_ok (Triple.modify _ fun m h => ⟨(), rfl, h.1.unlisted h.2⟩) fun _ =>
    Triple.of_keeps (released_registeredBut w) released_noFault

theorem build_registered (scope : Option ScopeId) (getter : Getter) (callback : Option Closure)
    (o : WatcherOptions) (render : Bool) :
    Triple (fun m : Machine η => m.Registered ∧ ∀ s, scope = some s → s.idx < m.scopes.size)
      (build scope getter callback o render) fun _ => Registered := by
  intro m ⟨hm, hs⟩ r m' hrun
  unfold build at hrun
  cases scope with
  | none =>
    simp only [exec_get_bind, exec_setOf_bind, exec_pure] at hrun
    cases hrun
    exact hm.pushed rfl
  | some s =>
    cases render <;>
      simp only [exec_get_bind, exec_setOf_bind, exec_pure, exec_modify_bind, modifyScope, release,
        ite_true, ite_false, Bool.false_eq_true] at hrun <;>
      cases hrun
    all_goals
      refine (hm.enlisted rfl rfl (hs s rfl)).of_cells rfl fun s' => ?_
      unfold Machine.scope Machine.enlisted
      simp only [Array.getElem?_modify]
      split <;> cases m.scopes[s'.idx]? <;> rfl

/-- A teardown keeps the registry: the watcher leaves the lists of its scope, unless the scope
is dropped or being destroyed, when the registry does not keep those lists. -/
theorem teardown_registered (w : WatcherId) : Keeps Registered (teardown w : Eff η Unit) := by
  have hrest : Triple (RegisteredBut w) (do
      for d in ((← MonadState.get).watcher w).deps do removeSub d w
      modifyWatcher w fun c => { c with deps := [], active := false } : Eff η Unit)
      fun _ => Registered := fun m h r m' hrun => by
    rw [teardown_rest_run] at hrun
    cases hrun
    exact h.tornDown
  unfold teardown
  refine Keeps.bind_get fun m hm => ?_
  refine Triple.ite _ (fun _ => Triple.pure () fun _ e => e ▸ hm) fun _ => ?_
  dsimp only
  split
  · rename_i s hs
    obtain ⟨hw, -⟩ := scopeOf_eq_some.1 hs
    split
    · exact Triple.bind_ok (Triple.conseq (unregister_registeredBut s w)
        (fun _ e => e ▸ ⟨hm, hw⟩) fun _ _ h => h) fun _ => hrest
    · rename_i hb
      refine Triple.conseq hrest (fun _ e => e ▸ hm.but fun s' hs' hst => ?_) fun _ _ h => h
      rw [hw] at hs'
      cases hs'
      exact absurd hst.2 (by simpa using hb)
  · rename_i hs
    refine Triple.conseq hrest (fun _ e => e ▸ hm.but fun s' hs' hst => ?_) fun _ _ h => h
    exact hs s' (scopeOf_eq_some.2 ⟨hs', hst.1⟩)

theorem modifyScope_registered {s : ScopeId} {f : ScopeCell → ScopeCell}
    (hf : ∀ c, (f c).Standing → c.Standing ∧ (f c).entry = c.entry) :
    Keeps Registered (modifyScope s f : Eff η Unit) :=
  Keeps.modify fun _ hm => hm.modify_scope fun _ => hf _

/-! ## What a teardown does to the scopes -/

theorem tornDown_watchers_size (m : Machine η) (w : WatcherId) :
    (m.tornDown w).watchers.size = m.watchers.size := by
  unfold Machine.tornDown
  rw [Array.size_modify]
  exact congrArg Array.size (foldl_unsubscribe_of
    (P := fun m' : Machine η => m'.watchers = m.watchers) (fun _ _ h => h) _ rfl)

/-- A teardown changes the scopes only by taking the watcher off a scope's lists and by
collecting, and the table of watchers not in size: what looks only at these and survives both
survives it. -/
theorem teardown_keeps {I : Machine η → Prop} {w : WatcherId}
    (hI : ∀ m m' : Machine η, m'.scopes = m.scopes → m'.watchers.size = m.watchers.size →
      I m → I m')
    (hu : ∀ m s, I m → I (m.unlisted s w)) (hc : ∀ m, I m → I m.collect) :
    Keeps I (teardown w) := by
  have hreleased : Keeps I (released : Eff η Unit) := by
    refine Keeps.bind (Keeps.modify fun m hm => hI m _ rfl rfl hm) fun _ =>
      Keeps.modify fun m hm => ?_
    split
    · exact hI m.collect _ rfl rfl (hc m hm)
    · exact hm
  have hrest : Keeps I (do
      for d in ((← MonadState.get).watcher w).deps do removeSub d w
      modifyWatcher w fun c => { c with deps := [], active := false } : Eff η Unit) :=
    fun m hm r m' hrun => by
      rw [teardown_rest_run] at hrun
      cases hrun
      exact hI m _ (tornDown_scopes m w) (tornDown_watchers_size m w) hm
  unfold teardown
  refine Keeps.bind Keeps.get fun m => Keeps.ite _ (Keeps.pure _) ?_
  dsimp only
  split
  · split
    · exact Keeps.bind (Keeps.bind (Keeps.modify fun m hm => hu m _ hm) fun _ => hreleased)
        fun _ => hrest
    · exact hrest
  · exact hrest

theorem teardown_size (n : Nat) (w : WatcherId) :
    Keeps (fun m : Machine η => n ≤ m.scopes.size) (teardown w) :=
  teardown_keeps (fun _ _ e _ h => by rw [e]; exact h)
    (fun _ _ h => by
      show n ≤ (Array.modify _ _ _).size
      rw [Array.size_modify]
      exact h)
    fun m h => by rw [(Quiet.collect m).size]; exact h

theorem teardown_marked (u : ScopeId) (w : WatcherId) :
    Keeps (Marked u) (teardown w : Eff η Unit) :=
  teardown_keeps (fun _ _ e _ h => h.of_scopes e) (fun _ _ h => h.modify_scope fun _ hb => hb)
    fun _ h => h.collect

theorem teardown_watchers_size (n : Nat) (w : WatcherId) :
    Keeps (fun m : Machine η => m.watchers.size = n) (teardown w) :=
  teardown_keeps (fun _ _ _ e h => e.trans h) (fun _ _ h => h)
    fun m h => (Quiet.collect m).watchers_size.trans h

/-! ## What a failed first evaluation leaves -/

theorem evaluateWith_leaves_idle (r : Runner η) (fuel : Nat) (w : WatcherId) :
    Triple (fun _ => True) (evaluateWith r fuel w) fun _ => Idle w := by
  cases fuel with
  | zero => exact Triple.halt _
  | succ fuel =>
    rw [evaluateWith_frame]
    refine Triple.bind_get fun m _ => Triple.bind_ok (R := fun _ _ => True)
      (Triple.conseq (openEval_noFault w _) (fun _ _ => trivial) fun _ _ ⟨a, h⟩ => ⟨a, h, trivial⟩)
      fun _ => Triple.bind_ok (R := fun _ _ => True)
        (Triple.conseq (inFrame_noFault r fuel _ _) (fun _ _ => trivial)
          fun _ _ ⟨a, h⟩ => ⟨a, h, trivial⟩) fun res => ?_
    -- closing the frame reconciles the watcher, whatever it read
    intro m₁ _ out m' hrun
    exact (closeFrame_reads (D := (m₁.watcher w).deps) (N := (m₁.watcher w).newDeps) w _ res m₁
      ⟨rfl, rfl⟩ out m' hrun).2.2

theorem build_made {w : WatcherId} (scope : Option ScopeId) (getter : Getter)
    (callback : Option Closure) (o : WatcherOptions) (render : Bool) :
    Triple (fun m : Machine η => m.watchers.size = w.idx) (build scope getter callback o render)
      fun res m' => ∃ a, res = .ok a ∧ a = w ∧ (m'.watcher w).active = true := by
  intro m hm r m' hrun
  unfold build at hrun
  have hw : w = ⟨m.watchers.size⟩ := by rw [hm]
  subst hw
  cases scope with
  | none =>
    simp only [exec_get_bind, exec_setOf_bind, exec_pure] at hrun
    cases hrun
    exact ⟨_, rfl, rfl, by rw [watcher_push, if_pos rfl]⟩
  | some s =>
    cases render <;>
      simp only [exec_get_bind, exec_setOf_bind, exec_pure, exec_modify_bind, modifyScope, release,
        ite_true, ite_false, Bool.false_eq_true] at hrun <;>
      cases hrun
    all_goals
      refine ⟨_, rfl, rfl, ?_⟩
      unfold Machine.watcher
      simp

end Eff

namespace Machine

variable {m : Machine η} {w : WatcherId}

theorem Stopped.of_tables {m' : Machine η} (h : m.Stopped w) (hw : m'.watchers = m.watchers)
    (hd : m'.deps = m.deps) : m'.Stopped w := by
  unfold Stopped Machine.dep at *
  rw [watcher_eq_of_watchers_eq hw, hd]
  exact h

end Machine

namespace Eff

open Machine

theorem unhold_stopped (w : WatcherId) : Keeps (fun m : Machine η => m.Stopped w) unhold := by
  refine Keeps.bind (Keeps.modify fun _ h => h.of_tables rfl rfl) fun _ =>
    Keeps.modify fun m h => ?_
  split
  · exact ((Quiet.collect m).stopped w h).of_tables rfl rfl
  · exact h

theorem teardown_noFault (w : WatcherId) : NoFault (teardown w : Eff η Unit) := by
  have hrest : NoFault (do
      for d in ((← MonadState.get).watcher w).deps do removeSub d w
      modifyWatcher w fun c => { c with deps := [], active := false } : Eff η Unit) :=
    fun m _ r m' hrun => by
      rw [teardown_rest_run] at hrun
      cases hrun
      exact ⟨(), rfl⟩
  unfold teardown
  refine NoFault.bind NoFault.get fun m => NoFault.ite _ (NoFault.pure _) ?_
  dsimp only
  split
  · split
    · exact NoFault.bind (unregister_noFault _ _) fun _ => hrest
    · exact hrest
  · exact hrest

section Failed

variable {r : Runner η} {w : WatcherId}
  (hsub : ∀ c a, Keeps Subscribed (r.invoke c a))
  (hact : ∀ c a, Keeps (fun m : Machine η => (m.watcher w).active = true) (r.invoke c a))
include hsub hact

/-- A watcher whose first evaluation faults is stopped for good: inactive, with no reads, and
listed by no set; so long as host code keeps subscriptions in agreement with reads and leaves
the watcher active. -/
theorem create_fault_stopped (scope : Option ScopeId) (getter : Getter)
    (callback : Option Closure) (o : WatcherOptions) (render : Bool) :
    Triple (fun m : Machine η => m.Subscribed ∧ m.watchers.size = w.idx)
      (create r scope getter callback o render)
      fun res m' => ∀ e, res = .error e → m'.Stopped w := by
  let J := fun m : Machine η => m.Subscribed ∧ (m.watcher w).active = true
  have hJ : ∀ {α : Type} {x : Eff η α}, Keeps Subscribed x →
      Keeps (fun m : Machine η => (m.watcher w).active = true) x → Keeps J x := fun h h' =>
    Triple.and (Triple.conseq h (fun _ hm => hm.1) fun _ _ hm => hm)
      (Triple.conseq h' (fun _ hm => hm.2) fun _ _ hm => hm)
  have hbuild : Triple (fun m : Machine η => m.Subscribed ∧ m.watchers.size = w.idx)
      (build scope getter callback o render) fun res m => ∃ a, res = .ok a ∧ J m ∧ a = w :=
    Triple.conseq (Triple.and (Triple.conseq (build_made scope getter callback o render)
        (fun _ hm => hm.2) fun _ _ h => h)
      (Triple.conseq (subscribed_stable.build scope getter callback o render) (fun _ hm => hm.1)
        fun _ _ h => h)) (fun _ h => h) fun _ _ ⟨⟨a, ha, haw, hact⟩, hs⟩ => ⟨a, ha, ⟨hs, hact⟩, haw⟩
  -- the first evaluation keeps the watcher active and ends with no reads under way
  have heval : Triple J (attempt (evaluate r w)) fun res m => ∃ a, res = .ok a ∧ J m ∧ Idle w m :=
    Triple.attempt (Triple.conseq (Triple.and
      (hJ (subscribed_stable.evaluate hsub w) ((Stable.active_evaluates w).evaluate hact w))
      (Triple.conseq (evaluateWith_leaves_idle r _ w) (fun _ _ => trivial) fun _ _ h => h))
      (fun _ h => h) fun res _ h => ⟨res, rfl, h⟩)
  unfold create
  refine Triple.bind_ok hbuild fun w' m ⟨hm, e⟩ => ?_
  subst e
  refine (?_ : Triple J _ _) m hm
  refine Triple.bind_of_keeps (hJ (subscribed_stable.pin _) ((Stable.active_evaluates w').pin _))
    (pin_noFault _) fun _ => ?_
  dsimp only
  split
  · refine Triple.bind_ok heval fun res => ?_
    split
    · exact Triple.bind_ok (R := fun _ _ => True) (Triple.modify _ fun _ _ => ⟨(), rfl, trivial⟩)
        fun _ => Triple.pure w' fun _ _ e h => by cases h
    · -- the teardown stops the watcher; what follows keeps it stopped
      refine Triple.bind (R := fun _ m => m.Stopped w') (Triple.conseq (teardown_unlists w')
        (fun _ h => ⟨h.1.1, h.1.2, h.2⟩) fun _ _ h => ⟨h.2.1, h.1, h.2.2⟩) (fun _ => ?_)
        fun _ _ h _ _ => h
      exact Triple.conseq (Keeps.bind (Keeps.modify fun _ h => h.of_tables rfl rfl) fun _ =>
        Keeps.bind (unhold_stopped w') fun _ => Keeps.fault _) (fun _ h => h) fun _ _ h _ _ => h
  · exact Triple.pure w' fun _ _ e h => by cases h

/-- A mount whose first render faults stops the render watcher it made, in the same way. -/
theorem mount_fault_stopped (s : ScopeId) (render : Closure) :
    Triple (fun m : Machine η => m.Subscribed ∧ m.watchers.size = w.idx) (mount r s render)
      fun res m' => ∀ e, res = .error e → m'.Stopped w := by
  unfold mount
  refine Triple.bind_get fun m hm => ?_
  extract_lets rest
  -- past the teardown of the render watcher before, only the new one can fault
  have hrest : ∀ u, Triple (fun m : Machine η => m.Subscribed ∧ m.watchers.size = w.idx) (rest u)
      fun res m' => ∀ e, res = .error e → m'.Stopped w := fun _ =>
    Triple.bind (create_fault_stopped hsub hact _ _ _ _ _) (fun _ => Triple.conseq
      (NoFault.bind unhold_noFault fun _ => NoFault.modify _) (fun _ _ => trivial)
      fun _ _ ⟨a, ha⟩ e he => by rw [ha] at he; cases he) fun e _ h _ _ => h e rfl
  split
  · exact Triple.bind_of_keeps (I := fun m : Machine η => m.Subscribed ∧ m.watchers.size = w.idx)
      (Triple.and (Triple.conseq (subscribed_stable.teardown _) (fun _ h => h.1) fun _ _ h => h)
        (Triple.conseq (teardown_watchers_size w.idx _) (fun _ h => h.2) fun _ _ h => h))
      (teardown_noFault _) hrest |>.conseq (fun _ e => e ▸ hm) fun _ _ h => h
  · exact Triple.conseq (hrest ()) (fun _ e => e ▸ hm) fun _ _ h => h

end Failed

/-! ## Operations with host code -/

section Host

variable {r : Runner η} (hr : ∀ c a, Keeps Registered (r.invoke c a))
include hr

theorem create_registered (scope : Option ScopeId) (getter : Getter) (callback : Option Closure)
    (o : WatcherOptions) (render : Bool) :
    Triple (fun m : Machine η => m.Registered ∧ ∀ s, scope = some s → s.idx < m.scopes.size)
      (create r scope getter callback o render) fun _ => Registered := by
  unfold create
  refine Triple.bind (build_registered scope getter callback o render) (fun w => ?_)
    fun _ _ h => h
  refine Keeps.bind (Stable.registered_base.pin _) fun _ => ?_
  dsimp only
  split
  · refine Keeps.bind (Keeps.attempt (Stable.registered_evaluates.evaluate hr w)) fun res => ?_
    split
    · exact Keeps.bind (Keeps.modify fun _ hm => hm.modify_watcher _ fun _ => ⟨rfl, rfl⟩)
        fun _ => Keeps.pure w
    · exact Keeps.bind (teardown_registered w) fun _ => Keeps.bind Stable.registered_base.release
        fun _ => Keeps.bind Stable.registered_base.unhold fun _ => Keeps.fault _
  · exact Keeps.pure w

theorem watch_registered (s : ScopeId) (getter : Getter) (callback : Option Closure)
    (o : WatchOptions) :
    Triple (fun m : Machine η => m.Registered ∧ s.idx < m.scopes.size)
      (watch r s getter callback o) fun _ => Registered := by
  have hfault := Stable.registered_base.handleError (fun c _ _ _ => hr c _)
  unfold watch
  refine Triple.bind (Triple.conseq (build_registered (some s) getter callback _ false)
    (fun _ h => ⟨h.1, fun _ e => by cases e; exact h.2⟩) fun _ _ h => h) (fun w => ?_)
    fun _ _ h => h
  refine Keeps.bind (Stable.registered_base.pin _) fun _ => ?_
  refine Keeps.bind (Keeps.attempt (Stable.registered_evaluates.evaluate hr w)) fun res => ?_
  -- after the first evaluation, an immediate watch calls its callback once
  extract_lets done called
  have hdone : ∀ u, Keeps Registered (done u) := fun _ => Keeps.pure _
  have hcalled : ∀ u, Keeps Registered (called u) := by
    intro u
    dsimp -zeta only [called]
    split
    · split
      · refine Keeps.bind Keeps.get fun _ => ?_
        dsimp only
        refine Keeps.bind (Keeps.attempt (Stable.registered_frames.untracked (hr _ _)))
          fun res => ?_
        split
        · exact Keeps.bind (hfault _ _ _) hdone
        · exact hdone ()
      · exact hdone ()
    · exact hdone ()
  split
  · exact Keeps.bind (Keeps.modify fun _ hm => hm.modify_watcher _ fun _ => ⟨rfl, rfl⟩) hcalled
  · exact Keeps.bind Keeps.get fun _ => Keeps.bind (hfault _ _ _) hcalled

theorem mount_registered (s : ScopeId) (render : Closure) :
    Triple (fun m : Machine η => m.Registered ∧ s.idx < m.scopes.size) (mount r s render)
      fun _ => Registered := by
  unfold mount
  refine Triple.bind_get fun m hm => ?_
  extract_lets rest
  have hrest : ∀ u, Triple (fun m : Machine η => m.Registered ∧ s.idx < m.scopes.size) (rest u)
      fun _ => Registered := fun _ =>
    Triple.bind (Triple.conseq (create_registered hr (some s) _ none _ true)
      (fun _ h => ⟨h.1, fun _ e => by cases e; exact h.2⟩) fun _ _ h => h)
      (fun _ => Keeps.bind Stable.registered_base.unhold fun _ =>
        modifyScope_registered fun _ h => ⟨h, rfl⟩) fun _ _ h => h
  split
  · exact Triple.bind (Triple.and ((teardown_registered _).triple hm.1)
      ((teardown_size (s.idx + 1) _).triple hm.2)) hrest fun _ _ h => h.1
  · exact Triple.conseq (hrest ()) (fun _ e => e ▸ hm) fun _ _ h => h

end Host

theorem newComputed_registered (scope : Option ScopeId) (name : String) (c : Closure) :
    Triple (fun m : Machine η => m.Registered ∧ ∀ s, scope = some s → s.idx < m.scopes.size)
      (newComputed scope name c) fun _ => Registered := by
  have hwarn : ∀ t, Keeps Registered (warn t : Eff η Unit) := fun _ =>
    Keeps.bind Keeps.get fun _ => Keeps.ite _ (Stable.registered_base.report _) (Keeps.pure _)
  unfold newComputed
  refine Triple.bind (build_registered scope _ none _ false) (fun w => ?_) fun _ _ h => h
  extract_lets done
  have hdone : ∀ u, Keeps Registered (done u) := fun _ => Keeps.pure _
  split
  · refine Keeps.bind Keeps.get fun _ => ?_
    dsimp only
    refine Keeps.bind (Stable.hasOwn _ _) fun _ => Keeps.ite _ (Keeps.bind (hwarn _) hdone) ?_
    refine Keeps.bind (Stable.hasOwn _ _) fun _ => Keeps.ite _ (Keeps.bind (hwarn _) hdone) ?_
    -- the table of computed values is not part of the registry
    exact Keeps.bind (modifyScope_registered fun _ h => ⟨h, rfl⟩) fun _ =>
      Keeps.bind Stable.registered_base.release hdone
  · exact hdone ()

theorem newScope_registered (name : String) (parent : Option ScopeId)
    (props : List (String × Value)) (data : Value) :
    Keeps Registered (newScope name parent props data : Eff η ScopeId) := by
  have hobj : ∀ fields, Keeps Registered (newObject fields : Eff η ObjRef) := fun _ =>
    Keeps.get_set_bind (fun _ hm => hm.of_tables rfl rfl) fun _ _ => Keeps.pure _
  have hwarn : ∀ t, Keeps Registered (warn t : Eff η Unit) := fun _ =>
    Keeps.bind Keeps.get fun _ => Keeps.ite _ (Stable.registered_base.report _) (Keeps.pure _)
  unfold newScope
  refine Keeps.bind Keeps.get fun _ => ?_
  extract_lets s done
  have hdone : ∀ u, Keeps Registered (done u) := fun _ => Keeps.pure _
  refine Keeps.bind (hobj _) fun propObj => Keeps.bind Keeps.get fun _ => ?_
  extract_lets wasObserving finish
  refine Keeps.bind (Keeps.modify fun _ hm => hm.of_tables rfl rfl) fun _ =>
    Keeps.bind (Keeps.forIn_list fun _ _ => ?_) fun _ =>
    Keeps.bind (Keeps.modify fun _ hm => hm.of_tables rfl rfl) fun _ => ?_
  · split
    exact Keeps.bind (Stable.registered_heap.defineReactive _ _ _ _ _) fun _ => Keeps.pure _
  -- the new scope lists nothing, and its parent's list of children is not in the registry
  have hfinish : ∀ o, Keeps Registered (finish o) := by
    intro o
    dsimp -zeta only [finish]
    refine Keeps.bind (Stable.objKeysUntracked _) fun _ => Keeps.bind (Keeps.forIn_list fun _ _ =>
      Keeps.bind (Stable.hasOwn _ _) fun _ =>
        Keeps.ite _ (Keeps.bind (hwarn _) fun _ => Keeps.pure _) (Keeps.pure _)) fun _ =>
      Keeps.bind (Stable.registered_heap.observe _ _) fun _ => ?_
    extract_lets cell
    refine Keeps.bind (Keeps.modify fun _ hm => hm.push_scope rfl rfl) fun _ => ?_
    split
    · exact Keeps.bind (modifyScope_registered fun _ h => ⟨h, rfl⟩) hdone
    · exact hdone ()
  split
  · exact Keeps.bind (Keeps.pure _) hfinish
  · exact Keeps.bind (hobj _) hfinish
  · exact Keeps.bind (hwarn _) fun _ => Keeps.bind (hobj _) hfinish

/-! ## Destroying a scope -/

theorem destroyWith_keeps_marked (u : ScopeId) (fuel : Nat) (s : ScopeId) :
    Keeps (Marked u) (destroyWith fuel s : Eff η Unit) := by
  induction fuel generalizing s with
  | zero => exact Keeps.halt _
  | succ fuel ih =>
    have hscope : ∀ t (f : ScopeCell → ScopeCell),
        (∀ c, c.beingDestroyed = true → (f c).beingDestroyed = true) →
        Keeps (Marked u) (modifyScope t f : Eff η Unit) :=
      fun _ _ hf => Keeps.modify fun _ hm => hm.modify_scope hf
    unfold destroyWith
    refine Keeps.bind Keeps.get fun _ => Keeps.ite _ (Keeps.pure _) ?_
    refine Keeps.bind (hscope _ _ fun _ _ => rfl) fun _ => Keeps.bind Keeps.get fun _ => ?_
    extract_lets rest
    have hrest : ∀ v, Keeps (Marked u) (rest v) := by
      intro v
      dsimp -zeta only [rest]
      refine Keeps.bind Keeps.get fun _ => ?_
      dsimp only
      refine Keeps.bind (hscope _ _ fun _ h => h) fun _ => Keeps.bind (Keeps.forIn_list fun _ _ =>
        Keeps.bind (ih _) fun _ => Keeps.pure _) fun _ => Keeps.bind Keeps.get fun _ => ?_
      refine Keeps.bind (hscope _ _ fun _ h => h) fun _ => Keeps.bind (Keeps.forIn_list fun _ _ =>
        Keeps.bind (teardown_marked u _) fun _ => Keeps.pure _) fun _ =>
        Keeps.bind (hscope _ _ fun _ h => h) fun _ => Keeps.bind Keeps.get fun _ => ?_
      exact Keeps.bind (Keeps.modify fun _ hm => hm.of_scopes rfl) fun _ =>
        hscope _ _ fun _ h => h
    split
    · exact Keeps.bind Keeps.get fun _ =>
        Keeps.ite _ (Keeps.bind (hscope _ _ fun _ h => h) hrest) (hrest ())
    · exact hrest ()

/-- Destroying a scope keeps the registry: its lists are emptied only after the destroy has
begun on it, when the registry no longer keeps them. The induction is on the fuel; the mark on
`s` is carried through the destroys of its children. -/
theorem destroyWith_registered (fuel : Nat) (s : ScopeId) :
    Keeps Registered (destroyWith fuel s : Eff η Unit) := by
  induction fuel generalizing s with
  | zero => exact Keeps.halt _
  | succ fuel ih =>
    let J := fun m : Machine η => m.Registered ∧ m.Marked s
    have hJ : ∀ {α : Type} {x : Eff η α}, Keeps Registered x → Keeps (Marked s) x → Keeps J x :=
      fun h h' => Triple.and (Triple.conseq h (fun _ hm => hm.1) fun _ _ hm => hm)
        (Triple.conseq h' (fun _ hm => hm.2) fun _ _ hm => hm)
    have hclear : ∀ f : ScopeCell → ScopeCell, (∀ c, (f c).beingDestroyed = c.beingDestroyed) →
        Keeps J (modifyScope s f : Eff η Unit) := by
      intro f hf
      refine Keeps.modify fun m hm =>
        ⟨hm.1.modify_scope fun hlt hst => ?_, hm.2.modify_scope fun c hb => (hf c).trans hb⟩
      have hb : (f (m.scope s)).beingDestroyed = true := (hf _).trans (hm.2 hlt)
      rw [hst.2] at hb
      cases hb
    have hmark : Triple Registered (modifyScope s fun c => { c with beingDestroyed := true } :
        Eff η Unit) fun _ => J := by
      refine Triple.modify _ fun m hm => ⟨hm.modify_scope fun _ hst => ?_, fun hlt => ?_⟩
      · exact absurd hst.2 (by simp)
      · rw [Array.size_modify] at hlt
        rw [scope_modify, if_pos ⟨rfl, hlt⟩]
    -- an update of a scope that keeps its entry, or one of `s` once it is marked
    have hkeep : ∀ t (f : ScopeCell → ScopeCell), (∀ c, (f c).Standing ↔ c.Standing) →
        (∀ c, (f c).entry = c.entry) → (∀ c, (f c).beingDestroyed = c.beingDestroyed) →
        Keeps J (modifyScope t f : Eff η Unit) := fun _ _ hst he hb =>
      hJ (modifyScope_registered fun c h => ⟨(hst c).1 h, he c⟩)
        (Keeps.modify fun _ hm => hm.modify_scope fun c h => (hb c).trans h)
    unfold destroyWith
    refine Keeps.bind Keeps.get fun _ => Keeps.ite _ (Keeps.pure _) ?_
    refine Triple.bind hmark (fun _ => Triple.conseq (?_ : Keeps J _) (fun _ h => h)
      fun _ _ h => h.1) fun _ _ h => h.1
    refine Keeps.bind Keeps.get fun _ => ?_
    -- past the parent: the children, then the watchers, then the scope's own state
    extract_lets rest
    have hrest : ∀ v, Keeps J (rest v) := by
      intro v
      dsimp -zeta only [rest]
      refine Keeps.bind Keeps.get fun _ => ?_
      dsimp only
      refine Keeps.bind (hkeep _ _ (fun _ => Iff.rfl) (fun _ => rfl) fun _ => rfl) fun _ =>
        Keeps.bind (Keeps.forIn_list fun _ _ =>
          Keeps.bind (hJ (ih _) (destroyWith_keeps_marked s fuel _)) fun _ => Keeps.pure _)
          fun _ => Keeps.bind Keeps.get fun _ => ?_
      refine Keeps.bind (hclear _ fun _ => rfl) fun _ => Keeps.bind (Keeps.forIn_list fun _ _ =>
        Keeps.bind (hJ (teardown_registered _) (teardown_marked s _)) fun _ => Keeps.pure _)
        fun _ => Keeps.bind (hclear _ fun _ => rfl) fun _ => Keeps.bind Keeps.get fun _ => ?_
      exact Keeps.bind (hJ (Keeps.modify fun _ hm => hm.of_tables rfl rfl)
        (Keeps.modify fun _ hm => hm.of_scopes rfl)) fun _ =>
        hkeep _ _ (fun _ => Iff.rfl) (fun _ => rfl) fun _ => rfl
    split
    · exact Keeps.bind Keeps.get fun _ => Keeps.ite _
        (Keeps.bind (hkeep _ _ (fun _ => Iff.rfl) (fun _ => rfl) fun _ => rfl) hrest) (hrest ())
    · exact hrest ()

theorem destroy_registered (s : ScopeId) : Keeps Registered (destroy s : Eff η Unit) :=
  Keeps.bind Keeps.get fun _ => Keeps.bind (destroyWith_registered _ _) fun _ =>
    Stable.registered_base.released

end Eff

/-! ## Runs of registry operations -/

/-- The operations on scopes and their watchers. -/
inductive RegistryOp where
  | scope (name : String) (parent : Option ScopeId) (props : List (String × Value)) (data : Value)
  | watcher (scope : Option ScopeId) (getter : Getter) (callback : Option Closure)
      (o : Eff.WatcherOptions) (render : Bool)
  | watch (s : ScopeId) (getter : Getter) (callback : Option Closure) (o : Eff.WatchOptions)
  | computed (scope : Option ScopeId) (name : String) (c : Closure)
  | mount (s : ScopeId) (render : Closure)
  | unwatch (w : WatcherId)
  | destroy (s : ScopeId)

namespace RegistryOp

/-- Runs a registry operation, as a caller does: the hold on a new watcher ends with it. -/
def exec (r : Runner η) : RegistryOp → Eff η Unit
  | .scope name parent props data => do let _ ← Eff.newScope name parent props data; pure ()
  | .watcher sc getter callback o render => do
    let _ ← Eff.create r sc getter callback o render
    Eff.unhold
  | .watch s getter callback o => do
    let _ ← Eff.watch r s getter callback o
    Eff.unhold
  | .computed sc name c => do let _ ← Eff.newComputed sc name c; pure ()
  | .mount s render => Eff.mount r s render
  | .unwatch w => Eff.teardown w
  | .destroy s => Eff.destroy s

/-- An operation names only scopes that exist, as every handle a caller holds does. -/
def Permitted (m : Machine η) : RegistryOp → Prop
  | .watcher sc .. => ∀ s, sc = some s → s.idx < m.scopes.size
  | .watch s .. => s.idx < m.scopes.size
  | .computed sc .. => ∀ s, sc = some s → s.idx < m.scopes.size
  | .mount s _ => s.idx < m.scopes.size
  | _ => True

open Machine Eff

/-- Each registry operation keeps the registry, whether it returns or faults. -/
theorem exec_registered {r : Runner η} (hr : ∀ c a, Keeps Registered (r.invoke c a))
    {m : Machine η} (hm : m.Registered) (op : RegistryOp) (hp : op.Permitted m) :
    Triple (· = m) (op.exec r) fun _ => Registered := by
  have hunhold := Stable.registered_base.unhold (η := η)
  cases op with
  | scope name parent props data =>
    unfold exec
    exact (Keeps.bind (newScope_registered name parent props data) fun _ => Keeps.pure _).triple hm
  | watcher sc getter callback o render =>
    unfold exec
    exact Triple.bind (Triple.conseq (create_registered hr sc getter callback o render)
      (fun _ e => e ▸ ⟨hm, hp⟩) fun _ _ h => h) (fun _ => hunhold) fun _ _ h => h
  | watch s getter callback o =>
    unfold exec
    exact Triple.bind (Triple.conseq (watch_registered hr s getter callback o)
      (fun _ e => e ▸ ⟨hm, hp⟩) fun _ _ h => h) (fun _ => hunhold) fun _ _ h => h
  | computed sc name c =>
    unfold exec
    exact Triple.bind (Triple.conseq (newComputed_registered sc name c)
      (fun _ e => e ▸ ⟨hm, hp⟩) fun _ _ h => h) (fun _ => Keeps.pure _) fun _ _ h => h
  | mount s render =>
    unfold exec
    exact Triple.conseq (mount_registered hr s render) (fun _ e => e ▸ ⟨hm, hp⟩) fun _ _ h => h
  | unwatch w =>
    unfold exec
    exact (teardown_registered w).triple hm
  | destroy s =>
    unfold exec
    exact (destroy_registered s).triple hm

end RegistryOp

/-- The states that runs of registry operations reach from an engine with no scopes and no
watchers; an operation that faults ends, and the run goes on. -/
inductive RegistryReach (r : Runner η) : Machine η → Prop
  | start {m : Machine η} : m.scopes = #[] → m.watchers = #[] → RegistryReach r m
  | step {m m' : Machine η} {res : Except Fault Unit} (op : RegistryOp) :
      RegistryReach r m → op.Permitted m → ExceptT.run (op.exec r) m = .ok (res, m') →
      RegistryReach r m'

theorem Machine.registered_of_empty {m : Machine η} (hs : m.scopes = #[]) (hw : m.watchers = #[]) :
    m.Registered := by
  have hscope : ∀ s, m.scope s = default := fun _ =>
    scope_of_size_le (by rw [hs]; exact Nat.zero_le _)
  have hwatch : ∀ w, m.watcher w = default := fun _ =>
    watcher_of_size_le (by rw [hw]; exact Nat.zero_le _)
  refine ⟨fun s w _ => ?_, fun s _ => ?_, fun s w _ hr => ?_⟩
  · rw [hscope, hwatch]
    exact ⟨fun h => absurd h List.not_mem_nil, fun h => absurd h.1 (by decide)⟩
  · rw [hscope]
    exact List.nodup_nil
  · rw [hscope] at hr
    cases hr

/-- Every state a run of registry operations reaches keeps the registry, when host code does. -/
theorem RegistryReach.registered {r : Runner η}
    (hr : ∀ c a, Keeps Machine.Registered (r.invoke c a)) {m : Machine η} (h : RegistryReach r m) :
    m.Registered := by
  induction h with
  | start hs hw => exact Machine.registered_of_empty hs hw
  | step op _ hp hrun ih => exact RegistryOp.exec_registered hr ih op hp _ rfl _ _ hrun

/-- The registry of scopes. Along every run of registry operations whose host code keeps it, a
scope neither dropped nor being destroyed lists, once each, exactly the active watchers made for
it (watches, render watchers and computed values alike), and its render watcher, if any, is one
of them, made as a render watcher, and the newest render watcher made for it. A creation or a
mount whose first evaluation faults leaves the watcher it made stopped: inactive, with no reads
and listed by no set; so no standing scope lists it or has it as its render watcher. -/
structure RegistryLaws (r : Runner η) : Prop where
  reachable : ∀ m, RegistryReach r m → m.Registered
  created : ∀ (m m' : Machine η) scope getter callback o render e,
    (∀ c a, Keeps Machine.Subscribed (r.invoke c a)) →
    (∀ c a, Keeps (fun x : Machine η => (x.watcher ⟨m.watchers.size⟩).active = true)
      (r.invoke c a)) →
    m.Registered → m.Subscribed → (∀ s, scope = some s → s.idx < m.scopes.size) →
    ExceptT.run (Eff.create r scope getter callback o render) m = .ok (.error e, m') →
    m'.Registered ∧ m'.Stopped ⟨m.watchers.size⟩ ∧ ∀ s, (m'.scope s).Standing →
      ⟨m.watchers.size⟩ ∉ (m'.scope s).watchers ∧ (m'.scope s).render ≠ some ⟨m.watchers.size⟩
  mounted : ∀ (m m' : Machine η) s render e,
    (∀ c a, Keeps Machine.Subscribed (r.invoke c a)) →
    (∀ c a, Keeps (fun x : Machine η => (x.watcher ⟨m.watchers.size⟩).active = true)
      (r.invoke c a)) →
    m.Registered → m.Subscribed → s.idx < m.scopes.size →
    ExceptT.run (Eff.mount r s render) m = .ok (.error e, m') →
    m'.Registered ∧ m'.Stopped ⟨m.watchers.size⟩ ∧ ∀ s', (m'.scope s').Standing →
      ⟨m.watchers.size⟩ ∉ (m'.scope s').watchers ∧ (m'.scope s').render ≠ some ⟨m.watchers.size⟩

theorem scope_registry (r : Runner η) (hr : ∀ c a, Keeps Machine.Registered (r.invoke c a)) :
    RegistryLaws r := by
  refine ⟨fun _ h => h.registered hr, fun m m' scope getter callback o render e hsub hact hm hsm hs
    hrun => ?_, fun m m' s render e hsub hact hm hsm hs hrun => ?_⟩
  · have hreg :=
      Triple.of_run (Eff.create_registered hr scope getter callback o render) hrun ⟨hm, hs⟩
    have hstop := Triple.of_run (Eff.create_fault_stopped hsub hact scope getter callback o render)
      hrun ⟨hsm, rfl⟩ e rfl
    exact ⟨hreg, hstop, fun _ hst => hreg.absent hstop.1 hst⟩
  · have hreg := Triple.of_run (Eff.mount_registered hr s render) hrun ⟨hm, hs⟩
    have hstop := Triple.of_run (Eff.mount_fault_stopped hsub hact s render) hrun ⟨hsm, rfl⟩ e rfl
    exact ⟨hreg, hstop, fun _ hst => hreg.absent hstop.1 hst⟩

/-- Host code that answers undefined and does nothing else. -/
def quietHost : Runner Unit where
  invoke _ _ := pure .undefined
  fuel := 1

theorem scope_registry_quiet :
    (∀ c a, Keeps Machine.Registered (quietHost.invoke c a)) ∧ RegistryLaws quietHost :=
  ⟨fun _ _ => Keeps.pure _, scope_registry quietHost fun _ _ => Keeps.pure _⟩

/-- A destroyed scope `0` whose list names the active watcher `0`, as a watch made for the scope
after its destroy leaves it. -/
def watchedAfterDestroy : Machine Unit :=
  { host := (),
    scopes := #[{ (default : ScopeCell) with watchers := [⟨0⟩], beingDestroyed := true,
                                              destroyed := true }],
    watchers := #[{ (default : WatcherCell) with scope := some ⟨0⟩, active := true }] }

/-- Tearing down a watcher of a destroyed scope stops it but leaves it on the scope's list: the
destroy's mark is never cleared, and the teardown leaves the lists of a scope so marked alone. -/
theorem unwatch_after_destroy_stays_listed :
    ∃ m', ExceptT.run ((RegistryOp.unwatch ⟨0⟩).exec quietHost) watchedAfterDestroy =
        .ok (.ok (), m') ∧ (m'.scope ⟨0⟩).destroyed = true ∧
      (m'.watcher ⟨0⟩).active = false ∧ ⟨0⟩ ∈ (m'.scope ⟨0⟩).watchers :=
  ⟨_, rfl, rfl, rfl, List.mem_singleton_self _⟩

end Reactivity

import Reactivity.Proofs.RootLedger
import Reactivity.Proofs.Subscriptions

/-!
# Taking scopes apart

A destroy marks a scope, destroys the children it had, tears its watchers down and ends it. What
holds between the state it starts in and each later one is said once, as relations: marks, ended
scopes and stopped watchers stay and lists only shrink (`Machine.Dismantles`); a step that marks
nothing keeps the watchers of every scope being destroyed (`Machine.Quiet`); each scope newly
marked is ended, with its children marked and its active watchers stopped (`Machine.Cascade`).
`Machine.Marking` is the state a destroy goes down to the children from, and `Machine.Destroyed`
what a whole destroy leaves. A stopped watcher stays inactive under every primitive update
(`Inactive.stable`).
-/
namespace Reactivity

variable {η : Type}

/-- A scope that a destroy has ended: marked, destroyed, with no watchers, no render watcher and
no computed values. -/
def ScopeCell.Ended (c : ScopeCell) : Prop :=
  c.beingDestroyed = true ∧ c.destroyed = true ∧ c.watchers = [] ∧ c.render = none ∧ c.computed = []

namespace Machine

variable {m m' m'' : Machine η}

/-- A watcher stopped for good: inactive, with no reads, and listed by no set. -/
def Stopped (m : Machine η) (w : WatcherId) : Prop :=
  (m.watcher w).active = false ∧ (m.watcher w).deps = [] ∧ ∀ d, w ∉ (m.dep d).subs

/-- `u` lies below `s` through lists of children of scopes not being destroyed, and is not being
destroyed itself: a destroy of `s` ends it. -/
def Ends (m : Machine η) (s u : ScopeId) : Prop :=
  Relation.ReflTransGen (fun a b => (m.scope a).beingDestroyed = false ∧ b ∈ (m.scope a).children)
    s u ∧ (m.scope u).beingDestroyed = false

/-- What a destroy under way keeps, from the state `m` it started in: marks, ended scopes and
stopped watchers stay; lists of children only shrink, and a scope not being destroyed loses only
children being destroyed and watchers stopped; an active watcher stays active unless stopped;
and no evaluation's reads under way change. -/
structure Dismantles (m m' : Machine η) : Prop where
  size : m'.scopes.size = m.scopes.size
  watchers_size : m'.watchers.size = m.watchers.size
  marked : ∀ u, (m.scope u).beingDestroyed = true → (m'.scope u).beingDestroyed = true
  ended : ∀ u, (m.scope u).Ended → (m'.scope u).Ended
  stopped : ∀ w, m.Stopped w → m'.Stopped w
  children : ∀ u, (m'.scope u).children ⊆ (m.scope u).children
  kept : ∀ u b, (m'.scope u).beingDestroyed = false → b ∈ (m.scope u).children →
    b ∈ (m'.scope u).children ∨ (m'.scope b).beingDestroyed = true
  watchers : ∀ u, (m'.scope u).beingDestroyed = false → (m'.scope u).watchers ⊆ (m.scope u).watchers
  listed : ∀ u w, (m'.scope u).beingDestroyed = false → w ∈ (m.scope u).watchers →
    w ∈ (m'.scope u).watchers ∨ m'.Stopped w
  active : ∀ w, (m.watcher w).active = true → (m'.watcher w).active = true ∨ m'.Stopped w
  newDeps : ∀ w, (m'.watcher w).newDeps = (m.watcher w).newDeps

namespace Dismantles

theorem refl (m : Machine η) : m.Dismantles m :=
  ⟨rfl, rfl, fun _ h => h, fun _ h => h, fun _ h => h, fun _ => List.Subset.refl _,
    fun _ _ _ h => .inl h, fun _ _ => List.Subset.refl _, fun _ _ _ h => .inl h,
    fun _ h => .inl h, fun _ => rfl⟩

theorem unmarked_of (h : m.Dismantles m') {u : ScopeId} (hu : (m'.scope u).beingDestroyed = false) :
    (m.scope u).beingDestroyed = false := by
  cases hb : (m.scope u).beingDestroyed
  · rfl
  · rw [h.marked u hb] at hu
    cases hu

theorem trans (h : m.Dismantles m') (h' : m'.Dismantles m'') : m.Dismantles m'' where
  size := h'.size.trans h.size
  watchers_size := h'.watchers_size.trans h.watchers_size
  marked u hu := h'.marked u (h.marked u hu)
  ended u hu := h'.ended u (h.ended u hu)
  stopped w hw := h'.stopped w (h.stopped w hw)
  children u := List.Subset.trans (h'.children u) (h.children u)
  kept u b hu hb := by
    rcases h.kept u b (h'.unmarked_of hu) hb with hb | hb
    · exact h'.kept u b hu hb
    · exact .inr (h'.marked b hb)
  watchers u hu := List.Subset.trans (h'.watchers u hu) (h.watchers u (h'.unmarked_of hu))
  listed u w hu hw := by
    rcases h.listed u w (h'.unmarked_of hu) hw with hw | hw
    · exact h'.listed u w hu hw
    · exact .inr (h'.stopped w hw)
  active w hw := by
    rcases h.active w hw with hw | hw
    · exact h'.active w hw
    · exact .inr (h'.stopped w hw)
  newDeps w := (h'.newDeps w).trans (h.newDeps w)

theorem unmarked_le (h : m.Dismantles m') : m'.unmarked ≤ m.unmarked := by
  unfold unmarked
  rw [h.size]
  refine List.countP_mono_left fun i _ hi => ?_
  simp only [Bool.not_eq_eq_eq_not, Bool.not_true] at hi ⊢
  exact h.unmarked_of hi

theorem of_tables (hs : m'.scopes = m.scopes) (hw : m'.watchers = m.watchers)
    (hd : m'.deps = m.deps) : m.Dismantles m' := by
  have hscope : ∀ u, m'.scope u = m.scope u := fun u => by unfold Machine.scope; rw [hs]
  have hwatcher := watcher_eq_of_watchers_eq hw
  have hdep : ∀ d, m'.dep d = m.dep d := fun d => by unfold Machine.dep; rw [hd]
  have hstop : ∀ w, m'.Stopped w ↔ m.Stopped w := fun w => by
    simp only [Stopped, hwatcher, hdep]
  refine ⟨by rw [hs], by rw [hw], fun u h => ?_, fun u h => ?_, fun w h => (hstop w).2 h, fun u => ?_,
    fun u b _ h => .inl ?_, fun u _ => ?_, fun u w _ h => .inl ?_, fun w h => .inl ?_,
    fun w => by rw [hwatcher]⟩ <;> simp_all

theorem modifyScope {u : ScopeId} {f : ScopeCell → ScopeCell}
    (hb : (m.scope u).beingDestroyed = true → (f (m.scope u)).beingDestroyed = true)
    (he : (m.scope u).Ended → (f (m.scope u)).Ended)
    (hc : (f (m.scope u)).children ⊆ (m.scope u).children)
    (hk : (f (m.scope u)).beingDestroyed = false → ∀ b ∈ (m.scope u).children,
      b ∈ (f (m.scope u)).children ∨ (m.scope b).beingDestroyed = true ∧ b ≠ u)
    (hw : (f (m.scope u)).beingDestroyed = false → (f (m.scope u)).watchers = (m.scope u).watchers) :
    m.Dismantles { m with scopes := m.scopes.modify u.idx f } := by
  have hs := fun v => scope_modify m u v f
  refine ⟨Array.size_modify .., rfl, fun v hv => ?_, fun v hv => ?_, fun w h => h, fun v => ?_,
    fun v b hv hb' => ?_, fun v hv => ?_, fun v w hv hw' => .inl ?_, fun w h => .inl h,
    fun w => rfl⟩
  · rw [hs]
    split
    · rename_i e
      rw [e.1] at hv ⊢
      exact hb hv
    · exact hv
  · rw [hs]
    split
    · rename_i e
      rw [e.1] at hv ⊢
      exact he hv
    · exact hv
  · rw [hs]
    split
    · rename_i e
      rw [e.1]
      exact hc
    · exact List.Subset.refl _
  · rw [hs] at hv ⊢
    split at hv
    · rename_i e
      rw [if_pos e]
      rw [e.1] at hv hb' ⊢
      rcases hk hv b hb' with hb' | ⟨hbd, hne⟩
      · exact .inl hb'
      · right
        rw [hs, if_neg fun e' => hne e'.1]
        exact hbd
    · rw [if_neg ‹_›]
      exact .inl hb'
  · rw [hs] at hv ⊢
    split at hv
    · rename_i e
      rw [if_pos e, e.1] at *
      rw [hw hv]
      exact List.Subset.refl _
    · rw [if_neg ‹_›]
      exact List.Subset.refl _
  · rw [hs] at hv ⊢
    split at hv
    · rename_i e
      rw [if_pos e]
      rw [e.1] at hv hw' ⊢
      rw [hw hv]
      exact hw'
    · rw [if_neg ‹_›]
      exact hw'

theorem of_dropped (hsize : m'.scopes.size = m.scopes.size)
    (hwsize : m'.watchers.size = m.watchers.size)
    (hs : ∀ u, ∃ b, m'.scope u = { m.scope u with dropped := b })
    (hw : ∀ w, ∃ b, m'.watcher w = { m.watcher w with dropped := b })
    (hd : ∀ d, (m'.dep d).subs ⊆ (m.dep d).subs) : m.Dismantles m' := by
  have hstop : ∀ w, m.Stopped w → m'.Stopped w := by
    rintro w ⟨ha, hdeps, hn⟩
    obtain ⟨b, hb⟩ := hw w
    exact ⟨by rw [hb]; exact ha, by rw [hb]; exact hdeps, fun d h => hn d (hd d h)⟩
  refine ⟨hsize, hwsize, fun u h => ?_, fun u h => ?_, hstop, fun u => ?_, fun u b _ h => .inl ?_,
    fun u _ => ?_, fun u w _ h => .inl ?_, fun w h => .inl ?_, fun w => ?_⟩
  all_goals first
    | obtain ⟨b, hb⟩ := hs u
      rw [hb]
    | obtain ⟨b, hb⟩ := hw w
      rw [hb]
  all_goals first
    | exact h
    | exact List.Subset.refl _

end Dismantles

theorem dropWatcher_watchers_size (m : Machine η) (w : WatcherId) :
    (m.dropWatcher w).watchers.size = m.watchers.size := by
  unfold Machine.dropWatcher
  rw [Array.size_modify, foldl_unsubscribe_watchers]

/-- A step that a destroy makes besides marking and emptying lists of watchers: it marks no
scope, and a scope being destroyed keeps its watchers. -/
structure Quiet (m m' : Machine η) : Prop extends m.Dismantles m' where
  unmarked : ∀ u, (m'.scope u).beingDestroyed = true → (m.scope u).beingDestroyed = true
  held : ∀ u, (m.scope u).beingDestroyed = true → (m'.scope u).watchers = (m.scope u).watchers

namespace Quiet

theorem refl (m : Machine η) : m.Quiet m :=
  ⟨.refl m, fun _ h => h, fun _ _ => rfl⟩

theorem trans (h : m.Quiet m') (h' : m'.Quiet m'') : m.Quiet m'' :=
  ⟨h.toDismantles.trans h'.toDismantles, fun u hu => h.unmarked u (h'.unmarked u hu),
    fun u hu => (h'.held u (h.marked u hu)).trans (h.held u hu)⟩

theorem of_dropped (hsize : m'.scopes.size = m.scopes.size)
    (hwsize : m'.watchers.size = m.watchers.size)
    (hs : ∀ u, ∃ b, m'.scope u = { m.scope u with dropped := b })
    (hw : ∀ w, ∃ b, m'.watcher w = { m.watcher w with dropped := b })
    (hd : ∀ d, (m'.dep d).subs ⊆ (m.dep d).subs) : m.Quiet m' := by
  refine ⟨.of_dropped hsize hwsize hs hw hd, fun u hu => ?_, fun u _ => ?_⟩
  · obtain ⟨b, hb⟩ := hs u
    rw [hb] at hu
    exact hu
  · obtain ⟨b, hb⟩ := hs u
    rw [hb]

theorem of_tables (hs : m'.scopes = m.scopes) (hw : m'.watchers = m.watchers)
    (hd : m'.deps = m.deps) : m.Quiet m' := by
  have hscope : ∀ u, m'.scope u = m.scope u := fun u => by unfold Machine.scope; rw [hs]
  exact ⟨.of_tables hs hw hd, fun u hu => by rwa [hscope] at hu, fun u _ => by rw [hscope]⟩

theorem modifyScope {t : ScopeId} (hbt : (m.scope t).beingDestroyed = true)
    {f : ScopeCell → ScopeCell} (hb : ∀ c, (f c).beingDestroyed = c.beingDestroyed)
    (he : ∀ c, c.Ended → (f c).Ended) (hc : ∀ c, (f c).children ⊆ c.children)
    (hw : ∀ c, (f c).watchers = c.watchers) :
    m.Quiet { m with scopes := m.scopes.modify t.idx f } := by
  have hs := fun v => scope_modify m t v f
  refine ⟨.modifyScope (fun _ => by rw [hb]; exact hbt) (he _) (hc _)
      (fun h => absurd h (by rw [hb, hbt]; decide))
      (fun h => absurd h (by rw [hb, hbt]; decide)),
    fun u hu => ?_, fun u _ => ?_⟩
  · rw [hs] at hu
    split at hu
    · rename_i e
      rw [e.1] at hu ⊢
      rwa [hb] at hu
    · exact hu
  · rw [hs]
    split
    · exact hw _
    · rfl

theorem dropWatcher (m : Machine η) (w : WatcherId) : m.Quiet (m.dropWatcher w) := by
  obtain ⟨-, hs, -, hsubs⟩ := dropWatcher_tables m w
  refine of_dropped (by rw [hs]) (dropWatcher_watchers_size m w)
    (fun u => ⟨(m.scope u).dropped, ?_⟩) (fun w' => ?_) hsubs
  · unfold Machine.scope
    rw [hs]
  · rw [watcher_dropWatcher]
    split
    · exact ⟨true, rfl⟩
    · exact ⟨(m.watcher w').dropped, rfl⟩

theorem collect (m : Machine η) : m.Quiet m.collect := by
  refine collect_inv (fun s => m.Quiet s) (.refl m) (fun s i hs => hs.trans ?_)
    fun s i hs => hs.trans (dropWatcher s ⟨i⟩)
  refine of_dropped (Array.size_modify ..) rfl (fun u => ?_) (fun w => ⟨(s.watcher w).dropped,
    watcher_eq_of_watchers_eq rfl w⟩) fun d => List.Subset.refl _
  have hu := scope_modify s ⟨i⟩ u fun c => { c with dropped := true }
  split at hu
  · exact ⟨true, hu⟩
  · exact ⟨(s.scope u).dropped, hu⟩

theorem unlisting {s : ScopeId} {w : WatcherId} (hs : (m.scope s).beingDestroyed = false)
    (h : Machine.Quiet { m with scopes := m.scopes.modify s.idx fun c => { c with
      watchers := c.watchers.filter (· ≠ w)
      render := if c.render = some w then none else c.render } } m')
    (hw : m'.Stopped w) : m.Quiet m' := by
  set m₁ : Machine η := { m with scopes := m.scopes.modify s.idx fun c => { c with
    watchers := c.watchers.filter (· ≠ w)
    render := if c.render = some w then none else c.render } }
  have hsc := fun v => scope_modify m s v fun c => { c with
    watchers := c.watchers.filter (· ≠ w)
    render := if c.render = some w then none else c.render }
  have hbd : ∀ v, ((m.scope v).beingDestroyed = true) = ((m₁.scope v).beingDestroyed = true) :=
    fun v => by
      rw [hsc]
      split <;> rfl
  have hch : ∀ v, (m.scope v).children = (m₁.scope v).children := fun v => by
    rw [hsc]
    split <;> rfl
  refine ⟨⟨h.size.trans (Array.size_modify ..), h.watchers_size, fun u hu => h.marked u (hbd u ▸ hu),
    fun u hu => h.ended u ?_, fun w' hw' => h.stopped w' hw', fun u => hch u ▸ h.children u,
    fun u b hu hb => h.kept u b hu (hch u ▸ hb), fun u hu => ?_, fun u w' hu hw' => ?_,
    fun w' ha => h.active w' ha, fun w' => h.newDeps w'⟩,
    fun u hu => hbd u ▸ h.unmarked u hu, fun u hu => ?_⟩
  · rw [hsc]
    split
    · rename_i e
      rw [e.1] at hu
      exact absurd hu.1 (by rw [hs]; decide)
    · exact hu
  · refine List.Subset.trans (h.watchers u hu) ?_
    rw [hsc]
    split
    · exact List.filter_subset_self _
    · exact List.Subset.refl _
  · by_cases e : w' = w
    · exact .inr (e ▸ hw)
    · refine h.listed u w' hu ?_
      rw [hsc]
      split
      · exact List.mem_filter.2 ⟨hw', by simpa using e⟩
      · exact hw'
  · have hne' : u ≠ s := fun e => absurd hu (by rw [e, hs]; decide)
    rw [h.held u (hbd u ▸ hu), hsc, if_neg fun e => hne' e.1]

end Quiet

theorem tornDown_scopes (m : Machine η) (w : WatcherId) : (m.tornDown w).scopes = m.scopes :=
  foldl_unsubscribe_of (P := fun m' : Machine η => m'.scopes = m.scopes) (fun _ _ h => h) _ rfl

theorem Quiet.tornDown (hm : m.Subscribed) {w : WatcherId}
    (hidle : (m.watcher w).newDeps = []) : m.Quiet (m.tornDown w) ∧ (m.tornDown w).Stopped w := by
  have hscope : ∀ u, (m.tornDown w).scope u = m.scope u := fun u => by
    unfold Machine.scope
    rw [tornDown_scopes]
  have hsubs : ∀ d, ((m.tornDown w).dep d).subs ⊆ (m.dep d).subs := fun d x hx =>
    ((mem_subs_tornDown m hm.subs_nodup w x d).1 hx).1
  have hwat := watcher_tornDown m w
  have hstop : (m.tornDown w).Stopped w :=
    ⟨by rw [hwat, if_pos rfl], by rw [hwat, if_pos rfl], hm.not_mem_tornDown hidle⟩
  have hsize : (m.tornDown w).watchers.size = m.watchers.size := by
    unfold Machine.tornDown
    rw [Array.size_modify, foldl_unsubscribe_watchers]
  refine ⟨⟨⟨by rw [tornDown_scopes], hsize, fun u h => ?_, fun u h => ?_, fun w' h => ?_, fun u => ?_,
    fun u b _ h => .inl ?_, fun u _ => ?_, fun u w' _ h => .inl ?_, fun w' h => ?_, fun w' => ?_⟩,
    fun u h => ?_, fun u _ => ?_⟩, hstop⟩
  all_goals try rw [hscope]
  all_goals try rw [hscope] at h
  all_goals try first | exact h | exact List.Subset.refl _
  · by_cases e : w' = w
    · subst e
      exact hstop
    · obtain ⟨ha, hd, hn⟩ := h
      exact ⟨by rw [hwat, if_neg e]; exact ha, by rw [hwat, if_neg e]; exact hd,
        fun d hx => hn d (hsubs d hx)⟩
  · by_cases e : w' = w
    · subst e
      exact .inr hstop
    · rw [hwat, if_neg e]
      exact .inl h
  · rw [hwat]
    split <;> rfl

/-- What a destroy took `m` to: beyond what it keeps, each scope it marked is ended, with its
children at the start marked and its watchers active at the start stopped; and a scope that was
being destroyed keeps its watchers. -/
structure Cascade (m m' : Machine η) : Prop extends m.Dismantles m' where
  ended_of_marked : ∀ u, (m.scope u).beingDestroyed = false →
    (m'.scope u).beingDestroyed = true → (m'.scope u).Ended
  children_marked : ∀ a, (m.scope a).beingDestroyed = false → (m'.scope a).beingDestroyed = true →
    ∀ b ∈ (m.scope a).children, (m'.scope b).beingDestroyed = true
  watchers_stopped : ∀ u, (m.scope u).beingDestroyed = false → (m'.scope u).beingDestroyed = true →
    ∀ w ∈ (m.scope u).watchers, (m.watcher w).active = true → m'.Stopped w
  held : ∀ u, (m.scope u).beingDestroyed = true → (m'.scope u).watchers = (m.scope u).watchers

namespace Cascade

theorem refl (m : Machine η) : m.Cascade m :=
  ⟨.refl m, fun _ h h' => absurd h' (by rw [h]; decide),
    fun _ h h' => absurd h' (by rw [h]; decide), fun _ h h' => absurd h' (by rw [h]; decide),
    fun _ _ => rfl⟩

theorem trans (h : m.Cascade m') (h' : m'.Cascade m'') : m.Cascade m'' where
  toDismantles := h.toDismantles.trans h'.toDismantles
  ended_of_marked u hu hu'' := by
    cases hu' : (m'.scope u).beingDestroyed
    · exact h'.ended_of_marked u hu' hu''
    · exact h'.ended u (h.ended_of_marked u hu hu')
  children_marked a ha ha'' b hb := by
    cases ha' : (m'.scope a).beingDestroyed
    · rcases h.kept a b ha' hb with hb | hb
      · exact h'.children_marked a ha' ha'' b hb
      · exact h'.marked b hb
    · exact h'.marked b (h.children_marked a ha ha' b hb)
  watchers_stopped u hu hu'' w hw hact := by
    cases hu' : (m'.scope u).beingDestroyed
    · rcases h.listed u w hu' hw with hw | hw
      · rcases h.active w hact with hact | hact
        · exact h'.watchers_stopped u hu' hu'' w hw hact
        · exact h'.stopped w hact
      · exact h'.stopped w hw
    · exact h'.stopped w (h.watchers_stopped u hu hu' w hw hact)
  held u hu := (h'.held u (h.marked u hu)).trans (h.held u hu)

end Cascade

theorem Dismantles.unmarked_lt (h : m.Dismantles m') {t : ScopeId} (ht : t.idx < m.scopes.size)
    (hb : (m.scope t).beingDestroyed = false) (hb' : (m'.scope t).beingDestroyed = true) :
    m'.unmarked < m.unmarked := by
  unfold unmarked
  rw [h.size]
  refine countP_range_lt (fun i _ hi => ?_) ht ?_ ?_
  · simp only [Bool.not_eq_eq_eq_not, Bool.not_true] at hi ⊢
    exact h.unmarked_of hi
  · rw [hb']
    rfl
  · rw [hb]
    rfl

theorem Dismantles.childrenInRange (h : m.Dismantles m') (hc : m.ChildrenInRange) :
    m'.ChildrenInRange :=
  fun t c hc' => h.size ▸ hc t c (h.children t hc')

theorem Dismantles.ends (h : m.Dismantles m') {t c u : ScopeId}
    (hb : (m.scope t).beingDestroyed = false) (hc : c ∈ (m.scope t).children) (hu : m'.Ends c u) :
    m.Ends t u :=
  ⟨.head ⟨hb, hc⟩ (Relation.ReflTransGen.mono
    (fun a _ hab => ⟨h.unmarked_of hab.1, h.children a hab.2⟩) c u hu.1), h.unmarked_of hu.2⟩

/-- `s` is `m` with `t` marked, taken off the list of its parent if that parent is not being
destroyed, and with no children of its own: the state a destroy of `t` goes down to the children
it had from. -/
structure Marking (m : Machine η) (t : ScopeId) (s : Machine η) : Prop where
  dismantles : m.Dismantles s
  marked : (s.scope t).beingDestroyed = true
  others : ∀ u, u ≠ t → (s.scope u).beingDestroyed = (m.scope u).beingDestroyed
  watchers : ∀ u, (s.scope u).watchers = (m.scope u).watchers
  children : ∀ u b, u ≠ t → b ∈ (m.scope u).children → b ∈ (s.scope u).children ∨ b = t
  tables : s.watchers = m.watchers ∧ s.deps = m.deps

namespace Marking

variable {t : ScopeId}

theorem mark (ht : t.idx < m.scopes.size) (hb : (m.scope t).beingDestroyed = false) :
    m.Marking t { m with scopes := m.scopes.modify t.idx fun c => { c with beingDestroyed := true } } := by
  have hs := fun v => scope_modify m t v fun c => { c with beingDestroyed := true }
  refine ⟨.modifyScope (fun _ => rfl) (fun h => absurd h.1 (by rw [hb]; decide))
      (List.Subset.refl _) (fun h => by cases h) (fun h => by cases h),
    by rw [hs, if_pos ⟨rfl, ht⟩], fun u hne => by rw [hs, if_neg fun e => hne e.1],
    fun u => ?_, fun u b hne hb' => .inl ?_, rfl, rfl⟩
  all_goals rw [hs]
  all_goals split
  all_goals first | rfl | exact hb'

theorem unlist (h : m.Marking t s) {p : ScopeId} (hp : (s.scope p).beingDestroyed = false) :
    m.Marking t { s with scopes := s.scopes.modify p.idx fun c =>
      { c with children := c.children.filter (· ≠ t) } } := by
  have hs := fun v => scope_modify s p v fun c => { c with children := c.children.filter (· ≠ t) }
  have hpt : p ≠ t := fun e => absurd h.marked (by rw [← e, hp]; decide)
  have hbd : ∀ v, (({ s with scopes := s.scopes.modify p.idx fun c =>
      { c with children := c.children.filter (· ≠ t) } } : Machine η).scope v).beingDestroyed =
      (s.scope v).beingDestroyed := fun v => by
    rw [hs]
    split <;> rfl
  refine ⟨h.dismantles.trans (.modifyScope (fun h => h) (fun h => h) (List.filter_subset_self _)
      (fun _ b hb => ?_) fun _ => rfl), by rw [hbd]; exact h.marked,
    fun u hne => by rw [hbd]; exact h.others u hne, fun u => ?_, fun u b hne hb => ?_, h.tables⟩
  · by_cases e : b = t
    · exact .inr ⟨e ▸ h.marked, e ▸ hpt.symm⟩
    · exact .inl (List.mem_filter.2 ⟨hb, by simpa using e⟩)
  · rw [hs]
    split
    · exact h.watchers u
    · exact h.watchers u
  · rcases h.children u b hne hb with hb | hb
    · rw [hs]
      split
      · by_cases e : b = t
        · exact .inr e
        · exact .inl (List.mem_filter.2 ⟨hb, by simpa using e⟩)
      · exact .inl hb
    · exact .inr hb

theorem orphan (h : m.Marking t s) :
    m.Marking t { s with scopes := s.scopes.modify t.idx fun c => { c with children := [] } } := by
  have hs := fun v => scope_modify s t v fun c => { c with children := [] }
  have hq := Quiet.modifyScope (t := t) h.marked (f := fun c => { c with children := [] })
    (fun _ => rfl) (fun _ h => h) (fun _ => List.nil_subset _) fun _ => rfl
  refine ⟨h.dismantles.trans hq.toDismantles, hq.marked t h.marked, fun u hne => ?_, fun u => ?_,
    fun u b hne hb => ?_, h.tables⟩
  · rw [hs, if_neg fun e => hne e.1]
    exact h.others u hne
  · rw [hs]
    split
    · exact h.watchers u
    · exact h.watchers u
  · rw [hs, if_neg fun e => hne e.1]
    exact h.children u b hne hb

end Marking

theorem Cascade.of_steps {t : ScopeId} {s s₁ : Machine η} (hb : (m.scope t).beingDestroyed = false)
    (h : m.Marking t s) (h₁ : s.Cascade s₁)
    (hcs : ∀ b ∈ (m.scope t).children, (s₁.scope b).beingDestroyed = true)
    (h₂ : Machine.Quiet
      { s₁ with scopes := s₁.scopes.modify t.idx fun c => { c with watchers := [] } } m')
    (hend : (m'.scope t).Ended)
    (hstop : ∀ w ∈ (s₁.scope t).watchers, (s₁.watcher w).active = true → m'.Stopped w) :
    m.Cascade m' := by
  have hs := fun v => scope_modify s₁ t v fun c => { c with watchers := [] }
  have hbt : (s₁.scope t).beingDestroyed = true := h₁.marked t h.marked
  -- taking the watchers off `t`, which is being destroyed, keeps all but its watchers
  have hu : s₁.Dismantles
      { s₁ with scopes := s₁.scopes.modify t.idx fun c => { c with watchers := [] } } :=
    .modifyScope (fun h => h) (fun h => ⟨h.1, h.2.1, rfl, h.2.2.2⟩) (List.Subset.refl _)
      (fun e => absurd e (by rw [hbt]; decide)) (fun e => absurd e (by rw [hbt]; decide))
  have hd : s₁.Dismantles m' := hu.trans h₂.toDismantles
  have hnew : ∀ u, (m'.scope u).beingDestroyed = true → (s₁.scope u).beingDestroyed = true :=
    fun u h' => by
      have := h₂.unmarked u h'
      rw [hs] at this
      split at this <;> exact this
  have hact : ∀ w, (m.watcher w).active = true → (s₁.watcher w).active = true ∨ s₁.Stopped w :=
    fun w ha => by
      rcases h.dismantles.active w ha with ha | ha
      · exact h₁.active w ha
      · exact .inr (h₁.stopped w ha)
  refine ⟨(h.dismantles.trans h₁.toDismantles).trans hd, fun u hu' hu'' => ?_,
    fun a ha ha'' b hb' => ?_, fun u hu' hu'' w hw ha => ?_, fun u hu' => ?_⟩
  · by_cases e : u = t
    · exact e ▸ hend
    · exact hd.ended u (h₁.ended_of_marked u (by rw [h.others u e]; exact hu') (hnew u hu''))
  · by_cases e : a = t
    · subst e
      exact hd.marked b (hcs b hb')
    · rcases h.children a b e hb' with hb' | rfl
      · exact hd.marked b (h₁.children_marked a (by rw [h.others a e]; exact ha) (hnew a ha'') b hb')
      · exact hend.1
  · rw [← h.watchers u] at hw
    by_cases e : u = t
    · subst e
      rw [← h₁.held u h.marked] at hw
      rcases hact w ha with ha | ha
      · exact hstop w hw ha
      · exact hd.stopped w ha
    · rcases h.dismantles.active w ha with ha | ha
      · exact hd.stopped w (h₁.watchers_stopped u (by rw [h.others u e]; exact hu') (hnew u hu'')
          w hw ha)
      · exact hd.stopped w (h₁.stopped w ha)
  · have e : u ≠ t := fun e => absurd hu' (by rw [e, hb]; decide)
    rw [h₂.held u (by rw [hs, if_neg fun e' => e e'.1]; exact h₁.marked u (h.dismantles.marked u hu')),
      hs, if_neg fun e' => e e'.1, h₁.held u (h.dismantles.marked u hu'), h.watchers u]

theorem Cascade.of_quiet (h : m.Quiet m') : m.Cascade m' :=
  ⟨h.toDismantles, fun _ hu hu' => absurd (h.unmarked _ hu') (by rw [hu]; decide),
    fun _ hu hu' => absurd (h.unmarked _ hu') (by rw [hu]; decide),
    fun _ hu hu' => absurd (h.unmarked _ hu') (by rw [hu]; decide), h.held⟩

theorem parentOf_mark (m : Machine η) (t u : ScopeId) :
    ({ m with scopes := m.scopes.modify t.idx fun c => { c with beingDestroyed := true } } :
      Machine η).parentOf u = m.parentOf u := by
  have hs := fun v => scope_modify m t v fun c => { c with beingDestroyed := true }
  unfold Machine.parentOf Machine.alive
  rw [hs u]
  have hd : ∀ v, (({ m with scopes := m.scopes.modify t.idx fun c =>
      { c with beingDestroyed := true } } : Machine η).scope v).dropped = (m.scope v).dropped :=
    fun v => by
      rw [hs]
      split <;> rfl
  simp only [hd]
  split <;> rfl

end Machine

/-! ## Stopped watchers stay inactive -/

/-- `w` is a watcher of the machine, and inactive: running it does nothing. -/
def Inactive (w : WatcherId) (m : Machine η) : Prop :=
  (m.watcher w).active = false ∧ w.idx < m.watchers.size

namespace Inactive

variable {w : WatcherId}

theorem onTables (w : WatcherId) : OnTables (Inactive w : Machine η → Prop) :=
  fun _ _ hw _ h => by
    unfold Inactive
    rw [Machine.watcher_eq_of_watchers_eq hw, hw]
    exact h

theorem modify_of_watchers {f : Machine η → Machine η} (hf : ∀ m, (f m).watchers = m.watchers) :
    Keeps (Inactive w) (modify f : Eff η Unit) :=
  Keeps.modify fun m hm => by
    unfold Inactive
    rw [Machine.watcher_eq_of_watchers_eq (hf m), hf m]
    exact hm

theorem modifyWatcher {w' : WatcherId} {f : WatcherCell → WatcherCell}
    (hf : ∀ c, c.active = false → (f c).active = false) :
    Keeps (Inactive w) (Eff.modifyWatcher w' f : Eff η Unit) := by
  refine Keeps.modify fun m hm => ⟨?_, by rw [Array.size_modify]; exact hm.2⟩
  by_cases hlt : w'.idx < m.watchers.size
  · rw [Machine.watcher_modify _ _ _ _ (.inl hlt)]
    split
    · rename_i e
      subst e
      exact hf _ hm.1
    · exact hm.1
  · rw [Machine.watcher_modify_of_size_le _ _ _ _ (Nat.le_of_not_lt hlt)]
    exact hm.1

theorem collect {m : Machine η} (h : Inactive w m) : Inactive w m.collect :=
  Machine.collect_inv (Inactive w) h (fun _ _ hs => hs) fun s i hs => by
    refine ⟨?_, by rw [Machine.dropWatcher_watchers_size]; exact hs.2⟩
    rw [Machine.watcher_dropWatcher]
    split
    · exact hs.1
    · exact hs.1

theorem settle : Keeps (Inactive w) (Eff.settle : Eff η Unit) := by
  refine Keeps.modify fun m hm => ?_
  split
  · exact collect hm
  · exact hm

theorem removeSub (d : DepId) (w' : WatcherId) : Keeps (Inactive w) (Eff.removeSub d w' : Eff η Unit) :=
  modify_of_watchers fun _ => rfl

theorem released : Keeps (Inactive w) (Eff.released : Eff η Unit) :=
  Keeps.bind (modify_of_watchers fun _ => rfl) fun _ => settle

/-- No primitive update makes an inactive watcher active: only a new watcher is active. -/
theorem stable (w : WatcherId) : Stable (Inactive w : Machine η → Prop) where
  depend d := by
    refine Keeps.bind Keeps.get fun m => ?_
    split
    · exact Keeps.pure _
    · exact Keeps.ite _ (Keeps.bind (modifyWatcher fun _ h => h) fun _ =>
        Keeps.ite _ (modify_of_watchers fun _ => rfl) (Keeps.pure _)) (Keeps.pure _)
  reconcile w' := Keeps.bind Keeps.get fun _ => Keeps.bind
    (Keeps.forIn_list fun _ _ => Keeps.ite _ (Keeps.bind (removeSub _ _) fun _ => Keeps.pure _)
      (Keeps.pure _)) fun _ => modifyWatcher fun _ h => h
  teardown w' := by
    have hrest : Keeps (Inactive w) (do
        for d in ((← MonadState.get).watcher w').deps do Eff.removeSub d w'
        Eff.modifyWatcher w' fun c => { c with deps := [], active := false } : Eff η Unit) :=
      Keeps.bind Keeps.get fun _ => Keeps.bind (Keeps.forIn_list fun _ _ =>
        Keeps.bind (removeSub _ _) fun _ => Keeps.pure _) fun _ => modifyWatcher fun _ _ => rfl
    refine Keeps.bind Keeps.get fun _ => Keeps.ite _ (Keeps.pure _) ?_
    dsimp only
    split
    · exact Keeps.ite _ (Keeps.bind (Keeps.bind (modify_of_watchers fun _ => rfl) fun _ =>
        released) fun _ => hrest) hrest
    · exact hrest
  build _ _ _ _ _ := by
    refine Keeps.get_set_bind (fun m hm => ⟨?_, by rw [Array.size_push]; exact Nat.lt_succ_of_lt hm.2⟩)
      fun m _ => ?_
    · rw [Machine.watcher_push, if_neg (Nat.ne_of_lt hm.2)]
      exact hm.1
    · dsimp only
      split
      · split
        · exact Keeps.bind (modify_of_watchers fun _ => rfl) fun _ =>
            Keeps.bind (modify_of_watchers fun _ => rfl) fun _ =>
            Keeps.bind (modify_of_watchers fun _ => rfl) fun _ => Keeps.pure _
        · exact Keeps.bind (modify_of_watchers fun _ => rfl) fun _ => Keeps.pure _
      · exact Keeps.pure _
  watcher _ _ hf := modifyWatcher fun c h => by
    have := congrArg (fun x => x.2.2.1) (hf c)
    simp only [WatcherCell.tracking] at this
    rw [this]
    exact h
  object _ _ := modify_of_watchers fun _ => rfl
  list _ _ := modify_of_watchers fun _ => rfl
  newDep := Keeps.get_set_bind (fun _ hm => hm) fun _ _ => Keeps.pure _
  newProp _ := Keeps.get_set_bind (fun _ hm => hm) fun _ _ => Keeps.pure _
  pin _ := modify_of_watchers fun _ => rfl
  release := modify_of_watchers fun _ => rfl
  settle := settle
  unhold := Keeps.bind (modify_of_watchers fun _ => rfl) fun _ => settle
  enter _ := modify_of_watchers fun _ => rfl
  leave := Keeps.bind (modify_of_watchers fun _ => rfl) fun _ => settle
  report _ := modify_of_watchers fun _ => rfl

end Inactive

/-! ## What a destroy leaves -/

namespace Machine

variable {m m' : Machine η}

theorem collect_scope (m : Machine η) (u : ScopeId) :
    ∃ b, m.collect.scope u = { m.scope u with dropped := b } := by
  refine collect_inv (fun s => ∃ b, s.scope u = { m.scope u with dropped := b })
    ⟨(m.scope u).dropped, rfl⟩ (fun s i ⟨b, hs⟩ => ?_) fun s i ⟨b, hs⟩ => ⟨b, ?_⟩
  · have hu := scope_modify s ⟨i⟩ u fun c => { c with dropped := true }
    split at hu
    · exact ⟨true, hu.trans (by rw [hs])⟩
    · exact ⟨b, hu.trans hs⟩
  · rw [← hs]
    unfold Machine.scope
    rw [(dropWatcher_tables s ⟨i⟩).2.1]

theorem lt_size_of_active {w : WatcherId} (h : (m.watcher w).active = true) :
    w.idx < m.watchers.size := by
  by_contra hlt
  unfold Machine.watcher at h
  rw [Array.getElem?_eq_none (Nat.le_of_not_lt hlt)] at h
  exact absurd h (by decide)

/-- What a destroy of `t` leaves, seen from the state `m` it started in: `t` is being destroyed;
every scope it ends is destroyed, with no watchers, no render watcher and no computed values;
each watcher that was active and registered with one of them is stopped; and `t` is off the list
of its parent, unless that parent was being destroyed. -/
structure Destroyed (m : Machine η) (t : ScopeId) (m' : Machine η) : Prop where
  marked : (m'.scope t).beingDestroyed = true
  ended : ∀ u, m.Ends t u → (m'.scope u).Ended
  stopped : ∀ u, m.Ends t u → ∀ w ∈ (m.scope u).watchers, (m.watcher w).active = true →
    m'.Stopped w ∧ Inactive w m'
  unlisted : (m.scope t).beingDestroyed = false → ∀ p, m.parentOf t = some p →
    (m.scope p).beingDestroyed = false → t ∉ (m'.scope p).children

/-- Every scope below `t` through scopes that were not being destroyed is marked, once `t` is:
along the path, each step goes to a child of a scope that was not being destroyed and is
marked. -/
theorem Cascade.marks (h : m.Cascade m') {t u : ScopeId}
    (ht : (m'.scope t).beingDestroyed = true)
    (hu : Relation.ReflTransGen
      (fun a b => (m.scope a).beingDestroyed = false ∧ b ∈ (m.scope a).children) t u) :
    (m'.scope u).beingDestroyed = true := by
  induction hu with
  | refl => exact ht
  | tail _ hab ih => exact h.children_marked _ hab.1 ih _ hab.2

theorem Cascade.destroyed (h : m.Cascade m') {t : ScopeId}
    (ht : (m'.scope t).beingDestroyed = true)
    (hun : (m.scope t).beingDestroyed = false → ∀ p, m.parentOf t = some p →
      (m.scope p).beingDestroyed = false → t ∉ (m'.scope p).children) :
    m.Destroyed t m' where
  marked := ht
  ended u hu := h.ended_of_marked u hu.2 (h.marks ht hu.1)
  stopped u hu w hw ha := by
    have hs := h.watchers_stopped u hu.2 (h.marks ht hu.1) w hw ha
    exact ⟨hs, hs.1, by rw [h.watchers_size]; exact lt_size_of_active ha⟩
  unlisted := hun

end Machine

end Reactivity

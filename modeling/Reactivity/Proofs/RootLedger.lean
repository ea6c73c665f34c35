import Reactivity.Proofs.RootData

/-!
# The ledger of claims on root counts

A `RootLedger` records the claims on root counts: the scopes whose creation counted, and the
objects observed as root data directly, once per observation. The claims on an object that
still stand are its direct observations and the recorded scopes that are not destroyed and
have it as data (`RootLedger.claims`); `RootLedger.Holds` says that every object's root count
is that number.

Destroying a scope ends it and every scope below it that is not already being destroyed, each
taking one from the root count of its data. `destroy_holds` shows that this keeps the ledger
whenever every scope it may end while its data is observed holds a claim (`Permits`): the
recursion over children is carried by `Razing`, what a destroy under way keeps, and its depth
by the number of scopes not yet being destroyed.
-/

namespace Reactivity

variable {η : Type}

/-- The claims on root counts: the scopes whose creation counted, and the objects observed as
root data directly, once per observation. -/
structure RootLedger where
  scopes : List ScopeId := []
  direct : List ObjRef := []

/-- The operations on data that root counts follow: making and destroying scopes, observing,
switching observation, and writing and removing keys. -/
inductive DataOp where
  | scope (name : String) (parent : Option ScopeId) (props : List (String × Value)) (data : Value)
  | destroy (s : ScopeId)
  | observe (v : Value) (asRoot : Bool)
  | observing (on : Bool)
  | set (target : Value) (key : Key) (v : Value)
  | remove (target : Value) (key : Key)

/-- Runs a data operation, discarding its result. -/
def DataOp.exec (r : Runner η) : DataOp → Eff η Unit
  | .scope name parent props data => do let _ ← Eff.newScope name parent props data; pure ()
  | .destroy s => Eff.destroy s
  | .observe v asRoot => do let _ ← Eff.observe v asRoot; pure ()
  | .observing on => modify fun m => { m with observing := on }
  | .set target key v => do let _ ← Eff.set r target key v; pure ()
  | .remove target key => Eff.remove r target key

namespace Machine

variable {m m' m'' : Machine η}

theorem object_eq_modify {o : ObjRef} {f : ObjectCell → ObjectCell}
    (h : m'.objects = m.objects.modify o.idx f) (hlt : o.idx < m.objects.size) :
    m'.object o = f (m.object o) := by
  unfold Machine.object
  rw [h, getD_modify, if_pos ⟨rfl, hlt⟩]

/-! ## The scopes below a scope -/

/-- `t` is `s` or lies below it, reached through lists of children. -/
def Below (m : Machine η) (s t : ScopeId) : Prop :=
  Relation.ReflTransGen (fun a b => b ∈ (m.scope a).children) s t

/-- Every listed child is a scope of the machine. -/
def ChildrenInRange (m : Machine η) : Prop :=
  ∀ t c, c ∈ (m.scope t).children → c.idx < m.scopes.size

theorem Below.lt {s t : ScopeId} (hch : m.ChildrenInRange) (hs : s.idx < m.scopes.size)
    (h : m.Below s t) : t.idx < m.scopes.size := by
  induction h with
  | refl => exact hs
  | tail _ hc _ => exact hch _ _ hc

/-- The scopes not being destroyed: a destroy marks one before it goes down to its children,
so their number bounds its depth. -/
def unmarked (m : Machine η) : Nat :=
  (List.range m.scopes.size).countP fun i => !(m.scope ⟨i⟩).beingDestroyed

/-! ## What a destroy under way keeps -/

/-- What a destroy does from the state `m` it started in: the scopes keep their data, the
objects whether they are observed, and a scope being destroyed stays so, and destroyed only if
it was; a scope not being destroyed lists no new child. -/
structure Razes (m m' : Machine η) : Prop where
  size : m'.scopes.size = m.scopes.size
  data : ∀ t, (m'.scope t).data = (m.scope t).data
  observed : ∀ o, (m'.object o).observer.isSome = (m.object o).observer.isSome
  marked : ∀ t, (m.scope t).beingDestroyed = true → (m'.scope t).beingDestroyed = true
  kept : ∀ t, (m.scope t).beingDestroyed = true → (m'.scope t).destroyed = (m.scope t).destroyed
  children : ∀ t, (m'.scope t).beingDestroyed = false →
    (m'.scope t).children ⊆ (m.scope t).children

theorem Razes.refl (m : Machine η) : m.Razes m :=
  ⟨rfl, fun _ => rfl, fun _ => rfl, fun _ h => h, fun _ _ => rfl, fun _ _ => List.Subset.refl _⟩

theorem Razes.unmarked_of (h : m.Razes m') {t : ScopeId} (ht : (m'.scope t).beingDestroyed = false) :
    (m.scope t).beingDestroyed = false := by
  cases hb : (m.scope t).beingDestroyed
  · rfl
  · rw [h.marked t hb] at ht
    cases ht

theorem Razes.trans (h : m.Razes m') (h' : m'.Razes m'') : m.Razes m'' where
  size := h'.size.trans h.size
  data t := (h'.data t).trans (h.data t)
  observed o := (h'.observed o).trans (h.observed o)
  marked t ht := h'.marked t (h.marked t ht)
  kept t ht := (h'.kept t (h.marked t ht)).trans (h.kept t ht)
  children t ht := List.Subset.trans (h'.children t ht) (h.children t (h'.unmarked_of ht))

theorem Razes.unmarked_le (h : m.Razes m') : m'.unmarked ≤ m.unmarked := by
  unfold unmarked
  rw [h.size]
  refine List.countP_mono_left fun i _ hi => ?_
  simp only [Bool.not_eq_eq_eq_not, Bool.not_true] at hi ⊢
  exact h.unmarked_of hi

/-- An update of a scope that keeps its data, whether it is destroyed and, once it is being
destroyed, that it is; that lists no new child and no watcher: every update of a scope that
a destroy makes but the last, and what a collection makes. -/
structure ScopeStep (f : ScopeCell → ScopeCell) : Prop where
  data : ∀ c, (f c).data = c.data
  destroyed : ∀ c, (f c).destroyed = c.destroyed
  marked : ∀ c, c.beingDestroyed = true → (f c).beingDestroyed = true
  children : ∀ c, (f c).children ⊆ c.children
  watchers : ∀ c, c.watchers = [] → (f c).watchers = []

namespace ScopeStep

theorem mark : ScopeStep fun c => { c with beingDestroyed := true } :=
  ⟨fun _ => rfl, fun _ => rfl, fun _ _ => rfl, fun _ => List.Subset.refl _, fun _ h => h⟩

theorem unlist (t : ScopeId) : ScopeStep fun c => { c with children := c.children.filter (· ≠ t) } :=
  ⟨fun _ => rfl, fun _ => rfl, fun _ h => h, fun _ => List.filter_sublist.subset, fun _ h => h⟩

theorem orphan : ScopeStep fun c => { c with children := [] } :=
  ⟨fun _ => rfl, fun _ => rfl, fun _ h => h, fun _ => List.nil_subset _, fun _ h => h⟩

theorem unwatch : ScopeStep fun c => { c with watchers := [] } :=
  ⟨fun _ => rfl, fun _ => rfl, fun _ h => h, fun _ => List.Subset.refl _, fun _ _ => rfl⟩

theorem unrender : ScopeStep fun c => { c with render := none, computed := [] } :=
  ⟨fun _ => rfl, fun _ => rfl, fun _ h => h, fun _ => List.Subset.refl _, fun _ h => h⟩

theorem drop : ScopeStep fun c => { c with dropped := true } :=
  ⟨fun _ => rfl, fun _ => rfl, fun _ h => h, fun _ => List.Subset.refl _, fun _ h => h⟩

end ScopeStep

theorem razes_modifyScope (m : Machine η) (t : ScopeId) {f : ScopeCell → ScopeCell}
    (hf : ScopeStep f) : m.Razes { m with scopes := m.scopes.modify t.idx f } := by
  have hs := fun u => scope_modify m t u f
  refine ⟨Array.size_modify .., fun u => ?_, fun _ => rfl, fun u hu => ?_, fun u _ => ?_,
    fun u _ => ?_⟩
  · rw [hs]
    split
    · exact hf.data _
    · rfl
  · rw [hs]
    split
    · exact hf.marked _ hu
    · exact hu
  · rw [hs]
    split
    · exact hf.destroyed _
    · rfl
  · rw [hs]
    split
    · exact hf.children _
    · exact List.Subset.refl _

/-! ## Collection -/

theorem foldl_unsubscribe_of {w : WatcherId} {P : Machine η → Prop}
    (hP : ∀ m d, P m → P (m.unsubscribe d w)) (ds : List DepId) {m : Machine η} (hm : P m) :
    P (ds.foldl (fun m d => m.unsubscribe d w) m) := by
  induction ds generalizing m with
  | nil => exact hm
  | cons d ds ih => exact ih (hP m d hm)

theorem dropWatcher_tables (m : Machine η) (w : WatcherId) :
    (m.dropWatcher w).objects = m.objects ∧ (m.dropWatcher w).scopes = m.scopes ∧
      (m.dropWatcher w).props = m.props ∧ ∀ d, ((m.dropWatcher w).dep d).subs ⊆ (m.dep d).subs :=
  foldl_unsubscribe_of (P := fun m' => m'.objects = m.objects ∧ m'.scopes = m.scopes ∧
      m'.props = m.props ∧ ∀ d, (m'.dep d).subs ⊆ (m.dep d).subs)
    (fun m' d h => ⟨h.1, h.2.1, h.2.2.1, fun d' => by
      rw [subs_unsubscribe]
      split
      · exact List.Subset.trans (List.erase_subset) (h.2.2.2 d')
      · exact h.2.2.2 d'⟩) _ ⟨rfl, rfl, rfl, fun _ => List.Subset.refl _⟩

/-! ## The last step of a destroy -/

/-- The last update of a destroy of `t`: the root count of its data loses one, and `t` is
destroyed. -/
def ended (m : Machine η) (t : ScopeId) : Machine η :=
  let m' : Machine η := { m with objects := m.objects.modify (m.scope t).data.idx fun c =>
    { c with observer := c.observer.map fun ob => { ob with rootCount := ob.rootCount - 1 } } }
  { m' with scopes := m'.scopes.modify t.idx fun c => { c with destroyed := true } }

theorem scope_ended (m : Machine η) (t u : ScopeId) :
    (m.ended t).scope u =
      if u = t ∧ t.idx < m.scopes.size then { m.scope u with destroyed := true } else m.scope u :=
  scope_modify _ t u _

theorem size_ended (m : Machine η) (t : ScopeId) : (m.ended t).scopes.size = m.scopes.size :=
  Array.size_modify ..

theorem observer_ended (m : Machine η) (t : ScopeId) (o : ObjRef) :
    ((m.ended t).object o).observer = if (m.scope t).data = o then
      (m.object o).observer.map fun ob => { ob with rootCount := ob.rootCount - 1 }
    else (m.object o).observer := by
  show (({ m with objects := m.objects.modify (m.scope t).data.idx _ } : Machine η).object o).observer = _
  rw [object_modify]
  by_cases e : (m.scope t).data = o
  · subst e
    by_cases hlt : (m.scope t).data.idx < m.objects.size
    · simp [hlt]
    · simp [hlt, object_of_size_le (Nat.le_of_not_lt hlt)]
      rfl
  · simp [e, Ne.symm e]

theorem slots_ended (m : Machine η) (t : ScopeId) (o : ObjRef) :
    ((m.ended t).object o).slots = (m.object o).slots := by
  show (({ m with objects := m.objects.modify (m.scope t).data.idx _ } : Machine η).object o).slots = _
  rw [object_modify]
  split <;> rfl

theorem rootCountOf_ended (m : Machine η) (t : ScopeId) (o : ObjRef) :
    (m.ended t).rootCountOf o =
      if (m.scope t).data = o then m.rootCountOf o - 1 else m.rootCountOf o := by
  unfold rootCountOf
  rw [observer_ended]
  split
  · cases (m.object o).observer <;> rfl
  · rfl

theorem rootCountOf_eq_zero {o : ObjRef} (h : (m.object o).observer.isSome = false) :
    m.rootCountOf o = 0 := by
  unfold rootCountOf
  rw [Option.isSome_eq_false_iff, Option.isNone_iff_eq_none] at h
  rw [h]
  rfl

end Machine

namespace RootLedger

open Machine

variable {L : RootLedger} {m m' : Machine η}

/-! ## Claims -/

/-- The claims on `o` that still stand: its direct observations, and the recorded scopes that
are not destroyed and have it as data. -/
def claims (L : RootLedger) (m : Machine η) (o : ObjRef) : Nat :=
  L.direct.count o + L.scopes.countP fun t => !(m.scope t).destroyed && (m.scope t).data == o

theorem claims_congr
    (h : ∀ t, (m'.scope t).data = (m.scope t).data ∧ (m'.scope t).destroyed = (m.scope t).destroyed)
    (o : ObjRef) : L.claims m' o = L.claims m o := by
  unfold claims
  congr 1
  exact List.countP_congr fun t _ => by rw [(h t).1, (h t).2]

theorem countP_unmark {α : Type} [DecidableEq α] {l : List α} (hnd : l.Nodup) {p q : α → Bool} {a : α}
    (hq : ∀ x, x ≠ a → q x = p x) (ha : q a = false) :
    l.countP q + (if a ∈ l ∧ p a = true then 1 else 0) = l.countP p := by
  induction l with
  | nil => simp
  | cons x l ih =>
    obtain ⟨hx, hnd⟩ := List.nodup_cons.1 hnd
    by_cases e : x = a
    · subst e
      have hrest : l.countP q = l.countP p :=
        List.countP_congr fun y hy => by rw [hq y fun e => hx (e ▸ hy)]
      simp only [List.countP_cons, hrest, ha]
      cases p x <;> simp
    · have hin : (a ∈ x :: l ∧ p a = true) ↔ (a ∈ l ∧ p a = true) := by
        simp [List.mem_cons, Ne.symm e]
      rw [List.countP_cons, List.countP_cons, hq x e, if_congr hin rfl rfl, ← ih hnd]
      omega

/-- The claims tally with the root counts, and only a scope being destroyed is destroyed: what
holds between the steps of a destroy, and between operations. -/
structure Tally (L : RootLedger) (m : Machine η) : Prop where
  count : ∀ o, m.rootCountOf o = L.claims m o
  marked : ∀ t, (m.scope t).destroyed = true → (m.scope t).beingDestroyed = true
  children : m.ChildrenInRange
  unwatched : m.Unwatched
  slots : m.SlotsInRange

theorem Tally.modifyScope (h : L.Tally m) (t : ScopeId) {f : ScopeCell → ScopeCell}
    (hf : ScopeStep f) : L.Tally { m with scopes := m.scopes.modify t.idx f } := by
  have hs := fun u => scope_modify m t u f
  have hsame : ∀ u, (({ m with scopes := m.scopes.modify t.idx f } : Machine η).scope u).data =
      (m.scope u).data ∧
      (({ m with scopes := m.scopes.modify t.idx f } : Machine η).scope u).destroyed =
      (m.scope u).destroyed := fun u => by
    rw [hs]
    split
    · exact ⟨hf.data _, hf.destroyed _⟩
    · exact ⟨rfl, rfl⟩
  refine ⟨fun o => (h.count o).trans (claims_congr hsame o).symm, fun u hu => ?_,
    fun u c hc => ?_, ⟨h.unwatched.subs, fun u => ?_, h.unwatched.hooks⟩, h.slots⟩
  · rw [hs] at hu ⊢
    split
    · rename_i e
      rw [if_pos e, hf.destroyed] at hu
      exact hf.marked _ (h.marked u hu)
    · rename_i e
      rw [if_neg e] at hu
      exact h.marked u hu
  · rw [hs] at hc
    rw [Array.size_modify]
    split at hc
    · exact h.children u c (hf.children _ hc)
    · exact h.children u c hc
  · rw [hs]
    split
    · exact hf.watchers _ (h.unwatched.watchers u)
    · exact h.unwatched.watchers u

theorem Tally.of_tables (h : L.Tally m) (ho : m'.objects = m.objects) (hs : m'.scopes = m.scopes)
    (hp : m'.props = m.props) (hd : ∀ d, (m'.dep d).subs ⊆ (m.dep d).subs) : L.Tally m' := by
  have hscope : ∀ t, m'.scope t = m.scope t := fun t => by unfold Machine.scope; rw [hs]
  have hobj : ∀ o, m'.object o = m.object o := fun o => by unfold Machine.object; rw [ho]
  refine ⟨fun o => ?_, fun t ht => ?_, fun t c hc => ?_, ⟨fun d => ?_, fun t => ?_, fun q c => ?_⟩,
    fun o key q hq => ?_⟩
  · have hc : m'.rootCountOf o = m.rootCountOf o := by
      unfold rootCountOf
      rw [hobj]
    have hcl : L.claims m' o = L.claims m o :=
      claims_congr (fun t => by rw [hscope]; exact ⟨rfl, rfl⟩) o
    rw [hc, hcl]
    exact h.count o
  · rw [hscope] at ht ⊢
    exact h.marked t ht
  · rw [hscope] at hc
    rw [hs]
    exact h.children t c hc
  · exact List.eq_nil_of_subset_nil (h.unwatched.subs d ▸ hd d)
  · rw [hscope]
    exact h.unwatched.watchers t
  · unfold Machine.prop
    rw [hp]
    exact h.unwatched.hooks q c
  · rw [hobj] at hq
    unfold Machine.props at *
    rw [hp]
    exact h.slots o key q hq

theorem Tally.collect (h : L.Tally m) : L.Tally m.collect ∧ m.collect.scopes.size = m.scopes.size :=
  collect_inv (fun s => L.Tally s ∧ s.scopes.size = m.scopes.size) ⟨h, rfl⟩
    (fun s i hs => ⟨hs.1.modifyScope ⟨i⟩ .drop, (Array.size_modify ..).trans hs.2⟩)
    fun s i hs =>
      have ht := dropWatcher_tables s ⟨i⟩
      ⟨hs.1.of_tables ht.1 ht.2.1 ht.2.2.1 ht.2.2.2, by rw [ht.2.1]; exact hs.2⟩

/-! ## A destroy under way -/

/-- A destroy of `t` under way, started in `m`: the claims still tally, `t` is being destroyed
but not yet destroyed, and fewer scopes are left unmarked than when it started. -/
structure Razing (L : RootLedger) (m : Machine η) (t : ScopeId) (s : Machine η) : Prop where
  tally : L.Tally s
  razes : m.Razes s
  marked : (s.scope t).beingDestroyed = true
  live : (s.scope t).destroyed = false
  fewer : s.unmarked < m.unmarked

variable {t : ScopeId} {s s' : Machine η}

theorem Razing.of_razes (h : L.Razing m t s) (ht : L.Tally s') (hr : s.Razes s') :
    L.Razing m t s' :=
  ⟨ht, h.razes.trans hr, hr.marked t h.marked, (hr.kept t h.marked).trans h.live,
    Nat.lt_of_le_of_lt hr.unmarked_le h.fewer⟩

theorem Razing.modifyScope (h : L.Razing m t s) (u : ScopeId) {f : ScopeCell → ScopeCell}
    (hf : ScopeStep f) : L.Razing m t { s with scopes := s.scopes.modify u.idx f } :=
  h.of_razes (h.tally.modifyScope u hf) (razes_modifyScope s u hf)

theorem Razing.mark (h : L.Tally m) (ht : t.idx < m.scopes.size)
    (hb : (m.scope t).beingDestroyed = false) :
    L.Razing m t { m with scopes := m.scopes.modify t.idx fun c => { c with beingDestroyed := true } } := by
  have hf := ScopeStep.mark
  have hself := scope_modify m t t fun c => { c with beingDestroyed := true }
  rw [if_pos ⟨rfl, ht⟩] at hself
  refine ⟨h.modifyScope t hf, razes_modifyScope m t hf, by rw [hself], ?_, ?_⟩
  · rw [hself]
    cases hd : (m.scope t).destroyed
    · rfl
    · rw [h.marked t hd] at hb
      cases hb
  · unfold unmarked
    rw [Array.size_modify]
    refine countP_range_lt (fun i _ hi => ?_) ht ?_ ?_
    · simp only [Bool.not_eq_eq_eq_not, Bool.not_true] at hi ⊢
      exact (razes_modifyScope m t hf).unmarked_of hi
    · show (!(({ m with scopes := _ } : Machine η).scope t).beingDestroyed) = false
      rw [hself]
      rfl
    · rw [hb]
      rfl

theorem Razing.ended (h : L.Razing m t s) (hnd : L.scopes.Nodup) (hin : t.idx < s.scopes.size)
    (hb : (m.scope t).beingDestroyed = false)
    (hclaim : t ∈ L.scopes ∨ (s.object (s.scope t).data).observer.isSome = false) :
    L.Tally (s.ended t) ∧ m.Razes (s.ended t) := by
  have hsc := scope_ended s t
  have hother : ∀ u, u ≠ t → (s.ended t).scope u = s.scope u := fun u hu => by
    rw [hsc, if_neg fun e => hu e.1]
  have hself : (s.ended t).scope t = { s.scope t with destroyed := true } := by
    rw [hsc, if_pos ⟨rfl, hin⟩]
  -- the claims lose the one of `t`, if `t` holds one and has `o` as data
  have hclaims : ∀ o, L.claims s o = L.claims (s.ended t) o +
      if t ∈ L.scopes ∧ ((s.scope t).data == o) = true then 1 else 0 := by
    intro o
    unfold claims
    have := countP_unmark hnd (a := t)
      (p := fun u => !(s.scope u).destroyed && (s.scope u).data == o)
      (q := fun u => !((s.ended t).scope u).destroyed && ((s.ended t).scope u).data == o)
      (fun u hu => by rw [hother u hu]) (by rw [hself]; rfl)
    simp only [h.live, Bool.not_false, Bool.true_and] at this
    omega
  have hbd : ∀ u, ((s.ended t).scope u).beingDestroyed = (s.scope u).beingDestroyed := fun u => by
    rw [hsc]
    split <;> rfl
  refine ⟨⟨fun o => ?_, fun u hu => ?_, fun u c hc => ?_, ⟨h.tally.unwatched.subs, fun u => ?_,
    h.tally.unwatched.hooks⟩, fun o key p hp => h.tally.slots o key p ?_⟩, ?_⟩
  · have hc := hclaims o
    rw [rootCountOf_ended, h.tally.count o] at *
    by_cases e : (s.scope t).data = o
    · rw [if_pos e]
      by_cases ht : t ∈ L.scopes
      · rw [if_pos ⟨ht, by simp [e]⟩] at hc
        omega
      · have hz : s.rootCountOf o = 0 := by
          subst e
          exact rootCountOf_eq_zero (hclaim.resolve_left ht)
        rw [if_neg fun e => ht e.1] at hc
        rw [h.tally.count] at hz
        omega
    · rw [if_neg e]
      rw [if_neg fun e' => e (by simpa using e'.2)] at hc
      omega
  · by_cases e : u = t
    · subst e
      rw [hbd]
      exact h.marked
    · rw [hother u e] at hu ⊢
      exact h.tally.marked u hu
  · have : ((s.ended t).scope u).children = (s.scope u).children := by
      rw [hsc]
      split <;> rfl
    rw [this] at hc
    rw [size_ended]
    exact h.tally.children u c hc
  · have : ((s.ended t).scope u).watchers = (s.scope u).watchers := by
      rw [hsc]
      split <;> rfl
    rw [this]
    exact h.tally.unwatched.watchers u
  · rwa [slots_ended] at hp
  · have hch : ∀ u, ((s.ended t).scope u).children = (s.scope u).children := fun u => by
      rw [hsc]
      split <;> rfl
    refine ⟨(size_ended s t).trans h.razes.size, fun u => ?_, fun o => ?_,
      fun u hu => by rw [hbd]; exact h.razes.marked u hu, fun u hu => ?_, fun u hu => ?_⟩
    · have : ((s.ended t).scope u).data = (s.scope u).data := by
        rw [hsc]
        split <;> rfl
      rw [this]
      exact h.razes.data u
    · rw [observer_ended]
      split
      · cases hob : (s.object o).observer
        · rw [← h.razes.observed o, hob]
          rfl
        · rw [← h.razes.observed o, hob]
          rfl
      · exact h.razes.observed o
    · have e : u ≠ t := fun e => by rw [e, hb] at hu; cases hu
      rw [hother u e]
      exact h.razes.kept u hu
    · rw [hbd] at hu
      rw [hch]
      exact h.razes.children u hu

/-! ## Destroying -/

section Destroy

open Eff

variable {m₀ : Machine η} {s₀ : ScopeId}

/-- A destroy of `s` takes away only claims that stand: every scope below `s` that is not
destroyed and whose data is observed holds a claim. -/
def Permits (L : RootLedger) (m : Machine η) (s : ScopeId) : Prop :=
  s.idx < m.scopes.size ∧ ∀ t, m.Below s t → (m.scope t).destroyed = false →
    (m.object (m.scope t).data).observer.isSome = true → t ∈ L.scopes

/-- A scope that a destroy of `s` reaches while it is not being destroyed holds a claim, or its
data is not observed. -/
theorem Permits.claim (hp : L.Permits m₀ s₀) (h₀ : L.Tally m₀) {t : ScopeId} (hbelow : m₀.Below s₀ t)
    {m s : Machine η} (hr : m₀.Razes m) (hb : (m.scope t).beingDestroyed = false) (hr' : m.Razes s) :
    t ∈ L.scopes ∨ (s.object (s.scope t).data).observer.isSome = false := by
  have hlive : (m₀.scope t).destroyed = false := by
    cases hd : (m₀.scope t).destroyed
    · rfl
    · rw [hr.marked t (h₀.marked t hd)] at hb
      cases hb
  cases ho : (s.object (s.scope t).data).observer.isSome
  · exact .inr rfl
  · refine .inl (hp.2 t hbelow hlive ?_)
    rw [← (hr.trans hr').observed, ← (hr.trans hr').data]
    exact ho

/-- A destroy of `t`, below `s₀`, from a state that tallies and that a destroy of `s₀` has
reached, ends with the claims tallying; enough fuel is one more than the scopes not being
destroyed. The induction is on the fuel: each child is destroyed with one less, after `t` is
marked. -/
theorem destroyWith_tally (hnd : L.scopes.Nodup) (h₀ : L.Tally m₀) (hp : L.Permits m₀ s₀) :
    ∀ fuel t m, m₀.Below s₀ t → L.Tally m → m₀.Razes m → m.unmarked < fuel →
      Sure (· = m) (destroyWith fuel t) fun r m' => ∃ u, r = .ok u ∧ L.Tally m' ∧ m.Razes m' := by
  intro fuel
  induction fuel with
  | zero => intro t m _ _ _ h; exact absurd h (Nat.not_lt_zero _)
  | succ fuel ih =>
    intro t m₁ hbelow h₁ hr₁ hfuel
    have hin : t.idx < m₁.scopes.size := hr₁.size ▸ hbelow.lt h₀.children hp.1
    unfold Eff.destroyWith
    refine Sure.bind_get fun m e => ?_
    rw [e]
    refine Sure.ite _ (fun _ => Sure.pure_at () ⟨(), rfl, h₁, .refl _⟩) fun hb => ?_
    have hb : (m₁.scope t).beingDestroyed = false := by simpa using hb
    -- from the mark on, a destroy of `t` is under way and `t` lists no new child
    let Body := fun s : Machine η => L.Razing m₁ t s ∧ (s.scope t).children ⊆ (m₁.scope t).children
    refine Sure.modify_bind (Sure.conseq (P := Body) ?_ (fun _ e => by
      rw [e]
      refine ⟨Razing.mark h₁ hin hb, ?_⟩
      rw [scope_modify, if_pos ⟨rfl, hin⟩]
      exact List.Subset.refl _) fun _ _ h => h)
    refine Sure.bind_get fun m₂ hm₂ => ?_
    extract_lets rest
    have hrest : ∀ u, Sure Body (rest u) fun r m' => ∃ u, r = .ok u ∧ L.Tally m' ∧ m₁.Razes m' := by
      intro u
      dsimp -zeta only [rest]
      refine Sure.bind_get fun m₃ hm₃ => ?_
      have hcs : ∀ c ∈ (m₃.scope t).children, m₀.Below s₀ c := fun c hc =>
        hbelow.tail (hr₁.children t hb (hm₃.2 hc))
      refine Sure.modify_bind (Sure.bind_ok (Sure.conseq (P := L.Razing m₁ t)
        (Sure.forIn_list (fun _ _ => L.Razing m₁ t) fun pre c post _ hxs => ?_)
        (fun _ e => by
          rw [e]
          exact hm₃.1.modifyScope t .orphan) fun _ _ h => h) fun _ => ?_)
      · -- one child, destroyed with one less fuel
        refine Sure.intro fun s hs => Sure.bind_ok (ih c s (hcs c (by rw [hxs]; simp)) hs.tally
          (hr₁.trans hs.razes) (by have := hs.fewer; omega)) fun _ => ?_
        exact Sure.intro fun s' hs' => Sure.pure_at _ ⟨_, rfl, hs.of_razes hs'.1 hs'.2⟩
      · refine Sure.bind_get fun s hs => Sure.modify_bind (Sure.bind_ok
          (Sure.forIn_nil (hs.tally.unwatched.watchers t)) fun _ => Sure.intro fun s₁ e₁ => ?_)
        refine Sure.modify_bind (Sure.bind_get fun s₂ e₂ => ?_)
        have hs₂ : L.Razing m₁ t s₂ := by
          rw [e₂, e₁]
          exact (hs.modifyScope t .unwatch).modifyScope t .unrender
        refine Sure.modify_bind (Sure.modify _ fun _ e₃ => ?_)
        rw [e₃]
        exact ⟨(), rfl, hs₂.ended hnd (hs₂.razes.size ▸ hin) hb
          (hp.claim h₀ hbelow hr₁ hb hs₂.razes)⟩
    split
    · refine Sure.bind_get fun _ e => ?_
      rw [e]
      refine Sure.ite _ (fun _ => Sure.modify_bind (Sure.conseq (hrest ()) (fun _ e => e ▸ ?_)
        fun _ _ h => h)) fun _ => Sure.conseq (hrest ()) (fun _ e => e ▸ hm₂) fun _ _ h => h
      refine ⟨hm₂.1.modifyScope _ (.unlist t), ?_⟩
      rw [scope_modify]
      split
      · exact List.Subset.trans List.filter_sublist.subset hm₂.2
      · exact hm₂.2
    · exact Sure.conseq (hrest ()) (fun _ e => e ▸ hm₂) fun _ _ h => h

theorem released_tally (n : Nat) :
    Stays (fun m => L.Tally m ∧ m.scopes.size = n) (released : Eff η Unit) := by
  refine Stays.bind (Stays.modify fun _ hm =>
    ⟨hm.1.of_tables rfl rfl rfl fun _ => List.Subset.refl _, hm.2⟩) fun _ =>
    Stays.modify fun m hm => ?_
  split
  · have hc := hm.1.collect
    exact ⟨hc.1.of_tables rfl rfl rfl fun _ => List.Subset.refl _, hc.2.trans hm.2⟩
  · exact hm

theorem destroy_tally {s : ScopeId} (hnd : L.scopes.Nodup) (h₀ : L.Tally m₀) (hp : L.Permits m₀ s) :
    Sure (· = m₀) (destroy s) fun r m' =>
      ∃ u, r = .ok u ∧ L.Tally m' ∧ m'.scopes.size = m₀.scopes.size := by
  unfold Eff.destroy
  refine Sure.bind_get fun _ e => ?_
  rw [e]
  have hle : m₀.unmarked ≤ m₀.scopes.size :=
    (List.countP_le_length).trans (List.length_range ..).le
  refine Sure.bind_ok (destroyWith_tally hnd h₀ hp _ s m₀ .refl h₀ (.refl _) (by omega))
    fun _ => Sure.conseq (released_tally m₀.scopes.size) (fun _ h => ⟨h.1, h.2.size⟩)
      fun _ _ h => h

end Destroy

/-! ## The ledger over a run -/

/-- The ledger holds of a state: the claims tally with the root counts, and the recorded scopes
are scopes of the state, each recorded once. -/
structure Holds (L : RootLedger) (m : Machine η) : Prop extends L.Tally m where
  nodup : L.scopes.Nodup
  recorded : ∀ t ∈ L.scopes, t.idx < m.scopes.size

theorem Holds.of_rootsKept (h : L.Holds m) (hk : m.RootsKept m') : L.Holds m' := by
  have hscope : ∀ t, m'.scope t = m.scope t := fun t => by unfold Machine.scope; rw [hk.scopes]
  have hcl : ∀ o, L.claims m' o = L.claims m o :=
    claims_congr fun t => by rw [hscope]; exact ⟨rfl, rfl⟩
  refine ⟨⟨fun o => ?_, fun t ht => ?_, fun t c hc => ?_, hk.unwatched, hk.slots⟩, h.nodup,
    fun t ht => hk.scopes ▸ h.recorded t ht⟩
  · rw [hk.rootCount, hcl]
    exact h.count o
  · rw [hscope] at ht ⊢
    exact h.marked t ht
  · rw [hscope] at hc
    rw [hk.scopes]
    exact h.children t c hc

theorem Holds.scope (h : L.Holds m) {D : ObjRef} (hmade : m.ScopeMade m' D) :
    (if (m'.object (m'.scope ⟨m.scopes.size⟩).data).observer.isSome then
      { L with scopes := L.scopes ++ [⟨m.scopes.size⟩] } else L).Holds m' := by
  have hcl : ∀ o, L.claims m' o = L.claims m o := fun o => by
    unfold claims
    congr 1
    refine List.countP_congr fun t ht => ?_
    have ho := hmade.others t (h.recorded t ht)
    rw [ho.1, ho.2.1]
  have hsize := hmade.size
  -- what does not depend on whether the new scope is recorded
  have hrest : (∀ t, (m'.scope t).destroyed = true → (m'.scope t).beingDestroyed = true) ∧
      m'.ChildrenInRange := by
    refine ⟨fun t ht => ?_, fun t c hc => ?_⟩
    · rcases Nat.lt_trichotomy t.idx m.scopes.size with hlt | heq | hgt
      · have ho := hmade.others t hlt
        rw [ho.2.1] at ht
        rw [ho.2.2]
        exact h.marked t ht
      · have e : t = ⟨m.scopes.size⟩ := by cases t; simp_all
        rw [e, hmade.live.1] at ht
        cases ht
      · rw [scope_of_size_le (by omega)] at ht
        cases ht
    · rw [hsize]
      rcases hmade.children t c hc with hc | hc
      · have := h.children t c hc
        omega
      · rw [hc]
        exact Nat.lt_succ_self _
  rw [hmade.data]
  split
  · rename_i hobs
    refine ⟨⟨fun o => ?_, hrest.1, hrest.2, hmade.unwatched, hmade.slots⟩, ?_, fun t ht => ?_⟩
    · rw [hmade.rootCount, h.count o]
      have hcl' := hcl o
      unfold claims at hcl' ⊢
      rw [List.countP_append, List.countP_singleton, hmade.live.1, hmade.data]
      by_cases e : D = o
      · subst e
        simp only [hobs, and_self, if_true, Bool.not_false, beq_self_eq_true, Bool.and_self]
        omega
      · have : (D == o) = false := by simpa using e
        simp only [e, false_and, this, Bool.and_false, Bool.false_eq_true, if_false]
        omega
    · refine List.nodup_append.2 ⟨h.nodup, List.nodup_singleton _, fun a ha b hb => ?_⟩
      rw [List.mem_singleton] at hb
      intro e
      have := h.recorded a ha
      rw [e, hb] at this
      exact Nat.lt_irrefl _ this
    · rcases List.mem_append.1 ht with ht | ht
      · have := h.recorded t ht
        omega
      · rw [List.mem_singleton.1 ht]
        show m.scopes.size < m'.scopes.size
        omega
  · rename_i hobs
    refine ⟨⟨fun o => ?_, hrest.1, hrest.2, hmade.unwatched, hmade.slots⟩, h.nodup, fun t ht => ?_⟩
    · rw [hmade.rootCount, h.count o, hcl, if_neg, Nat.add_zero]
      rintro ⟨rfl, ho⟩
      exact hobs ho
    · have := h.recorded t ht
      omega

/-- The ledger after observing `v` as root data if `asRoot`, ending in `m'`: a direct claim on
an object that the observation leaves observed. -/
def observedRoot (L : RootLedger) (m' : Machine η) (v : Value) (asRoot : Bool) : RootLedger :=
  if asRoot then
    match v with
    | .obj o => if (m'.object o).observer.isSome then { L with direct := o :: L.direct } else L
    | _ => L
  else L

/-- The ledger after an operation that went from `m` to `m'`: a new scope holds a claim if its
data is observed once it is made, and so does an observation as root data. -/
def record (L : RootLedger) (m m' : Machine η) : DataOp → RootLedger
  | .scope .. =>
    if (m'.object (m'.scope ⟨m.scopes.size⟩).data).observer.isSome then
      { L with scopes := L.scopes ++ [⟨m.scopes.size⟩] }
    else L
  | .observe v asRoot => L.observedRoot m' v asRoot
  | _ => L

/-- What a run asks of an operation: that the ledger permits a destroy. -/
def Permitted (L : RootLedger) (m : Machine η) : DataOp → Prop
  | .destroy s => L.Permits m s
  | _ => True

theorem Holds.observe (h : L.Holds m) (v : Value) (asRoot : Bool) (hs : m'.scopes = m.scopes)
    (ho : ∀ o, (m.object o).observer.isSome → (m'.object o).observer.isSome)
    (hu : m'.Unwatched) (hwf : m'.SlotsInRange) (hc : ∀ o, m'.rootCountOf o =
      m.rootCountOf o + if asRoot && v.same (.obj o) && (m'.object o).observer.isSome then 1 else 0) :
    (L.observedRoot m' v asRoot).Holds m' := by
  -- an observation that adds no claim keeps what the root counts look at
  have hkept : (∀ o, (asRoot && v.same (.obj o) && (m'.object o).observer.isSome) = false) →
      L.Holds m' := fun hz =>
    h.of_rootsKept ⟨hs, ho, fun o => by rw [hc, hz, if_neg Bool.false_ne_true, Nat.add_zero],
      hu, hwf⟩
  unfold observedRoot
  cases asRoot with
  | false => exact hkept fun _ => rfl
  | true =>
    cases v with
    | obj o₁ =>
      show (if (m'.object o₁).observer.isSome then { L with direct := o₁ :: L.direct } else L).Holds m'
      split
      · rename_i hobs
        have hscope : ∀ t, m'.scope t = m.scope t := fun t => by unfold Machine.scope; rw [hs]
        refine ⟨⟨fun o => ?_, fun t ht => ?_, fun t c hc => ?_, hu, hwf⟩, h.nodup,
          fun t ht => hs ▸ h.recorded t ht⟩
        · rw [hc, h.count o]
          unfold claims
          simp only [List.count_cons, hscope]
          by_cases e : o₁ = o
          · subst e
            simp [Value.same, hobs]
            omega
          · simp [Value.same, e]
        · rw [hscope] at ht ⊢
          exact h.marked t ht
        · rw [hscope] at hc
          rw [hs]
          exact h.children t c hc
      · rename_i hobs
        refine hkept fun o => ?_
        by_cases e : o₁ = o
        · subst e
          simp [hobs]
        · simp [Value.same, e]
    | _ => exact hkept fun _ => by simp [Value.same]

/-- Each data operation keeps the ledger, recording the claims it makes, as long as a destroy is
one the ledger permits. -/
theorem exec_holds (r : Runner η) (h : L.Holds m) (op : DataOp) (hp : L.Permitted m op) :
    Triple (· = m) (op.exec r) fun _ m' => (L.record m m' op).Holds m' := by
  have hk : m.RootsKept m := .refl h.unwatched h.slots
  cases op with
  | scope name parent props data =>
    have hmade : Sure (· = m) (Eff.newScope name parent props data) fun r m' =>
        ∃ a, r = .ok a ∧ ∃ D, m.ScopeMade m' D :=
      Sure.conseq (Eff.newScope_made name parent props data h.unwatched h.slots) (fun _ h => h)
        fun _ _ hr => ⟨_, hr.1, hr.2⟩
    refine Sure.triple (Sure.bind_ok hmade fun _ => Sure.intro fun _ hD => ?_)
    obtain ⟨D, hD⟩ := hD
    exact Sure.pure_at () (h.scope hD)
  | destroy s =>
    refine Triple.conseq (Sure.triple (destroy_tally h.nodup h.toTally hp)) (fun _ h => h)
      fun _ m' hr => ?_
    obtain ⟨_, _, ht, hsize⟩ := hr
    exact ⟨ht, h.nodup, fun t ht => hsize ▸ h.recorded t ht⟩
  | observe v asRoot =>
    refine Sure.triple (Sure.bind_ok (Eff.observe_claims v asRoot h.unwatched h.slots)
      fun _ => Sure.intro fun m' hm' => Sure.pure_at () ?_)
    obtain ⟨hs, ho, hu, hwf, hc⟩ := hm'
    exact h.observe v asRoot hs ho hu hwf hc
  | observing on =>
    refine Triple.modify _ fun _ e => ?_
    subst e
    exact h.of_rootsKept (.of_same h.unwatched h.slots rfl rfl rfl rfl)
  | set target key v =>
    refine Triple.conseq (Keeps.bind (Eff.set_rootsKept m r target key v) fun _ => Keeps.pure _)
      (fun _ e => e ▸ hk) fun _ _ hm' => h.of_rootsKept hm'
  | remove target key =>
    exact Triple.conseq (Eff.remove_rootsKept m r target key) (fun _ e => e ▸ hk)
      fun _ _ hm' => h.of_rootsKept hm'

/-- One data operation of a run, with the ledger it leaves; a fault ends the operation and not
the run, a halt ends the run. -/
inductive Step (r : Runner η) : RootLedger × Machine η → RootLedger × Machine η → Prop
  | op {L : RootLedger} {m m' : Machine η} {res : Except Fault Unit} (o : DataOp)
      (hp : L.Permitted m o) (hrun : ExceptT.run (o.exec r) m = .ok (res, m')) :
      Step r (L, m) (L.record m m' o, m')

theorem Step.holds {r : Runner η} {a b : RootLedger × Machine η} (hs : Step r a b)
    (h : a.1.Holds a.2) : b.1.Holds b.2 := by
  cases hs with
  | op o hp hrun => exact exec_holds r h o hp _ rfl _ _ hrun

theorem Holds.run {r : Runner η} {a b : RootLedger × Machine η}
    (hrun : Relation.ReflTransGen (Step r) a b) (h : a.1.Holds a.2) : b.1.Holds b.2 := by
  induction hrun with
  | refl => exact h
  | tail _ hs ih => exact hs.holds ih

end RootLedger

namespace Eff

/-! ## Writing root data -/

open Machine

variable (r : Runner η) {m : Machine η} {D : ObjRef}

theorem warn_run (m : Machine η) (text : String) :
    ∃ log, ExceptT.run (warn text : Eff η Unit) m = .ok (.ok (), { m with log := log }) := by
  unfold warn
  rw [exec_get_bind]
  split
  · exact ⟨_, rfl⟩
  · exact ⟨m.log, rfl⟩

theorem lookup_eq_none_of_keys {key : String} (hnew : key ∉ m.keysOf D) :
    (m.object D).slots.lookup key = none := by
  rw [List.lookup_eq_none_iff]
  intro p hp
  have : p.1 ≠ key := fun e => hnew (List.mem_map.2 ⟨p, hp, e⟩)
  simpa [bne_iff_ne, ne_comm] using this

theorem putSlot_new_keys {key : String} (s : Slot) {slots : List (String × Slot)}
    (hk : key ∉ slots.map (·.1)) : (putSlot key s slots).map (·.1) = slots.map (·.1) ++ [key] := by
  induction slots with
  | nil => rfl
  | cons ks rest ih =>
    obtain ⟨k, s'⟩ := ks
    have hne : k ≠ key := fun e => hk (by simp [e])
    have hrest : key ∉ rest.map (·.1) := fun h => hk (List.mem_cons_of_mem _ h)
    simp only [putSlot, if_neg hne, List.map_cons, ih hrest, List.cons_append]

theorem objPut_new_run {key : String} (v : Value) (hnew : (m.object D).slots.lookup key = none) :
    ExceptT.run (objPut r D key v) m = .ok (.ok (),
      { m with objects := m.objects.modify D.idx fun c => { c with slots := putSlot key (.plain v) c.slots } }) := by
  simp only [objPut, slot?, bind_assoc, exec_get_bind, pure_bind, hnew]
  rfl

theorem set_refused (key : Key) (v : Value) (hnew : key.toName ∉ m.keysOf D)
    (hc : 0 < m.rootCountOf D) :
    Sure (· = m) (set r (.obj D) key v) fun res m' => res = .ok v ∧
      ExceptT.run (warn ("avoid adding reactive property \"" ++ key.toName ++
        "\" to root data at runtime; declare it upfront")) m = .ok (.ok (), m') := by
  unfold Eff.set
  dsimp only
  refine Sure.read_bind ?_
  rw [lookup_eq_none_of_keys hnew, Option.isSome_none, if_neg Bool.false_ne_true]
  unfold Eff.rootCount
  refine Sure.read_bind ?_
  refine Sure.ite _ (fun _ => ?_) fun hn => absurd hc hn
  obtain ⟨log, hw⟩ := warn_run m ("avoid adding reactive property \"" ++ key.toName ++
    "\" to root data at runtime; declare it upfront")
  exact Sure.run_bind hw (Sure.pure_at v ⟨rfl, hw⟩)

theorem set_adds (hu : m.Unwatched) (hwf : m.SlotsInRange) (key : Key) (v : Value)
    (hD : D.idx < m.objects.size) (hnew : key.toName ∉ m.keysOf D) (hc : m.rootCountOf D = 0) :
    Sure (· = m) (set r (.obj D) key v) fun res m' =>
      res = .ok v ∧ m'.keysOf D = m.keysOf D ++ [key.toName] := by
  unfold Eff.set
  dsimp only
  refine Sure.read_bind ?_
  rw [lookup_eq_none_of_keys hnew, Option.isSome_none, if_neg Bool.false_ne_true]
  unfold Eff.rootCount
  refine Sure.read_bind ?_
  refine Sure.ite _ (fun hpos => absurd hc (Nat.pos_iff_ne_zero.1 hpos)) fun _ => ?_
  refine Sure.bind_get fun _ e => ?_
  rw [e]
  split
  · -- an unobserved object takes the value as a plain slot
    refine Sure.run_bind (objPut_new_run r v (lookup_eq_none_of_keys hnew)) (Sure.pure_at v ⟨rfl, ?_⟩)
    unfold keysOf
    rw [object_modify, if_pos ⟨rfl, hD⟩]
    exact putSlot_new_keys _ hnew
  · -- an observed object gets a tracked property, and nobody is notified
    rename_i ob _
    have hdef := defineReactive_run m D key.toName v none false hwf
    refine Sure.bind (Sure.conseq hdef (fun _ h => h) fun _ _ h => h) (fun _ => Sure.intro fun m' hm' => ?_)
      fun _ _ h => by cases h.1
    obtain ⟨-, m₂, dep, child, hg, -, hwf₂, -, -, rfl⟩ := hm'
    have hk : m₂.RootsKept { m₂ with
        props := m₂.props.push ⟨v, dep, child, false, none⟩
        objects := m₂.objects.modify D.idx fun c =>
          { c with slots := putSlot key.toName (.tracked ⟨m₂.props.size⟩) c.slots } } :=
      RootsKept.define (hg.unwatched hu) hwf₂ fun _ h => by cases h
    refine Sure.run_bind (notify_unwatched r ob.dep hk.unwatched) (Sure.pure_at v ⟨rfl, ?_⟩)
    unfold keysOf
    rw [@object_eq_modify η m₂ _ D
      (fun c => { c with slots := putSlot key.toName (.tracked ⟨m₂.props.size⟩) c.slots }) rfl
      (hg.objects_size ▸ hD)]
    have hkeys : (m₂.object D).slots.map (·.1) = (m.object D).slots.map (·.1) := hg.keys D
    rw [← hkeys]
    refine putSlot_new_keys _ ?_
    rw [hkeys]
    exact hnew

theorem remove_refused (key : Key) (hc : 0 < m.rootCountOf D) :
    Sure (· = m) (remove r (.obj D) key) fun res m' => res = .ok () ∧
      ExceptT.run (warn ("avoid deleting property \"" ++ key.toName ++
        "\" from root data; set it to null instead")) m = .ok (.ok (), m') := by
  unfold Eff.remove
  dsimp only
  refine Sure.bind_get fun _ e => ?_
  rw [e]
  unfold Eff.rootCount
  refine Sure.read_bind ?_
  refine Sure.ite _ (fun _ => ?_) fun hn => absurd hc hn
  obtain ⟨log, hw⟩ := warn_run m ("avoid deleting property \"" ++ key.toName ++
    "\" from root data; set it to null instead")
  exact Sure.run_bind hw (Sure.pure_at () ⟨rfl, hw⟩)

theorem remove_removes (hu : m.Unwatched) (key : Key) (hD : D.idx < m.objects.size)
    (hc : m.rootCountOf D = 0) :
    Sure (· = m) (remove r (.obj D) key) fun res m' =>
      res = .ok () ∧ m'.keysOf D = (m.keysOf D).filter (· ≠ key.toName) := by
  unfold Eff.remove
  dsimp only
  refine Sure.bind_get fun _ e => ?_
  rw [e]
  unfold Eff.rootCount
  refine Sure.read_bind ?_
  refine Sure.ite _ (fun hpos => absurd hc (Nat.pos_iff_ne_zero.1 hpos)) fun _ => ?_
  unfold Eff.hasOwn
  refine Sure.read_bind ?_
  by_cases hk : key.toName ∈ m.keysOf D
  · -- the key goes; the set of an observed object is notified, which reaches nobody
    have hsome : ((m.object D).slots.lookup key.toName).isSome = true := by
      obtain ⟨⟨k, s⟩, hmem, rfl⟩ := List.mem_map.1 hk
      rw [Option.isSome_iff_ne_none, Ne, List.lookup_eq_none_iff]
      intro hnone
      simpa using hnone _ hmem
    rw [hsome, Bool.not_true, if_neg Bool.false_ne_true]
    refine Sure.modify_bind ?_
    have hkeys : ({ m with objects := m.objects.modify D.idx fun c =>
        { c with slots := c.slots.filter (·.1 ≠ key.toName) } } : Machine η).keysOf D =
        (m.keysOf D).filter (· ≠ key.toName) := by
      unfold keysOf
      rw [object_modify, if_pos ⟨rfl, hD⟩, List.filter_map]
      rfl
    split
    · rintro _ rfl
      exact ⟨_, _, notify_unwatched r _ ⟨hu.subs, hu.watchers, hu.hooks⟩, rfl, hkeys⟩
    · exact Sure.pure_at () ⟨rfl, hkeys⟩
  · rw [lookup_eq_none_of_keys hk, Option.isSome_none, Bool.not_false, if_pos rfl]
    refine Sure.pure_at () ⟨rfl, (List.filter_eq_self.2 fun k hk' => ?_).symm⟩
    exact decide_eq_true fun e => hk (e ▸ hk')

end Eff

namespace RootLedger

theorem holds_start (x : η) : ({} : RootLedger).Holds ({ host := x } : Machine η) where
  count _ := rfl
  marked _ h := h
  children _ _ h := by cases h
  unwatched := ⟨fun _ => rfl, fun _ => rfl, fun _ _ h => by cases h⟩
  slots _ _ _ h := by cases h
  nodup := List.nodup_nil
  recorded _ h := by cases h

end RootLedger

/-- Root counts along every run of the data operations (making and destroying scopes,
observing, switching observation, writing and removing keys) that starts where the ledger
holds, as it does on a fresh engine, and in which every scope that a destroy ends while its
data is observed is one whose creation counted. The root count of every object is the number
of claims on it that still stand: its direct observations as root data, and the scopes not
destroyed whose creation left it observed. That number decides what writes of keys do: while
it is positive, `set` of a new key and `remove` only warn and leave the keys as they are; while
it is zero, they add and remove keys as on any other object. -/
theorem root_count_ledger (r : Runner η) {a b : RootLedger × Machine η}
    (hrun : Relation.ReflTransGen (RootLedger.Step r) a b) (h : a.1.Holds a.2) (D : ObjRef) :
    b.2.rootCountOf D = b.1.claims b.2 D ∧
    (0 < b.1.claims b.2 D →
      (∀ key v, key.toName ∉ b.2.keysOf D → Sure (· = b.2) (Eff.set r (.obj D) key v)
        fun res m' => res = .ok v ∧ m'.keysOf D = b.2.keysOf D ∧
          ExceptT.run (Eff.warn ("avoid adding reactive property \"" ++ key.toName ++
            "\" to root data at runtime; declare it upfront")) b.2 = .ok (.ok (), m')) ∧
      ∀ key, Sure (· = b.2) (Eff.remove r (.obj D) key) fun res m' =>
        res = .ok () ∧ m'.keysOf D = b.2.keysOf D ∧
          ExceptT.run (Eff.warn ("avoid deleting property \"" ++ key.toName ++
            "\" from root data; set it to null instead")) b.2 = .ok (.ok (), m')) ∧
    (b.1.claims b.2 D = 0 → D.idx < b.2.objects.size →
      (∀ key v, key.toName ∉ b.2.keysOf D → Sure (· = b.2) (Eff.set r (.obj D) key v)
        fun res m' => res = .ok v ∧ m'.keysOf D = b.2.keysOf D ++ [key.toName]) ∧
      ∀ key, Sure (· = b.2) (Eff.remove r (.obj D) key) fun res m' =>
        res = .ok () ∧ m'.keysOf D = (b.2.keysOf D).filter (· ≠ key.toName)) := by
  have hb := RootLedger.Holds.run hrun h
  have hcount := hb.count D
  -- a warning leaves the objects, so the keys, as they are
  have hwarn : ∀ text (m' : Machine η), ExceptT.run (Eff.warn text) b.2 = .ok (.ok (), m') →
      m'.keysOf D = b.2.keysOf D := fun text m' hw => by
    obtain ⟨log, hw'⟩ := Eff.warn_run b.2 text
    rw [hw'] at hw
    cases hw
    rfl
  refine ⟨hcount, fun hpos => ⟨fun key v hnew => ?_, fun key => ?_⟩, fun hzero hD =>
    ⟨fun key v hnew => Eff.set_adds r hb.unwatched hb.slots key v hD hnew (hcount.trans hzero),
      fun key => Eff.remove_removes r hb.unwatched key hD (hcount.trans hzero)⟩⟩
  · refine Sure.conseq (Eff.set_refused r key v hnew (hcount ▸ hpos)) (fun _ h => h) ?_
    rintro _ m' ⟨hres, hw⟩
    exact ⟨hres, hwarn _ m' hw, hw⟩
  · refine Sure.conseq (Eff.remove_refused r key (hcount ▸ hpos)) (fun _ h => h) ?_
    rintro _ m' ⟨hres, hw⟩
    exact ⟨hres, hwarn _ m' hw, hw⟩

/-- A scope made on a fresh engine with no data of its own gets a new object as data, observed
and claimed: the ledger records the scope, and the object's root count is one. -/
theorem root_count_ledger_scope :
    ∃ m : Machine Unit, ExceptT.run ((DataOp.scope "A" none [] .undefined).exec
        (⟨fun _ _ => pure .undefined, 0⟩ : Runner Unit)) { host := () } = .ok (.ok (), m) ∧
      Relation.ReflTransGen (RootLedger.Step ⟨fun _ _ => pure .undefined, 0⟩)
        ({}, { host := () }) (⟨[⟨0⟩], []⟩, m) ∧
      ({} : RootLedger).Holds ({ host := () } : Machine Unit) ∧
      m.rootCountOf ⟨1⟩ = (⟨[⟨0⟩], []⟩ : RootLedger).claims m ⟨1⟩ ∧ m.rootCountOf ⟨1⟩ = 1 := by
  have hstep := RootLedger.Step.op (r := ⟨fun _ _ => pure .undefined, 0⟩) (L := {})
    (m := { host := () }) (DataOp.scope "A" none [] .undefined) trivial rfl
  refine ⟨_, rfl, .single hstep, RootLedger.holds_start (), ?_, rfl⟩
  exact (root_count_ledger _ (.single hstep) (RootLedger.holds_start ()) ⟨1⟩).1

/-- A scope made while observation is off claims nothing, yet destroying it takes one from the
root count of its data. Here `A` is made on `D` with observation off, then `B` on `D` with it
on, and `A` is destroyed: `B` still stands on `D`, whose count is zero, so a new key is added
to `D`. This is the run that `Permits` leaves out. -/
theorem paused_scope_releases_claim :
    ∃ (u : Unit) (m : Machine Unit), ExceptT.run (do
        let D ← Eff.newObject [("a", .bool true)]
        (DataOp.observing false).exec (⟨fun _ _ => pure .undefined, 0⟩ : Runner Unit)
        (DataOp.scope "A" none [] (.obj D)).exec ⟨fun _ _ => pure .undefined, 0⟩
        (DataOp.observing true).exec ⟨fun _ _ => pure .undefined, 0⟩
        (DataOp.scope "B" none [] (.obj D)).exec ⟨fun _ _ => pure .undefined, 0⟩
        (DataOp.destroy ⟨0⟩).exec ⟨fun _ _ => pure .undefined, 0⟩
        (DataOp.set (.obj D) (.name "z") (.num 2)).exec ⟨fun _ _ => pure .undefined, 0⟩)
        ({ host := () } : Machine Unit) = .ok (.ok u, m) ∧
      (m.scope ⟨0⟩).destroyed = true ∧ (m.scope ⟨1⟩).destroyed = false ∧
      (m.scope ⟨1⟩).data = ⟨0⟩ ∧ m.rootCountOf ⟨0⟩ = 0 ∧ m.keysOf ⟨0⟩ = ["a", "z"] :=
  Eff.ok_of_check _ (by decide +kernel)

end Reactivity

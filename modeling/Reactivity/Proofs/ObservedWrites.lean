import Reactivity.Proofs.DeepObservation
import Reactivity.Proofs.Operations
import Reactivity.Proofs.SortItems

/-!
# Observation stays deep

Every operation of the engine keeps observation deep (`Machine.DeepFrom`) as long as observation
is left on and host code keeps it deep too (`DeepHost`): observing, defining tracked properties,
new containers, marking containers raw, writes of keys and properties, the list mutators,
making and destroying scopes, watchers and the tick batch. A value an operation stores must be
one of the heap; nothing else is asked of the arguments.

Each update of the heap is one lemma of `Reactivity.Proofs.DeepObservation`; here they are run
through the code of each operation. The pause of observation inside `Eff.newScope` is the one
place where observation is off: what it defines then lands in a new object that nothing
observes.
-/

namespace Reactivity

variable {η α β : Type}

open Machine

/-- Host code keeps observation deep: run from a state deep since any `m₀`, it ends in one. -/
def DeepHost (r : Runner η) : Prop :=
  ∀ (m₀ : Machine η) c a, Keeps (m₀.DeepFrom ·) (r.invoke c a)

theorem Keeps.forIn_mem {I : Machine η → Prop} {xs : List α} {b : β}
    {f : α → β → Eff η (ForInStep β)} (h : ∀ a ∈ xs, ∀ b, Keeps I (f a b)) :
    Keeps I (forIn xs b f) := by
  induction xs generalizing b with
  | nil => exact Keeps.pure b
  | cons a xs ih =>
    rw [List.forIn_cons]
    refine Keeps.bind (h a List.mem_cons_self b) fun s => ?_
    cases s with
    | done b => exact Keeps.pure b
    | yield b => exact ih (fun a ha => h a (List.mem_cons_of_mem _ ha))

theorem Keeps.intro {I : Machine η → Prop} {x : Eff η α}
    (h : ∀ m, I m → Triple (· = m) x fun _ => I) : Keeps I x :=
  fun m hm => h m hm m rfl

namespace Machine

variable {m m' m₀ m₁ : Machine η}

/-! ## What deep observation looks at -/

theorem DeepHeap.frame (h : m.DeepHeap) (ho : m'.objects = m.objects) (hl : m'.lists = m.lists)
    (hp : m'.props = m.props) : m'.DeepHeap := by
  obtain ⟨hdeep, hslots, hclosed⟩ := h
  cases m
  cases m'
  simp only at ho hl hp
  subst ho hl hp
  exact ⟨hdeep, hslots, hclosed⟩

theorem Outgrows.frame (h : m₀.Outgrows m) (ho : m'.objects = m.objects)
    (hl : m'.lists = m.lists) (hp : m'.props = m.props) : m₀.Outgrows m' := by
  cases m
  cases m'
  simp only at ho hl hp
  subst ho hl hp
  exact ⟨h.objects, h.lists, h.observer, h.listObserver, h.shallow⟩

theorem DeepFrom.frame (h : m₀.DeepFrom m) (ho : m'.objects = m.objects)
    (hl : m'.lists = m.lists) (hp : m'.props = m.props) (hon : m'.observing = m.observing) :
    m₀.DeepFrom m' :=
  ⟨⟨h.1.frame ho hl hp, hon.trans h.1.on⟩, h.2.frame ho hl hp⟩

theorem deepFrom_offTables (m₀ : Machine η) : OffTables (m₀.DeepFrom ·) :=
  fun _ _ _ _ _ _ _ _ h => h.frame rfl rfl rfl rfl

theorem deepFrom_offSchedule (m₀ : Machine η) : OffSchedule (m₀.DeepFrom ·) :=
  fun _ _ _ _ _ _ h => h.frame rfl rfl rfl rfl

theorem deepFrom_eval (m₀ : Machine η) : Stable.Eval (m₀.DeepFrom ·) :=
  (deepFrom_offTables m₀).eval fun _ _ h => h.frame rfl rfl rfl rfl

theorem Outgrows.deepFrom (h₀ : m₀.Outgrows m₁) (h : m₁.DeepFrom m) : m₀.DeepFrom m :=
  ⟨h.1, h₀.trans h.2⟩

/-! ## The updates of the heap, since `m₀` -/

theorem DeepFrom.grown (h : m₀.DeepFrom m) (hg : m.Grown m') (hw : m.WalkedSince m')
    (hs : m'.SlotsInRange) : m₀.DeepFrom m' :=
  ⟨⟨h.1.grown hg hw hs, hg.observing.trans h.1.on⟩, h.2.trans hg.outgrows⟩

theorem DeepFrom.rawer (h : m₀.DeepFrom m) (hr : m.Rawer m') (hon : m'.observing = m.observing) :
    m₀.DeepFrom m' :=
  hr.deepFrom hon h

theorem DeepFrom.define (h : m₀.DeepFrom m) {o : ObjRef} {key : String} {v : Value} {dep : DepId}
    {child : Option DepId} {shallow : Bool} {hook : Option AssignHook} (hv : m₀.InHeap v)
    (hc : (m.object o).observer.isSome = true → shallow = false → m.covered v = true) :
    m₀.DeepFrom { m with
      props := m.props.push ⟨v, dep, child, shallow, hook⟩
      objects := m.objects.modify o.idx fun c =>
        { c with slots := putSlot key (.tracked ⟨m.props.size⟩) c.slots } } :=
  ⟨⟨h.1.define (h.inHeap hv) hc, h.1.on⟩, h.2.trans (.define m o key _)⟩

theorem DeepFrom.plain (h : m₀.DeepFrom m) {o : ObjRef} {key : String} {v : Value}
    (hv : m₀.InHeap v) : m₀.DeepFrom (m.withSlot o key (.plain v)) := by
  refine ⟨⟨h.1.withSlot (fun _ q e => ?_) (h.inHeap hv) fun q e => ?_, h.1.on⟩,
    h.2.trans (.withSlot m o key _)⟩
  · cases e
  · cases e

theorem DeepFrom.store (h : m₀.DeepFrom m) {p : PropId} {v : Value} {child : Option DepId}
    (hv : m₀.InHeap v) (hc : (m.prop p).shallow = false → m.covered v = true) :
    m₀.DeepFrom { m with props := m.props.modify p.idx fun c =>
      { c with value := v, childDep := child } } :=
  ⟨⟨h.1.store (h.inHeap hv) hc, h.1.on⟩, h.2.trans (.store m p _ fun _ => rfl)⟩

theorem DeepFrom.removeKey (h : m₀.DeepFrom m) (o : ObjRef) (name : String) :
    m₀.DeepFrom { m with objects := m.objects.modify o.idx fun c =>
      { c with slots := c.slots.filter (·.1 ≠ name) } } :=
  ⟨⟨h.1.removeKey o name, h.1.on⟩, h.2.trans (.modifyObject m o fun _ => rfl)⟩

theorem DeepFrom.pushObject (h : m₀.DeepFrom m) {c : ObjectCell} (hc : c.observer = none)
    (htracked : ∀ k p, (k, Slot.tracked p) ∉ c.slots)
    (hin : ∀ k v, (k, Slot.plain v) ∈ c.slots → m₀.InHeap v) :
    m₀.DeepFrom { m with objects := m.objects.push c } :=
  ⟨⟨h.1.pushObject hc htracked fun k v hk => h.inHeap (hin k v hk), h.1.on⟩,
    h.2.trans (.pushObject m c)⟩

theorem DeepFrom.pushList (h : m₀.DeepFrom m) {items : List Value}
    (hin : ∀ v ∈ items, m₀.InHeap v) :
    m₀.DeepFrom { m with lists := m.lists.push { items := items } } :=
  ⟨⟨h.1.pushList fun v hv => h.inHeap (hin v hv), h.1.on⟩, h.2.trans (.pushList m _)⟩

/-- Deep since `m₀` but for the items `added` of `l`, which are still to be observed. -/
def DeepFromBut (m₀ : Machine η) (l : ListRef) (added : List Value) (m : Machine η) : Prop :=
  m.DeepHeapBut l added ∧ m.observing = true ∧ m₀.Outgrows m

theorem DeepFrom.setItems (h : m₀.DeepFrom m) {l : ListRef} {items added : List Value}
    (hnew : ∀ v ∈ items, v ∈ (m.listCell l).items ∨ v ∈ added ∨ v = .undefined)
    (hin : ∀ v ∈ added, m₀.InHeap v) :
    m₀.DeepFromBut l added { m with lists := m.lists.modify l.idx fun c =>
      { c with items := items } } := by
  refine ⟨h.1.setItems (fun v hv => ?_) fun v hv => ?_, h.1.on,
    h.2.trans (.modifyList m l fun _ => rfl)⟩
  · rcases hnew v hv with hold | hadd | rfl
    · exact .inl hold
    · exact .inr (.inr hadd)
    · exact .inr (.inl rfl)
  · rcases hnew v hv with hold | hadd | rfl
    · exact h.1.closed.2 l v hold
    · exact h.inHeap (hin v hadd)
    · trivial

/-- Observation paused over a heap deep since `m₀`, with the object `o` unobserved: where
`Eff.newScope` defines the props. -/
def PausedOn (m₀ : Machine η) (o : ObjRef) (m : Machine η) : Prop :=
  m.DeepHeap ∧ m₀.Outgrows m ∧ m.observing = false ∧ (m.object o).observer = none

theorem DeepFromBut.nil {l : ListRef} (h : m₀.DeepFromBut l [] m) : m₀.DeepFrom m := by
  refine ⟨⟨⟨⟨h.1.deep.1, fun l' hl v hv => ?_⟩, h.1.slots, h.1.closed⟩, h.2.1⟩, h.2.2⟩
  rcases h.1.deep.2 l' hl v hv with hc | ⟨-, hnil⟩
  · exact hc
  · cases hnil

/-- Observing the values `vs` in turn took `m` to `m'`: the state only grew, what was attached
was walked to the end, and each of `vs` is covered if observation is on. -/
structure ObservedAll (m m' : Machine η) (vs : List Value) : Prop where
  grown : m.Grown m'
  walked : m.WalkedSince m'
  slots : m'.SlotsInRange
  covered : m.observing = true → ∀ v ∈ vs, m'.covered v = true

end Machine

namespace Eff

open Machine

variable {m m₀ : Machine η}

/-! ## Observing -/

theorem observeWith_paused (hoff : m.observing = false) (fuel : Nat) (v : Value) :
    ExceptT.run (observeWith (fuel + 1) v false : Eff η (Option DepId)) m =
      .ok (.ok ((m.observerOf v).map (·.dep)), m) := by
  unfold observeWith
  cases v with
  | obj o =>
    simp only [Bool.false_and, Bool.false_eq_true, ↓reduceIte, pure_bind, exec_get_bind]
    cases hob : (m.object o).observer with
    | some ob => simp [observerOf, hob]
    | none => simp [observerOf, hob, hoff]
  | list l =>
    simp only [Bool.false_and, Bool.false_eq_true, ↓reduceIte, pure_bind, exec_get_bind]
    cases hob : (m.listCell l).observer with
    | some ob => simp [observerOf, hob]
    | none => simp [observerOf, hob, hoff]
  | _ => rfl

theorem observe_deep (hm : m₀.DeepFrom m) (v : Value) (asRoot : Bool) :
    Sure (· = m) (observe v asRoot) fun r m' => ∃ d, r = .ok d ∧ m₀.DeepFrom m' ∧
      m'.covered v = true := by
  refine Sure.conseq (observe_run m v asRoot hm.1.slots) (fun _ h => h) fun r m' h => ?_
  obtain ⟨d, hr, m₁, hw, rfl⟩ := h
  have h₁ : m₀.DeepFrom m₁ := hm.grown hw.grown hw.walked hw.slots
  have hc : m₁.covered v = true := hw.covered hm.1.on
  refine ⟨d, hr, ?_⟩
  split
  · have hon : (m₁.bumped v).observing = m₁.observing := by cases v <;> rfl
    exact ⟨h₁.rawer (rawer_bumped m₁ v) hon, (rawer_bumped m₁ v).covered v hc⟩
  · exact ⟨h₁, hc⟩

theorem observe_keeps (v : Value) (asRoot : Bool) :
    Keeps (m₀.DeepFrom ·) (observe v asRoot : Eff η (Option DepId)) := by
  intro m hm
  refine Sure.triple (Sure.conseq (observe_deep hm v asRoot) (fun _ h => h) ?_) m rfl
  rintro _ _ ⟨_, _, h, _⟩
  exact h

theorem observe_walk (hwf : m.SlotsInRange) (v : Value) :
    Sure (· = m) (observe v false) fun r m' => ∃ d, r = .ok d ∧ m.Walk m' v d := by
  refine Sure.conseq (observe_run m v false hwf) (fun _ h => h) fun _ _ h => ?_
  obtain ⟨d, hr, m₁, hw, e⟩ := h
  rw [if_neg (by simp)] at e
  exact ⟨d, hr, e ▸ hw⟩

theorem observeEach_run (hwf : m.SlotsInRange) (vs : List Value) :
    Sure (· = m) (forIn vs PUnit.unit fun v _ => do
        let _ ← observe v false
        pure (ForInStep.yield PUnit.unit) : Eff η PUnit)
      fun r m' => ∃ b, r = .ok b ∧ m.ObservedAll m' vs := by
  refine Sure.conseq (Sure.forIn_list (fun done _ m' => m.ObservedAll m' done)
    fun pre a post _ _ => ?_) (by rintro _ rfl; exact ⟨.refl _, .refl _, hwf, fun _ _ h => by cases h⟩)
    fun _ _ h => h
  refine Sure.intro fun mk hk => Sure.bind_ok (observe_walk hk.slots a)
    fun _ => Sure.intro fun m' hw => Sure.pure_at _ ⟨_, rfl, ?_⟩
  refine ⟨hk.grown.trans hw.grown, hk.walked.trans hw.grown hw.walked, hw.slots, fun hon v hv => ?_⟩
  rcases List.mem_append.1 hv with hv | hv
  · exact hw.grown.covered (hk.covered hon v hv)
  · rw [List.mem_singleton] at hv
    subst hv
    exact hw.covered (by rw [hk.grown.observing]; exact hon)

theorem observeAll_run (hwf : m.SlotsInRange) (hon : m.observing = true) (vs : List Value) :
    Sure (· = m) (forIn vs PUnit.unit fun v _ => do
        let _ ← observe v false
        pure (ForInStep.yield PUnit.unit) : Eff η PUnit)
      fun r m' => ∃ b, r = .ok b ∧ m.ItemsWalked m' vs :=
  Sure.conseq (observeEach_run hwf vs) (fun _ h => h) fun _ _ ⟨b, hb, h⟩ =>
    ⟨b, hb, h.grown, h.walked, h.slots, h.covered hon⟩

/-! ## Defining tracked properties -/

theorem defineReactive_keeps (o : ObjRef) (key : String) (v : Value) (hook : Option AssignHook)
    (shallow : Bool) (hv : m₀.InHeap v) :
    Keeps (m₀.DeepFrom ·) (defineReactive o key v hook shallow : Eff η Unit) := by
  intro m hm
  refine Sure.triple (Sure.conseq (defineReactive_run m o key v hook shallow hm.1.slots)
    (fun _ h => h) ?_) m rfl
  rintro _ _ ⟨-, m₂, dep, child, hg, hw, hs, hc, -, rfl⟩
  exact (hm.grown hg hw hs).define hv fun _ hsh => hc hsh hm.1.on


theorem defineWith_paused (hoff : m.observing = false) (fuel : Nat) (o : ObjRef) (key : String)
    (v : Value) (hook : Option AssignHook) (shallow : Bool) :
    Sure (· = m) (defineWith (fuel + 2) o key v hook shallow) fun r m' => r = .ok () ∧
      ∃ (ds : Array DepCell) (dep : DepId) (child : Option DepId), m' = { m with
        deps := ds
        props := m.props.push ⟨v, dep, child, shallow, hook⟩
        objects := m.objects.modify o.idx fun c =>
          { c with slots := putSlot key (.tracked ⟨m.props.size⟩) c.slots } } := by
  -- after the set, from a state that differs from `m` in its sets alone
  have hrest : ∀ (ds : Array DepCell) dep, Sure (· = { m with deps := ds }) (if shallow = true then do
        let child ← pure none
        let p ← newProp ⟨v, dep, child, shallow, hook⟩
        install o key (.tracked p)
      else do
        let child ← observeWith (fuel + 1) v false
        let p ← newProp ⟨v, dep, child, shallow, hook⟩
        install o key (.tracked p)) fun r m' => r = .ok () ∧
      ∃ (ds : Array DepCell) (dep : DepId) (child : Option DepId), m' = { m with
        deps := ds
        props := m.props.push ⟨v, dep, child, shallow, hook⟩
        objects := m.objects.modify o.idx fun c =>
          { c with slots := putSlot key (.tracked ⟨m.props.size⟩) c.slots } } := by
    intro ds dep
    have hfin : ∀ child, Sure (· = { m with deps := ds }) (do
        let p ← newProp ⟨v, dep, child, shallow, hook⟩
        install o key (.tracked p)) fun r m' => r = .ok () ∧
        ∃ (ds : Array DepCell) (dep : DepId) (child : Option DepId), m' = { m with
          deps := ds
          props := m.props.push ⟨v, dep, child, shallow, hook⟩
          objects := m.objects.modify o.idx fun c =>
            { c with slots := putSlot key (.tracked ⟨m.props.size⟩) c.slots } } := fun child =>
      Sure.newProp_bind (Sure.modify _ fun _ e => ⟨rfl, ds, dep, child, by subst e; rfl⟩)
    refine Sure.ite _ (fun _ => Sure.run_bind rfl (hfin none)) fun _ => ?_
    exact Sure.run_bind (observeWith_paused (m := { m with deps := ds }) hoff fuel v) (hfin _)
  unfold defineWith
  refine Sure.read_bind ?_
  dsimp only
  split
  · refine Sure.bind_get fun _ e => ?_
    subst e
    exact Sure.run_bind rfl (hrest _ _)
  · exact Sure.newDep_bind (hrest _ _)

theorem defineReactive_paused (hoff : m.observing = false) (o : ObjRef) (key : String) (v : Value)
    (hook : Option AssignHook) (shallow : Bool) :
    Sure (· = m) (defineReactive o key v hook shallow) fun r m' => r = .ok () ∧
      ∃ (ds : Array DepCell) (dep : DepId) (child : Option DepId), m' = { m with
        deps := ds
        props := m.props.push ⟨v, dep, child, shallow, hook⟩
        objects := m.objects.modify o.idx fun c =>
          { c with slots := putSlot key (.tracked ⟨m.props.size⟩) c.slots } } := by
  unfold defineReactive containerCount
  refine Sure.read_bind ?_
  exact defineWith_paused hoff _ o key v hook shallow


theorem itemsUntracked_run (l : ListRef) (m : Machine η) :
    ExceptT.run (itemsUntracked l : Eff η (List Value)) m = .ok (.ok (m.listCell l).items, m) :=
  rfl

theorem newObject_nil_run (m : Machine η) :
    ExceptT.run (newObject [] : Eff η ObjRef) m =
      .ok (.ok ⟨m.objects.size⟩, { m with objects := m.objects.push {} }) :=
  rfl

/-! ## Writes, with host code that keeps observation deep -/

section Writes

variable {r : Runner η} (hr : DeepHost r)
include hr

theorem notify_deep (d : DepId) : Keeps (m₀.DeepFrom ·) (notify r d) :=
  (deepFrom_eval m₀).notify (deepFrom_offSchedule m₀) (hr m₀) d

theorem mutated_deep (l : ListRef) (added : List Value) :
    Triple (m₀.DeepFromBut l added) (mutated r l added) fun _ => (m₀.DeepFrom ·) := by
  unfold mutated
  refine Triple.bind_get fun m hm => ?_
  split
  · refine Triple.bind_ok (Sure.triple (Sure.conseq (observeAll_run hm.1.slots hm.2.1 added)
      (fun _ h => h) fun _ m' h => ?_)) fun _ => notify_deep hr _
    obtain ⟨b, hb, hk⟩ := h
    exact ⟨b, hb, ⟨hm.1.walked hk.grown hk.walked hk.slots hk.items,
      hk.grown.observing.trans hm.2.1⟩, hm.2.2.trans hk.grown.outgrows⟩
  · -- an unobserved list owes nothing to its new items
    rename_i hno
    have hnone : (m.listCell l).observer = none := by
      cases e : (m.listCell l).observer with
      | none => rfl
      | some ob => exact absurd e (hno ob)
    exact Triple.pure _ fun _ e => e ▸ ⟨⟨hm.1.of_unobserved hnone, hm.2.1⟩, hm.2.2⟩

theorem mutated_then (l : ListRef) (added : List Value) {k : Unit → Eff η β}
    (hk : ∀ u, Keeps (m₀.DeepFrom ·) (k u)) :
    Triple (m₀.DeepFromBut l added) (mutated r l added >>= k) fun _ => (m₀.DeepFrom ·) :=
  Triple.bind (mutated_deep hr l added) hk fun _ _ h => h

omit hr in
/-- New items of a list, each an old one, one of `added` or undefined, then what restores the
heap owed `added`. -/
theorem rewrite_deep (hm : m₀.DeepFrom m) {l : ListRef} {items added : List Value}
    (hnew : ∀ v ∈ items, v ∈ (m.listCell l).items ∨ v ∈ added ∨ v = .undefined)
    (hin : ∀ v ∈ added, m₀.InHeap v) {rest : Eff η β}
    (hrest : Triple (m₀.DeepFromBut l added) rest fun _ => (m₀.DeepFrom ·)) :
    Triple (· = m) (setItems l items >>= fun _ => rest) fun _ => (m₀.DeepFrom ·) :=
  Triple.bind_ok (Triple.modify _ fun _ e => ⟨(), rfl, e ▸ hm.setItems hnew hin⟩) fun _ => hrest

theorem push_keeps (l : ListRef) (v : Value) (hv : m₀.InHeap v) :
    Keeps (m₀.DeepFrom ·) (push r l v) := by
  refine Keeps.intro fun m hm => ?_
  unfold push
  refine Triple.run_bind (itemsUntracked_run l m) ?_
  dsimp only
  refine rewrite_deep hm (fun x hx => ?_) (fun x hx => ?_)
    (mutated_then hr _ _ fun _ => Keeps.pure _)
  · rcases List.mem_append.1 hx with hx | hx
    · exact .inl hx
    · exact .inr (.inl hx)
  · rw [List.mem_singleton.1 hx]
    exact hv

theorem unshift_keeps (l : ListRef) (v : Value) (hv : m₀.InHeap v) :
    Keeps (m₀.DeepFrom ·) (unshift r l v) := by
  refine Keeps.intro fun m hm => ?_
  unfold unshift
  refine Triple.run_bind (itemsUntracked_run l m) ?_
  dsimp only
  refine rewrite_deep hm (fun x hx => ?_) (fun x hx => ?_)
    (mutated_then hr _ _ fun _ => Keeps.pure _)
  · rcases List.mem_cons.1 hx with rfl | hx
    · exact .inr (.inl List.mem_cons_self)
    · exact .inl hx
  · rw [List.mem_singleton.1 hx]
    exact hv

theorem pop_keeps (l : ListRef) : Keeps (m₀.DeepFrom ·) (pop r l) := by
  refine Keeps.intro fun m hm => ?_
  unfold pop
  refine Triple.run_bind (itemsUntracked_run l m) ?_
  exact rewrite_deep hm (fun x hx => .inl (List.mem_of_mem_dropLast hx))
    (fun x hx => absurd hx List.not_mem_nil) (mutated_then hr _ _ fun _ => Keeps.pure _)

theorem shift_keeps (l : ListRef) : Keeps (m₀.DeepFrom ·) (shift r l) := by
  refine Keeps.intro fun m hm => ?_
  unfold shift
  refine Triple.run_bind (itemsUntracked_run l m) ?_
  exact rewrite_deep hm (fun x hx => .inl (List.mem_of_mem_tail hx))
    (fun x hx => absurd hx List.not_mem_nil) (mutated_then hr _ _ fun _ => Keeps.pure _)

theorem splice_keeps (l : ListRef) (start count : Nat) (added : List Value)
    (hin : ∀ v ∈ added, m₀.InHeap v) : Keeps (m₀.DeepFrom ·) (splice r l start count added) := by
  refine Keeps.intro fun m hm => ?_
  unfold splice
  refine Triple.run_bind (itemsUntracked_run l m) ?_
  dsimp only
  refine rewrite_deep hm (fun x hx => ?_) hin (mutated_then hr _ _ fun _ => Keeps.pure _)
  -- what is kept of the old items, then the new ones
  rcases List.mem_append.1 hx with hx | hx
  · rcases List.mem_append.1 hx with hx | hx
    · exact .inl (List.mem_of_mem_take hx)
    · exact .inr (.inl hx)
  · exact .inl (List.mem_of_mem_drop hx)

theorem reverse_keeps (l : ListRef) : Keeps (m₀.DeepFrom ·) (reverse r l) := by
  refine Keeps.intro fun m hm => ?_
  unfold reverse
  refine Triple.run_bind (itemsUntracked_run l m) ?_
  exact rewrite_deep hm (fun x hx => .inl (List.mem_reverse.1 hx))
    (fun x hx => absurd hx List.not_mem_nil) (mutated_deep hr l [])

theorem sortBy_keeps (l : ListRef) (before : Value → Value → Bool) :
    Keeps (m₀.DeepFrom ·) (sortBy r l before) := by
  refine Keeps.intro fun m hm => ?_
  unfold sortBy
  refine Triple.run_bind (itemsUntracked_run l m) ?_
  split
  next sorted hs =>
    have hitems : ∀ y ∈ sorted, y ∈ (m.listCell l).items ∨ y = .undefined :=
      Sorting.sort_items before (.inr rfl) (fun x hx => .inl hx) hs
    refine rewrite_deep hm (fun x hx => ?_) (fun x hx => absurd hx List.not_mem_nil)
      (mutated_deep hr l [])
    rcases hitems x hx with hx | hx
    · exact .inl hx
    · exact .inr (.inr hx)
  next => exact Triple.halt _

omit hr in
theorem padTo_keeps (l : ListRef) (n : Nat) : Keeps (m₀.DeepFrom ·) (padTo l n : Eff η Unit) := by
  refine Keeps.intro fun m hm => ?_
  unfold padTo
  refine Triple.run_bind (itemsUntracked_run l m) (Triple.ite _ (fun _ => Triple.modify _
    fun _ e => ?_) fun _ => Triple.pure _ fun _ e => e ▸ hm)
  subst e
  refine (hm.setItems (fun x hx => ?_) fun _ h => absurd h List.not_mem_nil).nil
  rcases List.mem_append.1 hx with hx | hx
  · exact .inl hx
  · exact .inr (.inr (List.eq_of_mem_replicate hx))

theorem assign_keeps (m₁ : Machine η) (hook : Option AssignHook) :
    Keeps (m₁.DeepFrom ·) (assign r hook) := by
  unfold assign
  split
  · exact Keeps.pure _
  · exact Stable.perform (hr m₁) _
  · exact Keeps.bind Keeps.get fun _ => Keeps.ite _ ((deepFrom_eval m₁).warn _) (Keeps.pure _)

/-- A write of a tracked property: the assign hook, run first, may do anything that keeps
observation deep, but a property it found shallow stays shallow, so what is stored is observed
unless the property is shallow. -/
theorem propSet_keeps (p : PropId) (v : Value) (hv : m₀.InHeap v) :
    Keeps (m₀.DeepFrom ·) (propSet r p v) := by
  unfold propSet
  refine Keeps.bind_get fun m₁ h₁ => Triple.ite _ (fun _ => Triple.pure _ fun _ e => e ▸ h₁)
    fun _ => ?_
  refine Triple.bind (R := fun _ m => m₁.DeepFrom m)
    (Keeps.triple (assign_keeps hr m₁ _) (.refl h₁.1)) (fun _ => ?_) fun _ _ h => h₁.2.deepFrom h
  extract_lets store
  have hstore : ∀ child, Triple (fun m => m₁.DeepFrom m ∧
      ((m.prop p).shallow = false → m.covered v = true)) (store child) fun _ => (m₀.DeepFrom ·) := by
    intro child
    refine Triple.bind (R := fun _ m => m₀.DeepFrom m) (Triple.modify _ fun m hm =>
      h₁.2.deepFrom (hm.1.store (h₁.inHeap hv) hm.2)) (fun _ => notify_deep hr _) fun _ _ h => h
  refine Triple.ite _ (fun hsh => ?_) fun _ => ?_
  · refine Triple.bind (R := fun _ m => m₁.DeepFrom m ∧
      ((m.prop p).shallow = false → m.covered v = true)) (Triple.pure _ fun m hm => ⟨hm, fun hs => ?_⟩)
      hstore fun _ _ h => h₁.2.deepFrom h.1
    -- the property was shallow when read, so it still is
    rw [hm.2.shallow p hsh] at hs
    cases hs
  · refine Triple.bind (R := fun _ m => m₁.DeepFrom m ∧
      ((m.prop p).shallow = false → m.covered v = true)) (fun m hm => ?_) hstore
      fun _ _ h => h₁.2.deepFrom h.1
    refine Sure.triple (Sure.conseq (observe_deep hm v false) (fun _ h => h) ?_) m rfl
    rintro _ _ ⟨_, _, h, hc⟩
    exact ⟨h, fun _ => hc⟩

theorem objPut_keeps (o : ObjRef) (key : String) (v : Value) (hv : m₀.InHeap v) :
    Keeps (m₀.DeepFrom ·) (objPut r o key v) := by
  refine Keeps.bind (Stable.slot? o key) fun s => ?_
  split
  · exact propSet_keeps hr _ _ hv
  · exact Keeps.modify fun m hm => hm.plain hv

theorem set_keeps (target : Value) (key : Key) (v : Value) (hv : m₀.InHeap v) :
    Keeps (m₀.DeepFrom ·) (set r target key v) := by
  unfold set
  split
  · split
    · exact Keeps.fault _
    · exact Keeps.bind (padTo_keeps _ _) fun _ => Keeps.bind (splice_keeps hr _ _ _ _
        fun x hx => List.mem_singleton.1 hx ▸ hv) fun _ => Keeps.pure _
  · refine Keeps.bind (Stable.hasOwn _ _) fun _ =>
      Keeps.ite _ (Keeps.bind (objPut_keeps hr _ _ _ hv) fun _ => Keeps.pure _) ?_
    refine Keeps.bind (Stable.rootCount _) fun _ =>
      Keeps.ite _ (Keeps.bind ((deepFrom_eval m₀).warn _) fun _ => Keeps.pure _) ?_
    refine Keeps.bind Keeps.get fun _ => ?_
    extract_lets done
    have hdone : ∀ u, Keeps (m₀.DeepFrom ·) (done u) := fun _ => Keeps.pure _
    split
    · exact Keeps.bind (objPut_keeps hr _ _ _ hv) hdone
    · exact Keeps.bind (defineReactive_keeps _ _ _ _ _ hv) fun _ =>
        Keeps.bind (notify_deep hr _) hdone
  · exact Keeps.fault _

theorem remove_keeps (target : Value) (key : Key) : Keeps (m₀.DeepFrom ·) (remove r target key) := by
  unfold remove
  split
  · split
    · exact Keeps.fault _
    · refine Keeps.bind (Stable.itemsUntracked _) fun _ => Keeps.ite _ ?_ (Keeps.pure _)
      exact Keeps.bind (splice_keeps hr _ _ _ _ fun _ h => absurd h List.not_mem_nil) fun _ =>
        Keeps.pure _
  · refine Keeps.bind Keeps.get fun _ => Keeps.bind (Stable.rootCount _) fun _ =>
      Keeps.ite _ (Keeps.bind ((deepFrom_eval m₀).warn _) fun _ => Keeps.pure _) ?_
    refine Keeps.bind (Stable.hasOwn _ _) fun _ => Keeps.ite _ (Keeps.pure _) ?_
    refine Keeps.bind (Keeps.modify fun m hm => hm.removeKey _ _) fun _ => ?_
    split
    · exact notify_deep hr _
    · exact Keeps.pure _
  · exact Keeps.fault _


/-! ## New containers and scopes -/

omit hr in
theorem newObject_keeps (fields : List (String × Value)) (hin : ∀ kv ∈ fields, m₀.InHeap kv.2) :
    Keeps (m₀.DeepFrom ·) (newObject fields : Eff η ObjRef) := by
  refine Keeps.get_set_bind (fun m hm => hm.pushObject rfl (fun k p hk => ?_) fun k v hk => ?_)
    fun _ _ => Keeps.pure _
  · obtain ⟨⟨k', v'⟩, -, e⟩ := List.mem_map.1 hk
    cases e
  · obtain ⟨⟨k', v'⟩, hkv, e⟩ := List.mem_map.1 hk
    cases e
    exact hin _ hkv

omit hr in
theorem newList_keeps (items : List Value) (hin : ∀ v ∈ items, m₀.InHeap v) :
    Keeps (m₀.DeepFrom ·) (newList items : Eff η ListRef) :=
  Keeps.get_set_bind (fun _ hm => hm.pushList hin) fun _ _ => Keeps.pure _

omit hr in
theorem definePaused {o : ObjRef} {v : Value} (hP : m₀.PausedOn o m) (hv : m₀.InHeap v)
    (key : String) (hook : Option AssignHook) :
    Sure (· = m) (defineReactive o key v hook false) fun r m' => ∃ a, r = .ok a ∧
      m₀.PausedOn o m' := by
  refine Sure.conseq (defineReactive_paused hP.2.2.1 o key v hook false) (fun _ h => h) ?_
  rintro _ _ ⟨hr, ds, dep, child, rfl⟩
  have hunobs : ((m.withSlot o key (.tracked ⟨m.props.size⟩)).object o).observer = none := by
    rw [observer_withSlot]
    exact hP.2.2.2
  refine ⟨(), hr, (hP.1.define (hP.2.1.inHeap hv) fun ho => ?_).frame rfl rfl rfl,
    (hP.2.1.trans (.define m o key _)).frame rfl rfl rfl, hP.2.2.1, hunobs⟩
  rw [hP.2.2.2] at ho
  cases ho

omit hr in
theorem newScope_keeps (name : String) (parent : Option ScopeId) (props : List (String × Value))
    (data : Value) (hin : ∀ kv ∈ props, m₀.InHeap kv.2) :
    Keeps (m₀.DeepFrom ·) (newScope name parent props data : Eff η ScopeId) := by
  unfold newScope
  refine Keeps.bind_get fun m hm => ?_
  extract_lets s done
  have hdone : ∀ u, Keeps (m₀.DeepFrom ·) (done u) := fun _ => Keeps.pure _
  refine Triple.run_bind (newObject_nil_run m) (Triple.bind_get fun _ e => ?_)
  subst e
  extract_lets wasObserving finish
  have hpaused : m₀.PausedOn ⟨m.objects.size⟩
      { m with objects := m.objects.push {}, observing := false } := by
    have h₁ := hm.pushObject (c := {}) rfl (fun _ _ h => by cases h) fun _ _ h => by cases h
    refine ⟨h₁.1.frame rfl rfl rfl, h₁.2.frame rfl rfl rfl, rfl, ?_⟩
    show (({ m with objects := m.objects.push {} } : Machine η).object ⟨m.objects.size⟩).observer = none
    rw [object_push, if_pos rfl]
  refine Triple.run_bind rfl (Triple.bind_ok (Sure.triple (Sure.conseq
    (Sure.forIn_list (fun _ _ m' => m₀.PausedOn ⟨m.objects.size⟩ m') fun pre kv post _ hxs => ?_)
    (fun _ e => e ▸ hpaused) fun _ _ h => h)) fun _ => ?_)
  · obtain ⟨k, v⟩ := kv
    have hkv : (k, v) ∈ props := by rw [hxs]; simp
    exact Sure.intro fun _ hP => Sure.bind_ok (definePaused hP (hin _ hkv) k _) fun _ =>
      Sure.intro fun _ h => Sure.pure_at _ ⟨_, rfl, h⟩
  -- observation is on again; the rest observes the data and registers the scope
  have hfinish : ∀ o, Keeps (m₀.DeepFrom ·) (finish o) := by
    intro o
    dsimp -zeta only [finish]
    refine Keeps.bind (Stable.objKeysUntracked _) fun _ => Keeps.bind (Keeps.forIn_list fun _ _ =>
      Keeps.bind (Stable.hasOwn _ _) fun _ =>
        Keeps.ite _ (Keeps.bind ((deepFrom_eval m₀).warn _) fun _ => Keeps.pure _) (Keeps.pure _))
      fun _ => Keeps.bind (observe_keeps _ _) fun _ => ?_
    refine Keeps.bind (Keeps.modify fun _ hm => hm.frame rfl rfl rfl rfl) fun _ => ?_
    split
    · exact Keeps.bind (Keeps.modify fun _ hm => hm.frame rfl rfl rfl rfl) hdone
    · exact hdone ()
  refine Triple.bind (R := fun _ m' => m₀.DeepFrom m') (Triple.modify _ fun _ hP =>
    ⟨⟨hP.1.frame rfl rfl rfl, hm.1.on⟩, hP.2.1.frame rfl rfl rfl⟩) (fun _ => ?_) fun _ _ h => h
  have hnew : Keeps (m₀.DeepFrom ·) (newObject [] : Eff η ObjRef) :=
    newObject_keeps [] fun _ h => by cases h
  split
  · exact Keeps.bind (Keeps.pure _) hfinish
  · exact Keeps.bind hnew hfinish
  · exact Keeps.bind ((deepFrom_eval m₀).warn _) fun _ => Keeps.bind hnew hfinish

omit hr in
theorem destroyWith_keeps (fuel : Nat) (s : ScopeId) :
    Keeps (m₀.DeepFrom ·) (destroyWith fuel s : Eff η Unit) := by
  have hscope : ∀ t (f : ScopeCell → ScopeCell), Keeps (m₀.DeepFrom ·) (modifyScope t f : Eff η Unit) :=
    fun _ _ => Keeps.modify fun _ hm => hm.frame rfl rfl rfl rfl
  induction fuel generalizing s with
  | zero => exact Keeps.halt _
  | succ fuel ih =>
    unfold destroyWith
    refine Keeps.bind Keeps.get fun _ => Keeps.ite _ (Keeps.pure _) ?_
    refine Keeps.bind (hscope _ _) fun _ => Keeps.bind Keeps.get fun _ => ?_
    extract_lets rest
    have hrest : ∀ u, Keeps (m₀.DeepFrom ·) (rest u) := by
      intro u
      dsimp -zeta only [rest]
      refine Keeps.bind Keeps.get fun _ => ?_
      dsimp only
      refine Keeps.bind (hscope _ _) fun _ => Keeps.bind (Keeps.forIn_list fun _ _ =>
        Keeps.bind (ih _) fun _ => Keeps.pure _) fun _ => Keeps.bind Keeps.get fun _ => ?_
      refine Keeps.bind (hscope _ _) fun _ => Keeps.bind (Keeps.forIn_list fun _ _ =>
        Keeps.bind ((deepFrom_eval m₀).teardown _) fun _ => Keeps.pure _) fun _ =>
        Keeps.bind (hscope _ _) fun _ => Keeps.bind Keeps.get fun _ => ?_
      exact Keeps.bind (Keeps.modify fun m hm => hm.rawer (rawer_mapObserver m _ fun _ => rfl) rfl)
        fun _ => hscope _ _
    split
    · exact Keeps.bind Keeps.get fun _ => Keeps.ite _ (Keeps.bind (hscope _ _) hrest) (hrest ())
    · exact hrest ()

omit hr in
theorem destroy_keeps (s : ScopeId) : Keeps (m₀.DeepFrom ·) (destroy s : Eff η Unit) :=
  Keeps.bind Keeps.get fun _ => Keeps.bind (destroyWith_keeps _ _) fun _ =>
    (deepFrom_eval m₀).released

theorem updateProps_keeps (s : ScopeId) (props : List (String × Value))
    (hin : ∀ kv ∈ props, m₀.InHeap kv.2) : Keeps (m₀.DeepFrom ·) (updateProps r s props) := by
  have hscope : ∀ t (f : ScopeCell → ScopeCell), Keeps (m₀.DeepFrom ·) (modifyScope t f : Eff η Unit) :=
    fun _ _ => Keeps.modify fun _ hm => hm.frame rfl rfl rfl rfl
  refine Keeps.bind (hscope _ _) fun _ => Keeps.bind (Keeps.forIn_mem fun kv hkv _ => ?_)
    fun _ => hscope _ _
  obtain ⟨k, v⟩ := kv
  exact Keeps.bind Keeps.get fun _ => Keeps.bind (Stable.hasOwn _ _) fun _ =>
    Keeps.ite _ (Keeps.bind (objPut_keeps hr _ _ _ (hin _ hkv)) fun _ => Keeps.pure _) (Keeps.pure _)

theorem mount_keeps (s : ScopeId) (render : Closure) : Keeps (m₀.DeepFrom ·) (mount r s render) := by
  refine Keeps.bind Keeps.get fun _ => ?_
  extract_lets rest
  have hrest : ∀ u, Keeps (m₀.DeepFrom ·) (rest u) := fun _ =>
    Keeps.bind ((deepFrom_eval m₀).create (hr m₀) _ _ _ _ _) fun _ =>
      Keeps.bind (deepFrom_eval m₀).unhold fun _ => Keeps.modify fun _ hm => hm.frame rfl rfl rfl rfl
  split
  · exact Keeps.bind ((deepFrom_eval m₀).teardown _) hrest
  · exact hrest ()

omit hr in
theorem newComputed_keeps (scope : Option ScopeId) (name : String) (c : Closure) :
    Keeps (m₀.DeepFrom ·) (newComputed scope name c : Eff η WatcherId) := by
  refine Keeps.bind ((deepFrom_eval m₀).build _ _ _ _ _) fun w => ?_
  extract_lets done
  have hdone : ∀ u, Keeps (m₀.DeepFrom ·) (done u) := fun _ => Keeps.pure _
  split
  · refine Keeps.bind Keeps.get fun _ => ?_
    dsimp only
    refine Keeps.bind (Stable.hasOwn _ _) fun _ =>
      Keeps.ite _ (Keeps.bind ((deepFrom_eval m₀).warn _) hdone) ?_
    refine Keeps.bind (Stable.hasOwn _ _) fun _ =>
      Keeps.ite _ (Keeps.bind ((deepFrom_eval m₀).warn _) hdone) ?_
    exact Keeps.bind (Keeps.modify fun _ hm => hm.frame rfl rfl rfl rfl) fun _ =>
      Keeps.bind (deepFrom_eval m₀).release hdone
  · exact hdone ()

end Writes

end Eff

end Reactivity

import Reactivity.Proofs.Sure
import Reactivity.Proofs.Subscribed

/-!
# Observation

`Eff.observe` walks a value graph and gives each container it reaches an observer, once: an
object's keys become tracked properties, a list's items are observed in turn, and containers
already observed or marked raw stop the walk. This module says what a walk does, for every
state and every value.

A walk only adds: it attaches observers to containers that had none and turns existing keys
into tracked properties holding the values they held (`Machine.Grown`). Every container it
attaches is walked to the end (`Machine.WalkedSince`): each key of an object is a tracked
property whose value is covered, each item of a list is covered, where a covered value is
observed, raw, or no container at all. And it ends: the observer goes on before the walk goes
into the container, so each step into a container lowers the number of containers without an
observer, and the fuel `observe` gives is twice the number of containers, with some to spare.
The walk is run from known states and its steps stated as total triples (`Sure`).
-/

namespace Reactivity

variable {η α β : Type}


namespace Machine

/-! ## Views of the tables after an update -/

theorem getD_modify {α : Type} (a : Array α) (i j : Nat) (f : α → α) (d : α) :
    (a.modify i f)[j]?.getD d = if j = i ∧ i < a.size then f (a[j]?.getD d) else a[j]?.getD d := by
  simp only [Array.getElem?_modify]
  by_cases hj : j = i
  · subst hj
    by_cases hlt : j < a.size
    · simp [Array.getElem?_eq_getElem hlt, Nat.not_le.2 hlt]
    · simp [hlt]
  · simp [hj, Ne.symm hj]

theorem object_modify (m : Machine η) (o o' : ObjRef) (f : ObjectCell → ObjectCell) :
    ({ m with objects := m.objects.modify o.idx f } : Machine η).object o' =
      if o' = o ∧ o.idx < m.objects.size then f (m.object o') else m.object o' := by
  unfold Machine.object
  rw [getD_modify]
  have : o'.idx = o.idx ↔ o' = o := ⟨fun h => by cases o; cases o'; simp_all, fun h => h ▸ rfl⟩
  simp only [this]

theorem listCell_modify (m : Machine η) (l l' : ListRef) (f : ListCell → ListCell) :
    ({ m with lists := m.lists.modify l.idx f } : Machine η).listCell l' =
      if l' = l ∧ l.idx < m.lists.size then f (m.listCell l') else m.listCell l' := by
  unfold Machine.listCell
  rw [getD_modify]
  have : l'.idx = l.idx ↔ l' = l := ⟨fun h => by cases l; cases l'; simp_all, fun h => h ▸ rfl⟩
  simp only [this]

theorem prop_modify (m : Machine η) (p q : PropId) (f : Property → Property) :
    ({ m with props := m.props.modify p.idx f } : Machine η).prop q =
      if q = p ∧ p.idx < m.props.size then f (m.prop q) else m.prop q := by
  unfold Machine.prop
  rw [getD_modify]
  have : q.idx = p.idx ↔ q = p := ⟨fun h => by cases p; cases q; simp_all, fun h => h ▸ rfl⟩
  simp only [this]

theorem object_of_size_le {m : Machine η} {o : ObjRef} (h : m.objects.size ≤ o.idx) :
    m.object o = default := by
  unfold Machine.object
  simp [Array.getElem?_eq_none h]

theorem listCell_of_size_le {m : Machine η} {l : ListRef} (h : m.lists.size ≤ l.idx) :
    m.listCell l = default := by
  unfold Machine.listCell
  simp [Array.getElem?_eq_none h]

theorem prop_of_size_le {m : Machine η} {p : PropId} (h : m.props.size ≤ p.idx) :
    m.prop p = default := by
  unfold Machine.prop
  simp [Array.getElem?_eq_none h]

theorem prop_push (m : Machine η) (c : Property) (p : PropId) :
    ({ m with props := m.props.push c } : Machine η).prop p =
      if p.idx = m.props.size then c else m.prop p := by
  unfold Machine.prop
  simp only [Array.getElem?_push]
  split <;> rfl

theorem prop_push_of_lt (m : Machine η) (c : Property) {p : PropId} (h : p.idx < m.props.size) :
    ({ m with props := m.props.push c } : Machine η).prop p = m.prop p := by
  rw [prop_push, if_neg (Nat.ne_of_lt h)]

/-! ## Slots -/

theorem lookup_putSlot (key k : String) (s : Slot) (slots : List (String × Slot)) :
    (putSlot key s slots).lookup k = if k = key then some s else slots.lookup k := by
  induction slots with
  | nil =>
    simp only [putSlot, List.lookup_cons, List.lookup_nil]
    split <;> simp_all
  | cons ks rest ih =>
    obtain ⟨k', s'⟩ := ks
    simp only [putSlot]
    split
    · simp only [List.lookup_cons]
      split <;> split <;> simp_all
    · simp only [List.lookup_cons, ih]
      split <;> simp_all

theorem putSlot_keys {key : String} (s : Slot) {slots : List (String × Slot)}
    (hk : key ∈ slots.map (·.1)) : (putSlot key s slots).map (·.1) = slots.map (·.1) := by
  induction slots with
  | nil => cases hk
  | cons ks rest ih =>
    obtain ⟨k, s'⟩ := ks
    simp only [putSlot]
    split
    · rename_i h
      simp [h]
    · rename_i h
      have hrest : key ∈ rest.map (·.1) := by
        simp only [List.map_cons, List.mem_cons] at hk
        exact hk.resolve_left fun e => h e.symm
      simp [ih hrest]

theorem mem_putSlot {key k : String} {s s' : Slot} {slots : List (String × Slot)}
    (h : (k, s') ∈ putSlot key s slots) : (k, s') ∈ slots ∨ s' = s := by
  induction slots with
  | nil =>
    simp only [putSlot, List.mem_singleton, Prod.mk.injEq] at h
    exact .inr h.2
  | cons ks rest ih =>
    obtain ⟨k₀, s₀⟩ := ks
    simp only [putSlot] at h
    split at h
    · rcases List.mem_cons.1 h with h | h
      · exact .inr (Prod.mk.inj h).2
      · exact .inl (List.mem_cons_of_mem _ h)
    · rcases List.mem_cons.1 h with h | h
      · exact .inl (h ▸ List.mem_cons_self)
      · exact (ih h).imp_left (List.mem_cons_of_mem _)

theorem mem_of_lookup {k : String} {s : Slot} {slots : List (String × Slot)}
    (h : slots.lookup k = some s) : (k, s) ∈ slots := by
  obtain ⟨l₁, l₂, rfl, -⟩ := List.lookup_eq_some_iff.1 h
  simp

/-! ## Keys, values and covered values -/

/-- The keys of an object, in order. -/
def keysOf (m : Machine η) (o : ObjRef) : List String := (m.object o).slots.map (·.1)

/-- The value under `key` of an object, undefined if it has none. -/
def valueAt (m : Machine η) (o : ObjRef) (key : String) : Value :=
  match (m.object o).slots.lookup key with
  | some s => m.slotValue s
  | none => .undefined

/-- Observation has nothing left to do with `v`: it is observed, marked raw, or no container of
the heap (a scalar, or a handle past the tables). -/
def covered (m : Machine η) : Value → Bool
  | .obj o => !decide (o.idx < m.objects.size) || (m.object o).observer.isSome || (m.object o).raw
  | .list l =>
    !decide (l.idx < m.lists.size) || (m.listCell l).observer.isSome || (m.listCell l).raw
  | _ => true

/-- `key` of `o` is a tracked property that observes the values stored in it. -/
def TrackedAt (m : Machine η) (o : ObjRef) (key : String) : Prop :=
  ∃ p, (m.object o).slots.lookup key = some (.tracked p) ∧ (m.prop p).shallow = false

/-- An object walked to the end: each key is a tracked property whose value is covered. -/
def Walked (m : Machine η) (o : ObjRef) : Prop :=
  ∀ key ∈ m.keysOf o, m.TrackedAt o key ∧ m.covered (m.valueAt o key) = true

/-- A list walked to the end: each item is covered. -/
def WalkedList (m : Machine η) (l : ListRef) : Prop :=
  ∀ v ∈ (m.listCell l).items, m.covered v = true

/-- Every slot of every object that is a tracked property names one of the table. -/
def SlotsInRange (m : Machine η) : Prop :=
  ∀ o key p, (key, Slot.tracked p) ∈ (m.object o).slots → p.idx < m.props.size

/-- The containers of the heap with no observer yet: the most a walk can still attach. -/
def unobserved (m : Machine η) : Nat :=
  (List.range m.objects.size).countP (fun i => (m.object ⟨i⟩).observer.isNone) +
  (List.range m.lists.size).countP (fun i => (m.listCell ⟨i⟩).observer.isNone)

/-! ## What a walk leaves of a state -/

/-- `m'` is `m` grown by observation: only the containers, the properties and the dependency
sets change; observers are only added, new ones with no claims; keys, values, items and raw
marks stay; a tracked key of an observed object stays tracked, and a key of it that becomes
tracked holds a covered value; properties and dependency sets are only added, the new
properties with no assign hook and the new sets with no subscriber. -/
structure Grown (m m' : Machine η) : Prop where
  rest : m' = { m with objects := m'.objects, lists := m'.lists, props := m'.props, deps := m'.deps }
  objects_size : m'.objects.size = m.objects.size
  lists_size : m'.lists.size = m.lists.size
  props_size : m.props.size ≤ m'.props.size
  observer : ∀ o ob, (m.object o).observer = some ob → (m'.object o).observer = some ob
  observer_new : ∀ o ob, (m.object o).observer = none → (m'.object o).observer = some ob →
    ob.rootCount = 0
  listObserver : ∀ l ob, (m.listCell l).observer = some ob → (m'.listCell l).observer = some ob
  raw : ∀ o, (m'.object o).raw = (m.object o).raw
  listRaw : ∀ l, (m'.listCell l).raw = (m.listCell l).raw
  items : ∀ l, (m'.listCell l).items = (m.listCell l).items
  keys : ∀ o, m'.keysOf o = m.keysOf o
  values : ∀ o key, m'.valueAt o key = m.valueAt o key
  tracked : ∀ o key, (m.object o).observer.isSome → m.TrackedAt o key → m'.TrackedAt o key
  untracked : ∀ o key, (m.object o).observer.isSome → m'.TrackedAt o key →
    m.TrackedAt o key ∨ m'.covered (m'.valueAt o key) = true
  props : ∀ p, p.idx < m.props.size → m'.prop p = m.prop p
  newProps : ∀ p, m.props.size ≤ p.idx → (m'.prop p).hook = none
  subs : ∀ d, (m'.dep d).subs = (m.dep d).subs

/-- Every container observed in `m'` and not in `m` has been walked to the end. -/
def WalkedSince (m m' : Machine η) : Prop :=
  (∀ o, (m.object o).observer = none → (m'.object o).observer.isSome → m'.Walked o) ∧
  ∀ l, (m.listCell l).observer = none → (m'.listCell l).observer.isSome → m'.WalkedList l

variable {m m' m'' : Machine η}

theorem observed_of_some {o : ObjRef} (h : (m.object o).observer.isSome = true) :
    ∃ ob, (m.object o).observer = some ob := Option.isSome_iff_exists.1 h

namespace Grown

theorem refl (m : Machine η) : m.Grown m :=
  ⟨rfl, rfl, rfl, le_rfl, fun _ _ h => h, fun _ _ h h' => (by rw [h] at h'; cases h'),
    fun _ _ h => h, fun _ => rfl, fun _ => rfl, fun _ => rfl, fun _ => rfl, fun _ _ => rfl,
    fun _ _ _ h => h, fun _ _ _ h => .inl h, fun _ _ => rfl,
    fun _ h => by rw [prop_of_size_le h]; rfl,
    fun _ => rfl⟩

theorem observed (h : m.Grown m') {o : ObjRef} (ho : (m.object o).observer.isSome = true) :
    (m'.object o).observer.isSome = true := by
  obtain ⟨ob, hob⟩ := observed_of_some ho
  rw [h.observer o ob hob]
  rfl

theorem listObserved (h : m.Grown m') {l : ListRef}
    (hl : (m.listCell l).observer.isSome = true) : (m'.listCell l).observer.isSome = true := by
  obtain ⟨ob, hob⟩ := Option.isSome_iff_exists.1 hl
  rw [h.listObserver l ob hob]
  rfl

theorem covered (h : m.Grown m') {v : Value} (hv : m.covered v = true) : m'.covered v = true := by
  cases v with
  | obj o =>
    simp only [Machine.covered, h.objects_size, h.raw, Bool.or_eq_true, Bool.not_eq_true',
      decide_eq_false_iff_not] at hv ⊢
    rcases hv with (hv | hv) | hv
    · exact .inl (.inl hv)
    · exact .inl (.inr (h.observed hv))
    · exact .inr hv
  | list l =>
    simp only [Machine.covered, h.lists_size, h.listRaw, Bool.or_eq_true, Bool.not_eq_true',
      decide_eq_false_iff_not] at hv ⊢
    rcases hv with (hv | hv) | hv
    · exact .inl (.inl hv)
    · exact .inl (.inr (h.listObserved hv))
    · exact .inr hv
  | _ => rfl

theorem trans (h : m.Grown m') (h' : m'.Grown m'') : m.Grown m'' := by
  refine ⟨?_, h'.objects_size.trans h.objects_size, h'.lists_size.trans h.lists_size,
    h.props_size.trans h'.props_size, fun o ob hob => h'.observer o ob (h.observer o ob hob),
    fun o ob hnone hob => ?_, fun l ob hob => h'.listObserver l ob (h.listObserver l ob hob),
    fun o => (h'.raw o).trans (h.raw o), fun l => (h'.listRaw l).trans (h.listRaw l),
    fun l => (h'.items l).trans (h.items l), fun o => (h'.keys o).trans (h.keys o),
    fun o k => (h'.values o k).trans (h.values o k),
    fun o k ho hk => h'.tracked o k (h.observed ho) (h.tracked o k ho hk),
    fun o k ho hk => ?_, fun p hp => (h'.props p (by have := h.props_size; omega)).trans
      (h.props p hp), fun p hp => ?_, fun d => (h'.subs d).trans (h.subs d)⟩
  · rw [h'.rest]
    conv_lhs => rw [h.rest]
  · cases hmid : (m'.object o).observer with
    | none => exact h'.observer_new o ob hmid hob
    | some ob' =>
      rw [h'.observer o ob' hmid] at hob
      cases hob
      exact h.observer_new o _ hnone hmid
  · rcases h'.untracked o k (h.observed ho) hk with hk' | hc
    · rcases h.untracked o k ho hk' with hk'' | hc
      · exact .inl hk''
      · exact .inr (by rw [h'.values]; exact h'.covered hc)
    · exact .inr hc
  · by_cases hlt : p.idx < m'.props.size
    · rw [h'.props p hlt]
      exact h.newProps p hp
    · exact h'.newProps p (Nat.le_of_not_lt hlt)

theorem walked (h : m.Grown m') {o : ObjRef} (ho : (m.object o).observer.isSome = true)
    (hw : m.Walked o) : m'.Walked o := by
  intro key hk
  rw [h.keys] at hk
  obtain ⟨ht, hc⟩ := hw key hk
  exact ⟨h.tracked o key ho ht, by rw [h.values]; exact h.covered hc⟩

theorem walkedList (h : m.Grown m') {l : ListRef} (hw : m.WalkedList l) : m'.WalkedList l := by
  intro v hv
  rw [h.items] at hv
  exact h.covered (hw v hv)

theorem unobserved_le (h : m.Grown m') : m'.unobserved ≤ m.unobserved := by
  unfold Machine.unobserved
  rw [h.objects_size, h.lists_size]
  refine Nat.add_le_add (List.countP_mono_left fun i _ hi => ?_)
    (List.countP_mono_left fun i _ hi => ?_)
  · cases hob : (m.object ⟨i⟩).observer with
    | none => rfl
    | some ob => rw [h.observer _ ob hob] at hi; cases hi
  · cases hob : (m.listCell ⟨i⟩).observer with
    | none => rfl
    | some ob => rw [h.listObserver _ ob hob] at hi; cases hi

end Grown

theorem WalkedSince.refl (m : Machine η) : m.WalkedSince m :=
  ⟨fun _ h h' => (by rw [h] at h'; cases h'), fun _ h h' => (by rw [h] at h'; cases h')⟩

theorem WalkedSince.trans (hw : m.WalkedSince m') (h' : m'.Grown m'')
    (hw' : m'.WalkedSince m'') : m.WalkedSince m'' := by
  refine ⟨fun o hnone ho => ?_, fun l hnone hl => ?_⟩
  · cases hmid : (m'.object o).observer with
    | none => exact hw'.1 o hmid ho
    | some ob =>
      have hs : (m'.object o).observer.isSome = true := by rw [hmid]; rfl
      exact h'.walked hs (hw.1 o hnone hs)
  · cases hmid : (m'.listCell l).observer with
    | none => exact hw'.2 l hmid hl
    | some ob =>
      have hs : (m'.listCell l).observer.isSome = true := by rw [hmid]; rfl
      exact h'.walkedList (hw.2 l hnone hs)

/-! ## The steps of a walk -/

theorem hook_of_size_le {p : PropId} (h : m.props.size ≤ p.idx) : (m.prop p).hook = none := by
  rw [prop_of_size_le h]
  rfl

theorem valueAt_eq {o : ObjRef} {key : String}
    (hl : (m'.object o).slots.lookup key = (m.object o).slots.lookup key)
    (hp : m'.props = m.props) : m'.valueAt o key = m.valueAt o key := by
  unfold valueAt slotValue Machine.prop
  rw [hl, hp]

theorem trackedAt_of_eq {o : ObjRef} {key : String} (h : m.TrackedAt o key)
    (hl : (m'.object o).slots.lookup key = (m.object o).slots.lookup key)
    (hp : m'.props = m.props) : m'.TrackedAt o key := by
  obtain ⟨p, hlk, hsh⟩ := h
  refine ⟨p, hl ▸ hlk, ?_⟩
  unfold Machine.prop
  rw [hp]
  exact hsh

theorem Grown.newDep (m : Machine η) : m.Grown { m with deps := m.deps.push {} } :=
  ⟨rfl, rfl, rfl, le_rfl, fun _ _ h => h, fun _ _ h h' => (by cases h.symm.trans h'),
    fun _ _ h => h, fun _ => rfl, fun _ => rfl, fun _ => rfl, fun _ => rfl, fun _ _ => rfl,
    fun _ _ _ h => h, fun _ _ _ h => .inl h, fun _ _ => rfl, fun _ h => hook_of_size_le h,
    dep_push_subs m⟩

theorem covered_modify {o : ObjRef} {f : ObjectCell → ObjectCell}
    (hf : ∀ c, (f c).observer.isSome = c.observer.isSome ∧ (f c).raw = c.raw) (v : Value) :
    ({ m with objects := m.objects.modify o.idx f } : Machine η).covered v = m.covered v := by
  cases v with
  | obj o' =>
    simp only [Machine.covered, Array.size_modify, object_modify]
    split
    · rw [(hf _).1, (hf _).2]
    · rfl
  | _ => rfl

theorem Grown.attach {o : ObjRef} (hnone : (m.object o).observer = none) (d : DepId) :
    m.Grown { m with objects := m.objects.modify o.idx fun c =>
      { c with observer := some ⟨d, 0⟩ } } := by
  have hobj : ∀ o', (({ m with objects := m.objects.modify o.idx fun c =>
      { c with observer := some ⟨d, 0⟩ } } : Machine η).object o').slots = (m.object o').slots ∧
      (({ m with objects := m.objects.modify o.idx fun c =>
        { c with observer := some ⟨d, 0⟩ } } : Machine η).object o').raw = (m.object o').raw := by
    intro o'
    rw [object_modify]
    split <;> exact ⟨rfl, rfl⟩
  refine ⟨rfl, Array.size_modify, rfl, le_rfl, fun o' ob hob => ?_, fun o' ob h h' => ?_,
    fun _ _ h => h, fun o' => (hobj o').2, fun _ => rfl, fun _ => rfl,
    fun o' => by unfold keysOf; rw [(hobj o').1], fun o' _ => valueAt_eq (by rw [(hobj o').1]) rfl,
    fun o' _ _ h => trackedAt_of_eq h (by rw [(hobj o').1]) rfl,
    fun o' _ _ h => .inl (trackedAt_of_eq h (by rw [(hobj o').1]) rfl), fun _ _ => rfl,
    fun _ h => hook_of_size_le h, fun _ => rfl⟩
  · rw [object_modify]
    split
    · rename_i h
      rw [h.1, hnone] at hob
      cases hob
    · exact hob
  · rw [object_modify] at h'
    split at h'
    · cases h'
      rfl
    · rw [h] at h'
      cases h'

theorem Grown.attachList {l : ListRef} (hnone : (m.listCell l).observer = none) (d : DepId) :
    m.Grown { m with lists := m.lists.modify l.idx fun c => { c with observer := some ⟨d, 0⟩ } } := by
  have hlist : ∀ l', (({ m with lists := m.lists.modify l.idx fun c =>
      { c with observer := some ⟨d, 0⟩ } } : Machine η).listCell l').items =
        (m.listCell l').items ∧
      (({ m with lists := m.lists.modify l.idx fun c =>
        { c with observer := some ⟨d, 0⟩ } } : Machine η).listCell l').raw = (m.listCell l').raw := by
    intro l'
    rw [listCell_modify]
    split <;> exact ⟨rfl, rfl⟩
  refine ⟨rfl, rfl, Array.size_modify, le_rfl, fun _ _ h => h,
    fun _ _ h h' => (by cases h.symm.trans h'), fun l' ob hob => ?_, fun _ => rfl,
    fun l' => (hlist l').2, fun l' => (hlist l').1, fun _ => rfl, fun _ _ => rfl,
    fun _ _ _ h => h, fun _ _ _ h => .inl h, fun _ _ => rfl, fun _ h => hook_of_size_le h,
    fun _ => rfl⟩
  rw [listCell_modify]
  split
  · rename_i h
    rw [h.1, hnone] at hob
    cases hob
  · exact hob

theorem valueAt_push (hwf : m.SlotsInRange) (p : Property) (o : ObjRef) (key : String) :
    ({ m with props := m.props.push p } : Machine η).valueAt o key = m.valueAt o key := by
  unfold valueAt slotValue
  show (match (m.object o).slots.lookup key with
    | some s => ({ m with props := m.props.push p } : Machine η).slotValue s
    | none => .undefined) = _
  cases h : (m.object o).slots.lookup key with
  | none => rfl
  | some s =>
    cases s with
    | plain v => rfl
    | tracked q => exact congrArg Property.value (prop_push_of_lt m p (hwf o key q (mem_of_lookup h)))

theorem trackedAt_push (hwf : m.SlotsInRange) (p : Property) {o : ObjRef} {key : String} :
    ({ m with props := m.props.push p } : Machine η).TrackedAt o key ↔ m.TrackedAt o key := by
  constructor
  · rintro ⟨q, hq, hs⟩
    exact ⟨q, hq, by rwa [prop_push_of_lt m p (hwf o key q (mem_of_lookup hq))] at hs⟩
  · rintro ⟨q, hq, hs⟩
    exact ⟨q, hq, by rwa [prop_push_of_lt m p (hwf o key q (mem_of_lookup hq))]⟩

theorem object_putSlot (o o' : ObjRef) (key : String) (s : Slot) :
    ({ m with objects := m.objects.modify o.idx fun c => { c with slots := putSlot key s c.slots } } :
      Machine η).object o' =
      if o' = o ∧ o.idx < m.objects.size then
        { m.object o' with slots := putSlot key s (m.object o').slots }
      else m.object o' := object_modify m o o' _

theorem Grown.newProp (hwf : m.SlotsInRange) {p : Property} (hh : p.hook = none) :
    m.Grown { m with props := m.props.push p } :=
  ⟨rfl, rfl, rfl, by simp, fun _ _ h => h, fun _ _ h h' => (by cases h.symm.trans h'),
    fun _ _ h => h, fun _ => rfl, fun _ => rfl, fun _ => rfl, fun _ => rfl,
    fun o k => valueAt_push hwf p o k, fun _ _ _ h => (trackedAt_push hwf p).2 h,
    fun _ _ _ h => .inl ((trackedAt_push hwf p).1 h), fun _ hq => prop_push_of_lt m p hq,
    fun q hq => by
      rw [prop_push]
      split
      · exact hh
      · exact hook_of_size_le (m := m) (by omega),
    fun _ => rfl⟩

theorem Grown.install {o : ObjRef} {key : String} {q : PropId} (hk : key ∈ m.keysOf o)
    (hv : (m.prop q).value = m.valueAt o key) (hs : (m.prop q).shallow = false)
    (hc : m.covered (m.prop q).value = true) :
    m.Grown { m with objects := m.objects.modify o.idx fun c =>
      { c with slots := putSlot key (.tracked q) c.slots } } := by
  have hobj := fun o' => object_putSlot (m := m) o o' key (.tracked q)
  -- the slots of `o` change under `key` only
  have hlook : ∀ o' k, ¬(o' = o ∧ o.idx < m.objects.size ∧ k = key) →
      (({ m with objects := m.objects.modify o.idx fun c =>
        { c with slots := putSlot key (.tracked q) c.slots } } : Machine η).object o').slots.lookup k =
        (m.object o').slots.lookup k := by
    intro o' k hne
    rw [hobj]
    split
    · rename_i h
      rw [lookup_putSlot, if_neg fun e => hne ⟨h.1, h.2, e⟩]
    · rfl
  have hkey : ∀ o', o' = o ∧ o.idx < m.objects.size →
      (({ m with objects := m.objects.modify o.idx fun c =>
        { c with slots := putSlot key (.tracked q) c.slots } } : Machine η).object o').slots.lookup
          key = some (.tracked q) := by
    intro o' h
    rw [hobj, if_pos h, lookup_putSlot, if_pos rfl]
  have hcov := covered_modify (m := m) (o := o)
    (f := fun c => { c with slots := putSlot key (.tracked q) c.slots }) fun _ => ⟨rfl, rfl⟩
  refine ⟨rfl, Array.size_modify, rfl, le_rfl, fun o' ob hob => ?_, fun o' ob h h' => ?_,
    fun _ _ h => h, fun o' => ?_, fun _ => rfl, fun _ => rfl, fun o' => ?_, fun o' k => ?_,
    fun o' k _ ht => ?_, fun o' k _ ht => ?_, fun _ _ => rfl, fun _ h => hook_of_size_le h,
    fun _ => rfl⟩
  · rw [hobj]
    split <;> exact hob
  · rw [hobj] at h'
    split at h' <;> exact absurd (h.symm.trans h') (by simp)
  · rw [hobj]
    split <;> rfl
  · unfold keysOf
    rw [hobj]
    split
    · rename_i h
      rw [h.1]
      exact putSlot_keys _ hk
    · rfl
  · by_cases h : o' = o ∧ o.idx < m.objects.size ∧ k = key
    · obtain ⟨rfl, hlt, rfl⟩ := h
      unfold valueAt
      rw [hkey o' ⟨rfl, hlt⟩]
      exact hv
    · exact valueAt_eq (hlook o' k h) rfl
  · by_cases h : o' = o ∧ o.idx < m.objects.size ∧ k = key
    · obtain ⟨rfl, hlt, rfl⟩ := h
      exact ⟨q, hkey o' ⟨rfl, hlt⟩, hs⟩
    · exact trackedAt_of_eq ht (hlook o' k h) rfl
  · by_cases h : o' = o ∧ o.idx < m.objects.size ∧ k = key
    · obtain ⟨rfl, hlt, rfl⟩ := h
      refine .inr ?_
      unfold valueAt
      rw [hkey o' ⟨rfl, hlt⟩, hcov]
      exact hc
    · exact .inl (trackedAt_of_eq ht (hlook o' k h).symm rfl)

/-! ## Slots name properties of the table -/

theorem SlotsInRange.of_objects_eq (hwf : m.SlotsInRange) (ho : m'.objects = m.objects)
    (hp : m.props.size ≤ m'.props.size) : m'.SlotsInRange := by
  intro o key p h
  have hobj : m'.object o = m.object o := by unfold Machine.object; rw [ho]
  rw [hobj] at h
  exact Nat.lt_of_lt_of_le (hwf o key p h) hp

theorem attach_observed {o : ObjRef} (hlt : o.idx < m.objects.size) (d : DepId) :
    (({ m with objects := m.objects.modify o.idx fun c =>
      { c with observer := some ⟨d, 0⟩ } } : Machine η).object o).observer.isSome = true := by
  rw [object_modify, if_pos ⟨rfl, hlt⟩]
  rfl

theorem attachList_observed {l : ListRef} (hlt : l.idx < m.lists.size) (d : DepId) :
    (({ m with lists := m.lists.modify l.idx fun c =>
      { c with observer := some ⟨d, 0⟩ } } : Machine η).listCell l).observer.isSome = true := by
  rw [listCell_modify, if_pos ⟨rfl, hlt⟩]
  rfl

theorem SlotsInRange.attach (hwf : m.SlotsInRange) (o : ObjRef) (d : DepId) :
    ({ m with objects := m.objects.modify o.idx fun c =>
      { c with observer := some ⟨d, 0⟩ } } : Machine η).SlotsInRange := by
  intro o' key p h
  rw [object_modify] at h
  split at h
  · exact hwf o' key p h
  · exact hwf o' key p h

theorem SlotsInRange.install (hwf : m.SlotsInRange) {o : ObjRef} {key : String} {q : PropId}
    (hq : q.idx < m.props.size) :
    ({ m with objects := m.objects.modify o.idx fun c =>
      { c with slots := putSlot key (.tracked q) c.slots } } : Machine η).SlotsInRange := by
  intro o' k p h
  rw [object_putSlot] at h
  split at h
  · rcases mem_putSlot h with h | h
    · exact hwf o' k p h
    · cases h
      exact hq
  · exact hwf o' k p h

/-! ## Fewer containers without an observer -/

theorem countP_range_lt {n : Nat} {p q : Nat → Bool} (h : ∀ i < n, p i = true → q i = true)
    {i : Nat} (hi : i < n) (hp : p i = false) (hq : q i = true) :
    (List.range n).countP p < (List.range n).countP q := by
  induction n with
  | zero => cases hi
  | succ n ih =>
    have hle : ∀ i < n, p i = true → q i = true := fun i hi' => h i (by omega)
    simp only [List.range_succ, List.countP_append, List.countP_singleton]
    by_cases hin : i = n
    · subst hin
      have := List.countP_mono_left (l := List.range i) fun j hj => hle j (List.mem_range.1 hj)
      simp [hp, hq]
      omega
    · have := ih hle (by omega)
      have hn := h n (by omega)
      split <;> split <;> simp_all
      omega

theorem unobserved_attach {o : ObjRef} (hlt : o.idx < m.objects.size)
    (hnone : (m.object o).observer = none) (d : DepId) :
    ({ m with objects := m.objects.modify o.idx fun c =>
      { c with observer := some ⟨d, 0⟩ } } : Machine η).unobserved < m.unobserved := by
  unfold unobserved
  simp only [Array.size_modify]
  refine Nat.add_lt_add_right (countP_range_lt (fun i _ hi => ?_) hlt ?_ ?_) _
  · rw [object_modify] at hi
    split at hi
    · cases hi
    · exact hi
  · rw [object_modify, if_pos ⟨rfl, hlt⟩]
    rfl
  · rw [hnone]
    rfl

theorem unobserved_attachList {l : ListRef} (hlt : l.idx < m.lists.size)
    (hnone : (m.listCell l).observer = none) (d : DepId) :
    ({ m with lists := m.lists.modify l.idx fun c =>
      { c with observer := some ⟨d, 0⟩ } } : Machine η).unobserved < m.unobserved := by
  unfold unobserved
  simp only [Array.size_modify]
  refine Nat.add_lt_add_left (countP_range_lt (fun i _ hi => ?_) hlt ?_ ?_) _
  · rw [listCell_modify] at hi
    split at hi
    · cases hi
    · exact hi
  · rw [listCell_modify, if_pos ⟨rfl, hlt⟩]
    rfl
  · rw [hnone]
    rfl

/-! ## What a walk promises -/

/-- A walk from `m` that observed `v` and gave the set `d` ended in `m'`: the state only grew,
everything it attached was walked to the end, slots still name properties of the table, `v`
is covered if observation was on, and an object the walk gave no set has no observer. -/
structure Walk (m m' : Machine η) (v : Value) (d : Option DepId) : Prop where
  grown : m.Grown m'
  walked : m.WalkedSince m'
  slots : m'.SlotsInRange
  covered : m.observing = true → m'.covered v = true
  unattached : ∀ o, v = .obj o → d = none → (m'.object o).observer = none

theorem Walk.refl {v : Value} {d : Option DepId} (hwf : m.SlotsInRange)
    (hc : m.observing = true → m.covered v = true)
    (hn : ∀ o, v = .obj o → d = none → (m.object o).observer = none) : m.Walk m v d :=
  ⟨.refl m, .refl m, hwf, hc, hn⟩

theorem install_lookup {o : ObjRef} {k : String} {q : PropId} (hlt : o.idx < m.objects.size) :
    (({ m with objects := m.objects.modify o.idx fun c =>
      { c with slots := putSlot k (.tracked q) c.slots } } : Machine η).object o).slots.lookup k =
      some (.tracked q) := by
  rw [object_putSlot, if_pos ⟨rfl, hlt⟩, lookup_putSlot, if_pos rfl]

theorem Grown.observing (h : m.Grown m') : m'.observing = m.observing := by
  have := congrArg Machine.observing h.rest
  exact this

theorem WalkedSince.of_observers (ho : ∀ o, (m'.object o).observer = (m.object o).observer)
    (hl : ∀ l, (m'.listCell l).observer = (m.listCell l).observer) : m.WalkedSince m' :=
  ⟨fun o h h' => absurd (by rw [← ho, h'] : (m.object o).observer.isSome = true) (by rw [h]; simp),
    fun l h h' => absurd (by rw [← hl, h'] : (m.listCell l).observer.isSome = true) (by rw [h]; simp)⟩

theorem WalkedSince.of_attach {o : ObjRef} {d : DepId}
    (hw : ({ m with objects := m.objects.modify o.idx fun c =>
      { c with observer := some ⟨d, 0⟩ } } : Machine η).WalkedSince m') (ho : m'.Walked o) :
    m.WalkedSince m' := by
  refine ⟨fun o' h h' => ?_, fun l h h' => hw.2 l h h'⟩
  by_cases e : o' = o
  · subst e
    exact ho
  · refine hw.1 o' ?_ h'
    rw [object_modify, if_neg fun h => e h.1]
    exact h

theorem WalkedSince.of_attachList {l : ListRef} {d : DepId}
    (hw : ({ m with lists := m.lists.modify l.idx fun c =>
      { c with observer := some ⟨d, 0⟩ } } : Machine η).WalkedSince m') (hl : m'.WalkedList l) :
    m.WalkedSince m' := by
  refine ⟨fun o h h' => hw.1 o h h', fun l' h h' => ?_⟩
  by_cases e : l' = l
  · subst e
    exact hl
  · refine hw.2 l' ?_ h'
    rw [listCell_modify, if_neg fun h => e h.1]
    exact h

/-- The walk of an object attached in `mb` has reached `m`, with the keys `done` walked. -/
structure KeysWalked (mb m : Machine η) (o : ObjRef) (done : List String) : Prop where
  grown : mb.Grown m
  walked : mb.WalkedSince m
  slots : m.SlotsInRange
  keys : ∀ k ∈ done, m.TrackedAt o k ∧ m.covered (m.valueAt o k) = true

/-- `m` with one more claim on the observer of `v`, if it has one. -/
def bumped (m : Machine η) : Value → Machine η
  | .obj o => { m with objects := m.objects.modify o.idx fun c =>
      { c with observer := c.observer.map fun ob => { ob with rootCount := ob.rootCount + 1 } } }
  | .list l => { m with lists := m.lists.modify l.idx fun c =>
      { c with observer := c.observer.map fun ob => { ob with rootCount := ob.rootCount + 1 } } }
  | _ => m

theorem unobserved_le_size (m : Machine η) : m.unobserved ≤ m.objects.size + m.lists.size := by
  unfold unobserved
  have h₁ := List.countP_le_length (l := List.range m.objects.size)
    (p := fun i => (m.object ⟨i⟩).observer.isNone)
  have h₂ := List.countP_le_length (l := List.range m.lists.size)
    (p := fun i => (m.listCell ⟨i⟩).observer.isNone)
  simp only [List.length_range] at h₁ h₂
  omega

/-- The walk of a list attached in `mb` has reached `m`, with the items `done` walked. -/
structure ItemsWalked (mb m : Machine η) (done : List Value) : Prop where
  grown : mb.Grown m
  walked : mb.WalkedSince m
  slots : m.SlotsInRange
  items : ∀ v ∈ done, m.covered v = true

end Machine

namespace Eff

open Machine

theorem objPeek_run (o : ObjRef) (key : String) (m : Machine η) :
    ExceptT.run (objPeek o key) m = .ok (.ok (m.valueAt o key), m) := by
  unfold objPeek slot? Machine.valueAt
  simp only [bind_assoc, exec_get_bind, pure_bind]
  cases (m.object o).slots.lookup key with
  | none => rfl
  | some s => cases s <;> rfl

/-- A run of the walk at `fuel`, from every state with enough of it. -/
def Walks (fuel : Nat) : Prop :=
  ∀ (m : Machine η) v, m.SlotsInRange → 2 * m.unobserved < fuel →
    Sure (· = m) (observeWith fuel v false) fun r m' => ∃ d, r = .ok d ∧ m.Walk m' v d

theorem defineWith_run {fuel : Nat} (hobs : Walks (η := η) fuel) (m : Machine η) (o : ObjRef)
    (key : String) (v : Value) (hook : Option AssignHook) (shallow : Bool)
    (hwf : m.SlotsInRange) (hfuel : 2 * m.unobserved < fuel) :
    Sure (· = m) (defineWith (fuel + 1) o key v hook shallow) fun r m' => r = .ok () ∧
      ∃ m₂ dep child, m.Grown m₂ ∧ m.WalkedSince m₂ ∧ m₂.SlotsInRange ∧
        (shallow = false → m.observing = true → m₂.covered v = true) ∧
        ((∀ p, (m.object o).slots.lookup key ≠ some (.tracked p)) → dep = ⟨m.deps.size⟩) ∧
        m' = { m₂ with
          props := m₂.props.push ⟨v, dep, child, shallow, hook⟩
          objects := m₂.objects.modify o.idx fun c =>
            { c with slots := putSlot key (.tracked ⟨m₂.props.size⟩) c.slots } } := by
  -- after the set is settled, from `m₁`: the walk of the value, then the new property
  have hjp : ∀ (m₁ : Machine η) dep, m.Grown m₁ → m.WalkedSince m₁ → m₁.SlotsInRange →
      m₁.unobserved ≤ m.unobserved → Sure (· = m₁) (if shallow = true then do
          let child ← pure none
          let p ← newProp ⟨v, dep, child, shallow, hook⟩
          install o key (.tracked p)
        else do
          let child ← observeWith fuel v false
          let p ← newProp ⟨v, dep, child, shallow, hook⟩
          install o key (.tracked p)) fun r m' => r = .ok () ∧
      ∃ m₂ child, m.Grown m₂ ∧ m.WalkedSince m₂ ∧ m₂.SlotsInRange ∧
        (shallow = false → m.observing = true → m₂.covered v = true) ∧
        m' = { m₂ with
          props := m₂.props.push ⟨v, dep, child, shallow, hook⟩
          objects := m₂.objects.modify o.idx fun c =>
            { c with slots := putSlot key (.tracked ⟨m₂.props.size⟩) c.slots } } := by
    intro m₁ dep hg hw hwf₁ hle
    have hfin : ∀ (m₂ : Machine η) child, m.Grown m₂ → m.WalkedSince m₂ → m₂.SlotsInRange →
        (shallow = false → m.observing = true → m₂.covered v = true) →
        Sure (· = m₂) (do
          let p ← newProp ⟨v, dep, child, shallow, hook⟩
          install o key (.tracked p)) fun r m' => r = .ok () ∧
        ∃ m₂ child, m.Grown m₂ ∧ m.WalkedSince m₂ ∧ m₂.SlotsInRange ∧
          (shallow = false → m.observing = true → m₂.covered v = true) ∧
          m' = { m₂ with
            props := m₂.props.push ⟨v, dep, child, shallow, hook⟩
            objects := m₂.objects.modify o.idx fun c =>
              { c with slots := putSlot key (.tracked ⟨m₂.props.size⟩) c.slots } } :=
      fun m₂ child hg₂ hw₂ hwf₂ hc₂ =>
        Sure.newProp_bind (Sure.modify _ fun _ e => ⟨rfl, m₂, child, hg₂, hw₂, hwf₂, hc₂, e ▸ rfl⟩)
    refine Sure.ite _ (fun hs => Sure.run_bind rfl (hfin m₁ none hg hw hwf₁ fun h => ?_)) fun _ => ?_
    · rw [hs] at h
      cases h
    refine Sure.bind_ok (hobs m₁ v hwf₁ (by omega)) fun child => Sure.intro fun m₂ hwalk =>
      hfin m₂ child (hg.trans hwalk.grown) (hw.trans hwalk.grown hwalk.walked) hwalk.slots
        fun _ ho => hwalk.covered (by rw [hg.observing]; exact ho)
  unfold defineWith
  refine Sure.read_bind ?_
  dsimp only
  split
  · -- a tracked key keeps its set
    rename_i p hp
    refine Sure.bind_get fun _ e => ?_
    subst e
    refine Sure.run_bind rfl (Sure.conseq (hjp _ _ (.refl _) (.refl _) hwf le_rfl) (fun _ h => h) ?_)
    rintro _ _ ⟨hr, m₂, child, hg, hw, hwf₂, hc, rfl⟩
    exact ⟨hr, m₂, _, child, hg, hw, hwf₂, hc, fun h => absurd hp (h p), rfl⟩
  · -- any other key gets a new set
    refine Sure.newDep_bind (Sure.conseq (hjp _ _ (.newDep m) (.of_observers (fun _ => rfl) fun _ => rfl)
      (hwf.of_objects_eq rfl le_rfl) le_rfl) (fun _ h => h) ?_)
    rintro _ _ ⟨hr, m₂, child, hg, hw, hwf₂, hc, rfl⟩
    exact ⟨hr, m₂, _, child, hg, hw, hwf₂, hc, fun _ => rfl, rfl⟩

theorem keysOf_of_size_le {m : Machine η} {o : ObjRef} (h : m.objects.size ≤ o.idx) :
    m.keysOf o = [] := by
  unfold Machine.keysOf
  rw [object_of_size_le h]
  rfl

theorem items_of_size_le {m : Machine η} {l : ListRef} (h : m.lists.size ≤ l.idx) :
    (m.listCell l).items = [] := by
  rw [listCell_of_size_le h]
  rfl

theorem walkKeys {fuel : Nat} (hobs : Walks (η := η) fuel) {mb : Machine η} {o : ObjRef}
    (ho : (mb.object o).observer.isSome = true) (hon : mb.observing = true)
    (hwf : mb.SlotsInRange) (hfuel : 2 * mb.unobserved < fuel) :
    Sure (· = mb) (forIn (mb.keysOf o) PUnit.unit fun key _ => do
        let value ← objPeek o key
        defineWith (fuel + 1) o key value none false
        pure (ForInStep.yield PUnit.unit))
      fun r m => ∃ b, r = .ok b ∧ mb.KeysWalked m o (mb.keysOf o) := by
  refine Sure.conseq (Sure.forIn_list (fun done _ m => mb.KeysWalked m o done)
    fun pre a post _ hxs => ?_) (by rintro _ rfl; exact ⟨.refl _, .refl _, hwf, fun _ h => by cases h⟩)
    fun _ _ h => h
  refine Sure.intro fun mk hk => Sure.run_bind (objPeek_run o a mk) ?_
  have ha : a ∈ mb.keysOf o := by rw [hxs]; simp
  have hok : (mk.object o).observer.isSome = true := hk.grown.observed ho
  refine Sure.bind (defineWith_run hobs mk o a _ none false hk.slots
    (by have := hk.grown.unobserved_le; omega)) (fun _ => Sure.intro fun m' hd => ?_)
    fun _ _ h => by cases h.1
  obtain ⟨-, m₂, dep, child, hg₂, hw₂, hwf₂, hc₂, -, rfl⟩ := hd
  -- the new property, then the slot under `a`
  have hlt : o.idx < m₂.objects.size := by
    by_contra h
    rw [← hk.grown.keys, ← hg₂.keys, keysOf_of_size_le (Nat.le_of_not_lt h)] at ha
    cases ha
  have hv : mk.valueAt o a = m₂.valueAt o a := (hg₂.values o a).symm
  have hon' : mk.observing = true := by rw [hk.grown.observing]; exact hon
  -- `m₃` holds the new property, the final state its slot under `a`
  obtain ⟨m₃, hm₃⟩ : ∃ m₃ : Machine η,
      m₃ = { m₂ with props := m₂.props.push ⟨mk.valueAt o a, dep, child, false, none⟩ } := ⟨_, rfl⟩
  have hfin : ({ m₂ with
      props := m₂.props.push ⟨mk.valueAt o a, dep, child, false, none⟩
      objects := m₂.objects.modify o.idx fun c =>
        { c with slots := putSlot a (.tracked ⟨m₂.props.size⟩) c.slots } } : Machine η) =
      { m₃ with objects := m₃.objects.modify o.idx fun c =>
        { c with slots := putSlot a (.tracked ⟨m₂.props.size⟩) c.slots } } := by
    subst hm₃; rfl
  rw [hfin]
  have hnew : m₃.prop ⟨m₂.props.size⟩ = ⟨mk.valueAt o a, dep, child, false, none⟩ := by
    rw [hm₃, prop_push, if_pos rfl]
  have hg₃ : m₂.Grown m₃ := hm₃ ▸ Grown.newProp hwf₂ rfl
  have hwf₃ : m₃.SlotsInRange := hwf₂.of_objects_eq (by rw [hm₃]) (by rw [hm₃]; simp)
  have hlt₃ : o.idx < m₃.objects.size := by rw [hm₃]; exact hlt
  have hg₄ := Grown.install (m := m₃) (q := ⟨m₂.props.size⟩)
    (show a ∈ m₃.keysOf o by rw [hg₃.keys, hg₂.keys, hk.grown.keys]; exact ha)
    (by rw [hnew, hg₃.values, hv]) (by rw [hnew]) (by rw [hnew]; exact hg₃.covered (hc₂ rfl hon'))
  have hobs₄ : ∀ o', (({ m₃ with objects := m₃.objects.modify o.idx fun c =>
      { c with slots := putSlot a (.tracked ⟨m₂.props.size⟩) c.slots } } : Machine η).object o').observer =
      (m₂.object o').observer := by
    intro o'
    rw [object_putSlot, hm₃]
    split <;> rfl
  have hmk := (hg₂.trans hg₃).trans hg₄
  refine Sure.pure_at _ ⟨_, rfl, hk.grown.trans hmk,
    hk.walked.trans hmk (hw₂.trans (hg₃.trans hg₄) (.of_observers hobs₄ fun _ => by subst hm₃; rfl)),
    hwf₃.install (by rw [hm₃]; simp), fun k hk' => ?_⟩
  rcases List.mem_append.1 hk' with hk' | hk'
  · obtain ⟨ht, hc⟩ := hk.keys k hk'
    exact ⟨hmk.tracked o k hok ht, by rw [hmk.values]; exact hmk.covered hc⟩
  · rw [List.mem_singleton] at hk'
    subst hk'
    have hl := install_lookup (m := m₃) (k := k) (q := ⟨m₂.props.size⟩) hlt₃
    have hp : ({ m₃ with objects := m₃.objects.modify o.idx fun c =>
        { c with slots := putSlot k (.tracked ⟨m₂.props.size⟩) c.slots } } : Machine η).prop
          ⟨m₂.props.size⟩ = ⟨mk.valueAt o k, dep, child, false, none⟩ := hnew
    refine ⟨⟨_, hl, by rw [hp]⟩, ?_⟩
    unfold valueAt
    rw [hl]
    simp only [slotValue]
    rw [hp]
    exact (hg₃.trans hg₄).covered (hc₂ rfl hon')

theorem walkItems {fuel : Nat} (hobs : Walks (η := η) fuel) {mb : Machine η} {l : ListRef}
    (hon : mb.observing = true) (hwf : mb.SlotsInRange) (hfuel : 2 * mb.unobserved < fuel) :
    Sure (· = mb) (forIn (mb.listCell l).items PUnit.unit fun item _ => do
        let _ ← observeWith fuel item false
        pure (ForInStep.yield PUnit.unit))
      fun r m => ∃ b, r = .ok b ∧ mb.ItemsWalked m (mb.listCell l).items := by
  refine Sure.conseq (Sure.forIn_list (fun done _ m => mb.ItemsWalked m done)
    fun pre a post _ _ => ?_) (by rintro _ rfl; exact ⟨.refl _, .refl _, hwf, fun _ h => by cases h⟩)
    fun _ _ h => h
  refine Sure.intro fun mk hk => Sure.bind_ok
    (hobs mk a hk.slots (by have := hk.grown.unobserved_le; omega))
    fun _ => Sure.intro fun m' hw => Sure.pure_at _ ⟨_, rfl, ?_⟩
  have hon' : mk.observing = true := by rw [hk.grown.observing]; exact hon
  refine ⟨hk.grown.trans hw.grown, hk.walked.trans hw.grown hw.walked, hw.slots, fun v hv => ?_⟩
  rcases List.mem_append.1 hv with hv | hv
  · exact hw.grown.covered (hk.items v hv)
  · rw [List.mem_singleton] at hv
    subst hv
    exact hw.covered hon'

theorem attachObject_run {fuel : Nat} (ih : ∀ f < fuel + 1, Walks (η := η) f) {m : Machine η}
    {o : ObjRef} (hnone : (m.object o).observer = none) (hon : m.observing = true)
    (hwf : m.SlotsInRange) (hfuel : 2 * m.unobserved < fuel + 1) :
    Sure (· = m) (do
        let d ← newDep
        modifyObject o fun c => { c with observer := some ⟨d, 0⟩ }
        for key in ← objKeysUntracked o do
          let value ← objPeek o key
          defineWith fuel o key value none false
        pure (some d))
      fun r m' => ∃ d, r = .ok d ∧ m.Walk m' (.obj o) d := by
  refine Sure.newDep_bind (Sure.modify_bind (Sure.read_bind ?_))
  have hg₁ := (Grown.newDep m).trans (Grown.attach (m := { m with deps := m.deps.push {} }) hnone
    ⟨m.deps.size⟩)
  have hwf₁ := SlotsInRange.attach (m := { m with deps := m.deps.push {} }) hwf o ⟨m.deps.size⟩
  by_cases hlt : o.idx < m.objects.size
  · have hun : _ < m.unobserved :=
      unobserved_attach (m := { m with deps := m.deps.push {} }) hlt hnone ⟨m.deps.size⟩
    obtain ⟨f, rfl⟩ : ∃ f, fuel = f + 1 := ⟨fuel - 1, by omega⟩
    have ho₁ := attach_observed (m := { m with deps := m.deps.push {} }) hlt ⟨m.deps.size⟩
    refine Sure.bind_ok (walkKeys (ih f (by omega)) ho₁ hon hwf₁ (by omega))
      fun _ => Sure.intro fun m' hk => Sure.pure_at _ ⟨_, rfl, ?_⟩
    have ho' := hk.grown.observed ho₁
    refine ⟨hg₁.trans hk.grown, WalkedSince.of_attach hk.walked fun key hkey => ?_, hk.slots,
      fun _ => by simp [covered, ho'], fun _ _ h => by cases h⟩
    rw [hk.grown.keys] at hkey
    exact hk.keys key hkey
  · refine Sure.bind_ok (Sure.forIn_nil (keysOf_of_size_le (by simpa using Nat.le_of_not_lt hlt)))
      fun _ => Sure.intro fun m' e => Sure.pure_at _ ⟨_, rfl, ?_⟩
    subst e
    refine ⟨hg₁, .of_observers (fun o' => ?_) fun _ => rfl, hwf₁, fun _ => by simp [covered, hlt],
      fun _ _ h => by cases h⟩
    rw [object_modify, if_neg fun h => hlt h.2]
    rfl

theorem attachList_run {fuel : Nat} (ih : ∀ f < fuel + 1, Walks (η := η) f) {m : Machine η}
    {l : ListRef} (hnone : (m.listCell l).observer = none) (hon : m.observing = true)
    (hwf : m.SlotsInRange) (hfuel : 2 * m.unobserved < fuel + 1) :
    Sure (· = m) (do
        let d ← newDep
        modifyList l fun c => { c with observer := some ⟨d, 0⟩ }
        for item in ← itemsUntracked l do
          let _ ← observeWith fuel item false
        pure (some d))
      fun r m' => ∃ d, r = .ok d ∧ m.Walk m' (.list l) d := by
  refine Sure.newDep_bind (Sure.modify_bind (Sure.read_bind ?_))
  have hg₁ := (Grown.newDep m).trans (Grown.attachList (m := { m with deps := m.deps.push {} })
    hnone ⟨m.deps.size⟩)
  have hwf₁ : SlotsInRange { { m with deps := m.deps.push {} } with
      lists := m.lists.modify l.idx fun c => { c with observer := some ⟨⟨m.deps.size⟩, 0⟩ } } := hwf
  by_cases hlt : l.idx < m.lists.size
  · have hun : _ < m.unobserved :=
      unobserved_attachList (m := { m with deps := m.deps.push {} }) hlt hnone ⟨m.deps.size⟩
    have hl₁ := attachList_observed (m := { m with deps := m.deps.push {} }) hlt ⟨m.deps.size⟩
    refine Sure.bind_ok (walkItems (ih fuel (by omega)) hon hwf₁ (by omega))
      fun _ => Sure.intro fun m' hk => Sure.pure_at _ ⟨_, rfl, ?_⟩
    have hl' := hk.grown.listObserved hl₁
    refine ⟨hg₁.trans hk.grown, WalkedSince.of_attachList hk.walked fun v hv => ?_, hk.slots,
      fun _ => by simp [covered, hl'], fun _ h => by cases h⟩
    rw [hk.grown.items] at hv
    exact hk.items v hv
  · refine Sure.bind_ok (Sure.forIn_nil (items_of_size_le (by simpa using Nat.le_of_not_lt hlt)))
      fun _ => Sure.intro fun m' e => Sure.pure_at _ ⟨_, rfl, ?_⟩
    subst e
    refine ⟨hg₁, .of_observers (fun _ => rfl) fun l' => ?_, hwf₁, fun _ => by simp [covered, hlt],
      fun _ h => by cases h⟩
    rw [listCell_modify, if_neg fun h => hlt h.2]
    rfl

theorem walks (fuel : Nat) : Walks (η := η) fuel := by
  induction fuel using Nat.strong_induction_on with
  | _ fuel ih =>
  intro m v hwf hfuel
  cases fuel with
  | zero => omega
  | succ fuel =>
  unfold observeWith
  simp only [Bool.false_and, Bool.false_eq_true, ↓reduceIte, pure_bind]
  split
  · rename_i o
    refine Sure.bind_get fun _ e => ?_
    subst e
    split
    · rename_i ob hob
      refine Sure.pure_at _ ⟨_, rfl, .refl hwf (fun _ => ?_) fun _ _ h => by cases h⟩
      simp [Machine.covered, hob]
    · rename_i hnone
      refine Sure.ite _ (fun hc => ?_) fun hc => Sure.pure_at _ ⟨_, rfl, .refl hwf
        (fun ho => ?_) fun _ e _ => by cases e; exact hnone⟩
      · exact attachObject_run ih hnone (by simp_all) hwf hfuel
      · rw [ho] at hc
        simp [Machine.covered] at hc ⊢
        exact .inr hc
  · rename_i l
    refine Sure.bind_get fun _ e => ?_
    subst e
    split
    · rename_i ob hob
      refine Sure.pure_at _ ⟨_, rfl, .refl hwf (fun _ => ?_) fun _ h => by cases h⟩
      simp [Machine.covered, hob]
    · rename_i hnone
      refine Sure.ite _ (fun hc => ?_) fun hc => Sure.pure_at _ ⟨_, rfl, .refl hwf
        (fun ho => ?_) fun _ h => by cases h⟩
      · exact attachList_run ih hnone (by simp_all) hwf hfuel
      · rw [ho] at hc
        simp [Machine.covered] at hc ⊢
        exact .inr hc
  · rename_i hno hnl
    have hc : m.covered v = true := by
      cases v with
      | obj o => exact absurd rfl (hno o)
      | list l => exact absurd rfl (hnl l)
      | _ => rfl
    exact Sure.pure_at _ ⟨_, rfl, .refl hwf (fun _ => hc) fun o h => absurd h (hno o)⟩

theorem observeWith_succ (fuel : Nat) (v : Value) (asRoot : Bool) :
    (observeWith (fuel + 1) v asRoot : Eff η (Option DepId)) =
      observeWith (fuel + 1) v false >>= fun r => do
        if asRoot && r.isSome then bumpRoot v
        return r := by
  cases v with
  | obj o =>
    simp only [observeWith, Bool.false_and, Bool.false_eq_true, ↓reduceIte, bind_pure, bind_assoc]
    congr 1; funext m
    split
    · simp
    · split <;> simp
  | list l =>
    simp only [observeWith, Bool.false_and, Bool.false_eq_true, ↓reduceIte, bind_pure, bind_assoc]
    congr 1; funext m
    split
    · simp
    · split <;> simp
  | _ => simp [observeWith]

theorem bumpRoot_run (v : Value) (m : Machine η) :
    ExceptT.run (bumpRoot v : Eff η Unit) m = .ok (.ok (), m.bumped v) := by
  cases v <;> rfl

theorem observe_run (m : Machine η) (v : Value) (asRoot : Bool) (hwf : m.SlotsInRange) :
    Sure (· = m) (observe v asRoot) fun r m' => ∃ d, r = .ok d ∧ ∃ m₁, m.Walk m₁ v d ∧
      m' = if asRoot && d.isSome then m₁.bumped v else m₁ := by
  unfold observe containerCount
  refine Sure.read_bind ?_
  rw [observeWith_succ]
  refine Sure.bind_ok (walks _ m v hwf (by have := m.unobserved_le_size; omega))
    fun d => Sure.intro fun m₁ hw => ?_
  dsimp only
  split
  · rename_i hb
    exact Sure.run_bind (bumpRoot_run v m₁) (Sure.pure_at _ ⟨_, rfl, m₁, hw, by rw [if_pos hb]⟩)
  · rename_i hb
    exact Sure.pure_at _ ⟨_, rfl, m₁, hw, by rw [if_neg hb]⟩

theorem defineReactive_run (m : Machine η) (o : ObjRef) (key : String) (v : Value)
    (hook : Option AssignHook) (shallow : Bool) (hwf : m.SlotsInRange) :
    Sure (· = m) (defineReactive o key v hook shallow) fun r m' => r = .ok () ∧
      ∃ m₂ dep child, m.Grown m₂ ∧ m.WalkedSince m₂ ∧ m₂.SlotsInRange ∧
        (shallow = false → m.observing = true → m₂.covered v = true) ∧
        ((∀ p, (m.object o).slots.lookup key ≠ some (.tracked p)) → dep = ⟨m.deps.size⟩) ∧
        m' = { m₂ with
          props := m₂.props.push ⟨v, dep, child, shallow, hook⟩
          objects := m₂.objects.modify o.idx fun c =>
            { c with slots := putSlot key (.tracked ⟨m₂.props.size⟩) c.slots } } := by
  unfold defineReactive containerCount
  refine Sure.read_bind ?_
  exact defineWith_run (walks _) m o key v hook shallow hwf
    (by have := m.unobserved_le_size; omega)

end Eff

end Reactivity

import Reactivity.Proofs.ListEdits
import Reactivity.Proofs.RootLedger

/-!
# Object writes and deletions refine an insertion-ordered map

A write of a key an object has replaces the key's value in place, keeping the order of the
keys: a plain key at once, a tracked key through its property, which checks the value against
the old one, runs its assign hook, observes the new value unless it is shallow, stores it, and
notifies the property's set once. A write of a new key is refused with a warning on root data;
it appends a plain key to an unobserved object, and to an observed one a tracked property with
a fresh set, holding the value, then notifies the object's own set once. A deletion is refused
on root data, does nothing when the key is absent, and otherwise drops the key, keeping the
order of the others, and notifies the object's set once if the object is observed.
`object_api_refines` collects these facts.

A key then reads back the value written as long as host code leaves the object alone, except
for one case: a deep tracked key of an unobserved object. The new value is observed before it
is stored, and when the object can be reached from it, the walk observes the object and puts a
new property, holding the old value, under each of its keys; the value is then stored in the
property the write had found, which no key holds any more
(`set_tracked_key_through_unobserved_walk`).
-/

namespace Reactivity

variable {η α : Type}

namespace Machine

variable {m m₀ : Machine η} {o o' : ObjRef} {k : String}

/-- The set a change of the keys of `o` notifies: the object's own, if the object is observed. -/
def objectDep (m : Machine η) (o : ObjRef) : Option DepId := (m.object o).observer.map (·.dep)

/-- `m` with the key `k` of `o` dropped. -/
def withoutKey (m : Machine η) (o : ObjRef) (k : String) : Machine η :=
  { m with objects := m.objects.modify o.idx fun c => { c with slots := c.slots.filter (·.1 ≠ k) } }

/-- `m` with `v` stored in the property `p`, `child` the set of its observer. -/
def stored (m : Machine η) (p : PropId) (v : Value) (child : Option DepId) : Machine η :=
  { m with props := m.props.modify p.idx fun c => { c with value := v, childDep := child } }

/-- `m` with a new deep property under the key `k` of `o`, holding `v`, notifying `dep`, and
`child` the set of the value's observer. -/
def defined (m : Machine η) (o : ObjRef) (k : String) (v : Value) (dep : DepId)
    (child : Option DepId) : Machine η :=
  ({ m with props := m.props.push ⟨v, dep, child, false, none⟩ } : Machine η).withSlot o k
    (.tracked ⟨m.props.size⟩)

/-- The value `v` put in a property was observed on the way from `m` to `m'`, and `child` is
the set of its observer: not at all for a shallow property, by a walk for a deep one. -/
def Reobserved (shallow : Bool) (m m' : Machine η) (v : Value) (child : Option DepId) : Prop :=
  if shallow then m' = m ∧ child = none else m.Walk m' v child

/-- The objects observed in `m₀` are still observed in `m`, with the slots they had. -/
def KeepsObserved (m₀ m : Machine η) : Prop :=
  ∀ o, (m₀.object o).observer.isSome →
    (m.object o).observer.isSome ∧ (m.object o).slots = (m₀.object o).slots

/-! ## Keys and values after a write -/

theorem lt_of_mem_keysOf (h : k ∈ m.keysOf o) : o.idx < m.objects.size := by
  by_contra hlt
  rw [Eff.keysOf_of_size_le (Nat.le_of_not_lt hlt)] at h
  cases h

theorem isSome_lookup_iff : ((m.object o).slots.lookup k).isSome ↔ k ∈ m.keysOf o := by
  constructor
  · intro h
    obtain ⟨s, hs⟩ := Option.isSome_iff_exists.1 h
    exact List.mem_map.2 ⟨_, mem_of_lookup hs, rfl⟩
  · intro h
    obtain ⟨s, hs⟩ := lookup_of_mem_keys h
    rw [hs]
    rfl

theorem keysOf_withSlot_of_mem (h : k ∈ m.keysOf o) (s : Slot) (o' : ObjRef) :
    (m.withSlot o k s).keysOf o' = m.keysOf o' := by
  unfold keysOf withSlot
  rw [object_modify]
  split
  · rename_i ho
    obtain ⟨rfl, -⟩ := ho
    exact putSlot_keys s h
  · rfl

theorem keysOf_withSlot_of_not_mem (hlt : o.idx < m.objects.size) (h : k ∉ m.keysOf o)
    (s : Slot) : (m.withSlot o k s).keysOf o = m.keysOf o ++ [k] := by
  unfold keysOf withSlot
  rw [object_modify, if_pos ⟨rfl, hlt⟩]
  exact Eff.putSlot_new_keys s h

theorem valueAt_withSlot_self (hlt : o.idx < m.objects.size) (k : String) (s : Slot) :
    (m.withSlot o k s).valueAt o k = m.slotValue s := by
  rw [valueAt_withSlot, if_pos ⟨rfl, hlt, rfl⟩]

theorem keysOf_withoutKey (hlt : o.idx < m.objects.size) (k : String) :
    (m.withoutKey o k).keysOf o = (m.keysOf o).filter (· ≠ k) := by
  unfold keysOf withoutKey
  rw [object_modify, if_pos ⟨rfl, hlt⟩, List.filter_map]
  rfl

@[simp] theorem object_stored (p : PropId) (v : Value) (child : Option DepId) :
    (m.stored p v child).object o = m.object o := rfl

theorem valueAt_stored {p : PropId} (hk : (m.object o).slots.lookup k = some (.tracked p))
    (hp : p.idx < m.props.size) (v : Value) (child : Option DepId) :
    (m.stored p v child).valueAt o k = v := by
  simp only [valueAt, object_stored, hk, slotValue]
  rw [stored, prop_modify, if_pos ⟨rfl, hp⟩]

theorem keysOf_defined (hlt : o.idx < m.objects.size) (h : k ∉ m.keysOf o) (v : Value)
    (dep : DepId) (child : Option DepId) :
    (m.defined o k v dep child).keysOf o = m.keysOf o ++ [k] :=
  keysOf_withSlot_of_not_mem (m := { m with props := m.props.push ⟨v, dep, child, false, none⟩ })
    hlt h _

theorem valueAt_defined (hlt : o.idx < m.objects.size) (k : String) (v : Value) (dep : DepId)
    (child : Option DepId) : (m.defined o k v dep child).valueAt o k = v := by
  rw [defined, valueAt_withSlot_self
    (m := { m with props := m.props.push ⟨v, dep, child, false, none⟩ }) hlt]
  show (({ m with props := m.props.push ⟨v, dep, child, false, none⟩ } : Machine η).prop
    ⟨m.props.size⟩).value = v
  rw [prop_push, if_pos rfl]

/-! ## Observation leaves observed objects alone -/

theorem KeepsObserved.refl (m : Machine η) : m.KeepsObserved m := fun _ h => ⟨h, rfl⟩

theorem KeepsObserved.modify (h : m₀.KeepsObserved m) {f : ObjectCell → ObjectCell}
    (hf : (m₀.object o).observer.isSome → ∀ c : ObjectCell, c.observer.isSome →
      (f c).observer.isSome ∧ (f c).slots = c.slots) :
    m₀.KeepsObserved { m with objects := m.objects.modify o.idx f } := by
  intro o' ho'
  obtain ⟨hs, hsl⟩ := h o' ho'
  rw [object_modify]
  split
  · rename_i he
    obtain ⟨rfl, -⟩ := he
    obtain ⟨hs', hsl'⟩ := hf ho' _ hs
    exact ⟨hs', hsl'.trans hsl⟩
  · exact ⟨hs, hsl⟩

end Machine

namespace Eff

open Machine

/-! ## Observation walks only what has no observer -/

/-- Observation leaves the objects observed when it starts as they are: it walks only
containers without an observer, and changes the slots only of the object it walks. One
induction on the fuel, shared by the walk and the definition of each walked key. -/
theorem keepsObserved_observeWith (m₀ : Machine η) (fuel : Nat) :
    (∀ v asRoot, Keeps (m₀.KeepsObserved ·) (observeWith fuel v asRoot : Eff η (Option DepId))) ∧
    ∀ o key v hook shallow, (m₀.object o).observer.isSome = false →
      Keeps (m₀.KeepsObserved ·) (defineWith fuel o key v hook shallow : Eff η Unit) := by
  have hnewDep : Keeps (m₀.KeepsObserved ·) (newDep : Eff η DepId) :=
    Keeps.get_set_bind (fun _ hm => hm) fun _ _ => Keeps.pure _
  have hnewProp : ∀ p, Keeps (m₀.KeepsObserved ·) (newProp p : Eff η PropId) := fun _ =>
    Keeps.get_set_bind (fun _ hm => hm) fun _ _ => Keeps.pure _
  have hbump : ∀ v, Keeps (m₀.KeepsObserved ·) (bumpRoot v : Eff η Unit) := by
    intro v
    unfold bumpRoot
    split
    · exact Keeps.modify fun _ hm => hm.modify fun _ c hc => ⟨by simpa using hc, rfl⟩
    · exact Keeps.modify fun _ hm => hm
    · exact Keeps.pure _
  induction fuel with
  | zero => exact ⟨fun _ _ => Keeps.halt _, fun _ _ _ _ _ _ => Keeps.halt _⟩
  | succ fuel ih =>
    refine ⟨fun v asRoot => ?_, fun o key v hook shallow ho => ?_⟩
    · unfold observeWith
      -- every branch ends in the same join point: bump the root count, return the set
      have hjp := fun r : Option DepId => Keeps.ite ((asRoot && r.isSome) = true)
        (Keeps.bind (hbump v) fun _ => Keeps.pure r) (Keeps.pure (I := (m₀.KeepsObserved ·)) r)
      dsimp only
      split
      · rename_i o
        refine Keeps.bind_get fun m hm => ?_
        split
        · exact (Keeps.bind (Keeps.pure _) hjp).triple hm
        · rename_i hnone
          -- an object with no observer now had none in `m₀`: its walk may rewrite it
          have ho : (m₀.object o).observer.isSome = false := by
            cases hs : (m₀.object o).observer.isSome
            · rfl
            · have := (hm o hs).1
              rw [hnone] at this
              cases this
          refine (Keeps.ite _ ?_ (Keeps.bind (Keeps.pure _) hjp)).triple hm
          exact Keeps.bind hnewDep fun d =>
            Keeps.bind (Keeps.modify fun _ hm => hm.modify fun _ _ _ => ⟨rfl, rfl⟩) fun _ =>
            Keeps.bind (Stable.objKeysUntracked _) fun keys => Keeps.bind (Keeps.forIn_list
              fun key _ => Keeps.bind (Stable.objPeek _ _) fun _ =>
                Keeps.bind (ih.2 _ _ _ _ _ ho) fun _ => Keeps.pure _) fun _ =>
              Keeps.bind (Keeps.pure _) hjp
      · refine Keeps.bind Keeps.get fun m => ?_
        split
        · exact Keeps.bind (Keeps.pure _) hjp
        · refine Keeps.ite _ ?_ (Keeps.bind (Keeps.pure _) hjp)
          exact Keeps.bind hnewDep fun d => Keeps.bind (Keeps.modify fun _ hm => hm) fun _ =>
            Keeps.bind (Stable.itemsUntracked _) fun items => Keeps.bind (Keeps.forIn_list
              fun item _ => Keeps.bind (ih.1 _ _) fun _ => Keeps.pure _) fun _ =>
              Keeps.bind (Keeps.pure _) hjp
      · exact Keeps.bind (Keeps.pure _) hjp
    · unfold defineWith
      have hrest : ∀ dep child, Keeps (m₀.KeepsObserved ·) (do
          let p ← newProp ⟨v, dep, child, shallow, hook⟩
          install o key (.tracked p) : Eff η Unit) := fun _ _ =>
        Keeps.bind (hnewProp _) fun _ => Keeps.modify fun _ hm => hm.modify fun hs => by
          rw [ho] at hs
          cases hs
      -- the property's set is settled first; the rest runs the same for either
      have hjp := fun dep => Keeps.ite (shallow = true) (Keeps.bind (Keeps.pure none) (hrest dep))
        (Keeps.bind (ih.1 v false) (hrest dep))
      refine Keeps.bind (Stable.slot? o key) fun s => ?_
      dsimp only
      split
      · exact Keeps.bind Keeps.get fun _ => Keeps.bind (Keeps.pure _) hjp
      · exact Keeps.bind hnewDep hjp

theorem observe_keepsObserved (m₀ : Machine η) (v : Value) (asRoot : Bool) :
    Keeps (m₀.KeepsObserved ·) (observe v asRoot : Eff η (Option DepId)) :=
  Keeps.bind Stable.containerCount fun _ => (keepsObserved_observeWith m₀ _).1 v asRoot

/-! ## What each case of a write runs -/

variable (r : Runner η) {m : Machine η} {o : ObjRef}

theorem set_present_run (key : Key) (v : Value) (hk : key.toName ∈ m.keysOf o) :
    ExceptT.run (set r (.obj o) key v) m = ExceptT.run (do objPut r o key.toName v; pure v) m := by
  simp only [set, hasOwn, bind_assoc, exec_get_bind, pure_bind, isSome_lookup_iff.2 hk, if_true]

theorem objPut_plain_run {k : String} {u : Value}
    (hk : (m.object o).slots.lookup k = some (.plain u)) (v : Value) :
    ExceptT.run (objPut r o k v) m = .ok (.ok (), m.withSlot o k (.plain v)) := by
  simp only [objPut, slot?, bind_assoc, exec_get_bind, pure_bind, hk]
  rfl

theorem objPut_tracked_run {k : String} {p : PropId}
    (hk : (m.object o).slots.lookup k = some (.tracked p)) (v : Value) :
    ExceptT.run (objPut r o k v) m = ExceptT.run (propSet r p v) m := by
  simp only [objPut, slot?, bind_assoc, exec_get_bind, pure_bind, hk]

theorem propSet_same_run {p : PropId} {v : Value} (hs : (m.prop p).value.same v = true) :
    ExceptT.run (propSet r p v) m = .ok (.ok (), m) := by
  simp only [propSet, exec_get_bind, hs, if_true]
  rfl

theorem assign_noFault (hook : Option AssignHook) : NoFault (assign r hook) := by
  unfold assign
  split
  · exact NoFault.pure _
  · exact perform_noFault r _
  · exact NoFault.bind NoFault.get fun _ => NoFault.ite _ (warn_noFault _) (NoFault.pure _)

theorem propSet_changed_run {p : PropId} {v : Value} (hs : (m.prop p).value.same v = false)
    {m₁ : Machine η} (hhook : ExceptT.run (assign r (m.prop p).hook) m = .ok (.ok (), m₁))
    (hwf : m₁.SlotsInRange) :
    ∃ m₂ child, m₁.Reobserved (m.prop p).shallow m₂ v child ∧ m₁.KeepsObserved m₂ ∧
      ExceptT.run (propSet r p v) m = ExceptT.run (notify r (m.prop p).dep) (m₂.stored p v child) := by
  simp only [propSet, exec_get_bind, hs, Bool.false_eq_true, ↓reduceIte]
  rw [exec_bind, hhook]
  cases hsh : (m.prop p).shallow
  · obtain ⟨_, m₂, hrun, child, rfl, hwalk⟩ := observe_walk hwf v m₁ rfl
    refine ⟨m₂, child, by simpa [Reobserved] using hwalk,
      observe_keepsObserved m₁ v false m₁ (.refl m₁) _ m₂ hrun, ?_⟩
    simp only [Bool.false_eq_true, ↓reduceIte]
    rw [exec_bind, hrun]
    rfl
  · refine ⟨m₁, none, by simp [Reobserved], .refl m₁, ?_⟩
    rfl

theorem set_append_run (key : Key) (v : Value) (hk : key.toName ∉ m.keysOf o)
    (hob : (m.object o).observer = none) :
    ExceptT.run (set r (.obj o) key v) m = .ok (.ok v, m.withSlot o key.toName (.plain v)) := by
  have hnone := lookup_eq_none_of_keys hk
  simp only [set, hasOwn, rootCount, bind_assoc, exec_get_bind, pure_bind, hnone, hob,
    Option.isSome_none, Option.map_none, Option.getD_none, Nat.lt_irrefl, Bool.false_eq_true,
    ↓reduceIte]
  rw [exec_bind, objPut_new_run r v hnone]
  rfl

theorem set_define_run (key : Key) (v : Value) (hwf : m.SlotsInRange)
    (hk : key.toName ∉ m.keysOf o) {ob : Observer} (hob : (m.object o).observer = some ob)
    (hc : ob.rootCount = 0) :
    ∃ m₂ child, m.Grown m₂ ∧ m.WalkedSince m₂ ∧ m₂.SlotsInRange ∧
      ExceptT.run (set r (.obj o) key v) m =
        ExceptT.run (do notify r ob.dep; pure v) (m₂.defined o key.toName v ⟨m.deps.size⟩ child) := by
  have hnone := lookup_eq_none_of_keys hk
  obtain ⟨_, _, hdef, rfl, m₂, dep, child, hg, hw, hwf₂, -, hdep, rfl⟩ :=
    defineReactive_run m o key.toName v none false hwf m rfl
  -- the key was new, so its set is too
  obtain rfl : dep = ⟨m.deps.size⟩ := hdep fun p h => by rw [hnone] at h; cases h
  refine ⟨m₂, child, hg, hw, hwf₂, ?_⟩
  simp only [set, hasOwn, rootCount, bind_assoc, exec_get_bind, pure_bind, hnone, hob, hc,
    Option.isSome_none, Option.map_some, Option.getD_some, Nat.lt_irrefl, Bool.false_eq_true,
    ↓reduceIte]
  rw [exec_bind, hdef]
  rfl

theorem remove_absent_run (key : Key) (hk : key.toName ∉ m.keysOf o) (hc : m.rootCountOf o = 0) :
    ExceptT.run (remove r (.obj o) key) m = .ok (.ok (), m) := by
  unfold rootCountOf at hc
  simp only [remove, hasOwn, rootCount, bind_assoc, exec_get_bind, pure_bind, hc,
    lookup_eq_none_of_keys hk, Option.isSome_none, Bool.not_false, Nat.lt_irrefl, ↓reduceIte]
  rfl

theorem remove_present_run (key : Key) (hk : key.toName ∈ m.keysOf o) (hc : m.rootCountOf o = 0) :
    ExceptT.run (remove r (.obj o) key) m =
      ExceptT.run (announce r (m.objectDep o)) (m.withoutKey o key.toName) := by
  unfold rootCountOf at hc
  simp only [remove, hasOwn, rootCount, modifyObject, bind_assoc, exec_get_bind, exec_modify_bind,
    pure_bind, hc, isSome_lookup_iff.2 hk, Bool.not_true, Bool.false_eq_true, Nat.lt_irrefl,
    ↓reduceIte]
  unfold objectDep
  cases (m.object o).observer <;> rfl

/-! ## What host code and notifications leave alone -/

end Eff

/-- `I` looks at nothing but the objects and the properties. -/
def OnObjects (I : Machine η → Prop) : Prop :=
  ∀ m m' : Machine η, m'.objects = m.objects → m'.props = m.props → I m → I m'

namespace OnObjects

variable {I : Machine η → Prop} (hI : OnObjects I) {r : Runner η}
  (hr : ∀ c a, Keeps I (r.invoke c a))
include hI

theorem offTables : OffTables I := fun m _ _ _ _ _ _ _ h => hI m _ rfl rfl h

theorem offSchedule : OffSchedule I := fun m _ _ _ _ _ h => hI m _ rfl rfl h

theorem eval : Stable.Eval I := hI.offTables.eval fun m _ h => hI m _ rfl rfl h

include hr

theorem announce (d : Option DepId) : Keeps I (Eff.announce r d) := by
  cases d with
  | none => exact Keeps.pure _
  | some d => exact hI.eval.notify hI.offSchedule hr d

theorem assign (hook : Option AssignHook) : Keeps I (Eff.assign r hook) := by
  unfold Eff.assign
  split
  · exact Keeps.pure _
  · exact Stable.perform hr _
  · exact Keeps.bind Keeps.get fun _ => Keeps.ite _ (hI.offTables.base.warn _) (Keeps.pure _)

end OnObjects

theorem onObjects_slotsInRange : OnObjects (Machine.SlotsInRange (η := η)) :=
  fun _ _ ho hp h => h.of_objects_eq ho (by rw [hp])

theorem onObjects_object (o : ObjRef) (C : ObjectCell) (E : String → Value) :
    OnObjects fun m : Machine η => m.object o = C ∧ ∀ k, m.valueAt o k = E k := by
  intro m m' ho hp ⟨hc, hv⟩
  have hobj : m'.object o = m.object o := by unfold Machine.object; rw [ho]
  exact ⟨hobj.trans hc, fun k => (Machine.valueAt_eq (by rw [hobj]) hp).trans (hv k)⟩

/-- Host code leaves the object `o` alone: it keeps the object's cell, the value under each of
its keys, and every tracked slot's property in the table. -/
def LeavesObject (r : Runner η) (o : ObjRef) : Prop :=
  ∀ c a, (∀ (C : ObjectCell) (E : String → Value),
      Keeps (fun m => m.object o = C ∧ ∀ k, m.valueAt o k = E k) (r.invoke c a)) ∧
    Keeps Machine.SlotsInRange (r.invoke c a)

namespace Eff

open Machine

variable (r : Runner η) {m : Machine η} {o : ObjRef}

theorem then_pure {I : Machine η → Prop} {x : Eff η Unit} (hn : NoFault x) (hk : Keeps I x)
    {a : α} {s m' : Machine η} {res : Except Fault α} (hs : I s)
    (h : ExceptT.run (do x; pure a) s = .ok (res, m')) : res = .ok a ∧ I m' := by
  rw [exec_bind] at h
  rcases hx : ExceptT.run x s with _ | ⟨_ | u, m₂⟩
  · rw [hx] at h
    cases h
  · obtain ⟨_, h'⟩ := hn s trivial _ _ hx
    cases h'
  · rw [hx] at h
    cases h
    exact ⟨rfl, hk s hs _ _ hx⟩

theorem assign_ends {β : Type} {p : PropId} {v : Value} (hs : (m.prop p).value.same v = false)
    {k : Unit → Eff η β} {res : Except Fault β} {m' : Machine η}
    (h : ExceptT.run (propSet r p v >>= k) m = .ok (res, m')) :
    ∃ m₁, ExceptT.run (assign r (m.prop p).hook) m = .ok (.ok (), m₁) := by
  rw [exec_bind] at h
  rcases hp : ExceptT.run (propSet r p v) m with _ | ⟨_, _⟩
  · rw [hp] at h
    cases h
  · simp only [propSet, exec_get_bind, hs, Bool.false_eq_true, ↓reduceIte] at hp
    rw [exec_bind] at hp
    rcases ha : ExceptT.run (assign r (m.prop p).hook) m with _ | ⟨_ | u, m₁⟩
    · rw [ha] at hp
      cases hp
    · obtain ⟨_, h'⟩ := assign_noFault r _ m trivial _ _ ha
      cases h'
    · exact ⟨m₁, rfl⟩

/-! ## A written key reads back -/

section Holds

variable {r} (hr : LeavesObject r o)
include hr

theorem notify_leaves (s : Machine η) (d : DepId) :
    Keeps (fun m => m.object o = s.object o ∧ ∀ k, m.valueAt o k = s.valueAt o k) (notify r d) :=
  (onObjects_object o _ _).announce (fun c a => (hr c a).1 _ _) (some d)

theorem set_tracked_holds {key : Key} {v : Value} {p : PropId} {m' : Machine η}
    {res : Except Fault Value} (hwf : m.SlotsInRange)
    (hlk : (m.object o).slots.lookup key.toName = some (.tracked p))
    (hdeep : (m.object o).observer.isSome ∨ (m.prop p).shallow = true)
    (hrun : ExceptT.run (propSet r p v >>= fun _ => pure v) m = .ok (res, m')) :
    res = .ok v ∧ (m'.valueAt o key.toName = v ∨ (m'.valueAt o key.toName).same v = true) := by
  cases hsame : (m.prop p).value.same v
  · obtain ⟨m₁, hhook⟩ := assign_ends r hsame hrun
    -- the hook leaves the object and the table of properties as they were
    have hwf₁ : m₁.SlotsInRange :=
      onObjects_slotsInRange.assign (fun c a => (hr c a).2) _ m hwf _ _ hhook
    have hcell : m₁.object o = m.object o :=
      ((onObjects_object o _ _).assign (fun c a => (hr c a).1 _ _) _ m
        ⟨rfl, fun _ => rfl⟩ _ _ hhook).1
    obtain ⟨m₂, child, hre, hkept, hps⟩ := propSet_changed_run r hsame hhook hwf₁
    -- the walk of the value, if any, leaves the slot alone: the object is observed
    have hslot : (m₂.object o).slots.lookup key.toName = some (.tracked p) ∧ m₂.SlotsInRange := by
      unfold Reobserved at hre
      split at hre
      · obtain ⟨rfl, -⟩ := hre
        exact ⟨by rw [hcell, hlk], hwf₁⟩
      · rename_i hsh
        have hobs : (m.object o).observer.isSome := hdeep.resolve_right hsh
        rw [(hkept o (hcell ▸ hobs)).2, hcell]
        exact ⟨hlk, hre.slots⟩
    have hp₂ : p.idx < m₂.props.size := hslot.2 o _ p (mem_of_lookup hslot.1)
    rw [run_bind_congr hps] at hrun
    obtain ⟨hres, -, hv⟩ := then_pure (notify_noFault r _) (notify_leaves hr _ _)
      ⟨rfl, fun _ => rfl⟩ hrun
    exact ⟨hres, .inl ((hv _).trans (valueAt_stored hslot.1 hp₂ v child))⟩
  · rw [exec_bind, propSet_same_run r hsame] at hrun
    cases hrun
    refine ⟨rfl, .inr ?_⟩
    simp only [valueAt, hlk, slotValue]
    exact hsame

/-- After a write of `v` under a key of `o` returns, unless it was refused as a new key of root
data, the key reads `v`, or the property's own value when that was the same as `v`, as long as
host code leaves `o` alone and the key is no deep tracked property of an unobserved object. The
write's result is `v`. -/
theorem set_holds {key : Key} {v : Value} {m' : Machine η} {res : Except Fault Value}
    (hwf : m.SlotsInRange) (hlt : o.idx < m.objects.size)
    (hadd : key.toName ∈ m.keysOf o ∨ m.rootCountOf o = 0)
    (hdeep : (m.object o).observer.isSome ∨
      ∀ p, (m.object o).slots.lookup key.toName = some (.tracked p) → (m.prop p).shallow = true)
    (hrun : ExceptT.run (set r (.obj o) key v) m = .ok (res, m')) :
    res = .ok v ∧ (m'.valueAt o key.toName = v ∨ (m'.valueAt o key.toName).same v = true) := by
  rcases hlk : (m.object o).slots.lookup key.toName with _ | s
  · -- a new key, which the object has no claim as root data to refuse
    have hnew : key.toName ∉ m.keysOf o := fun h => by
      simpa [hlk] using isSome_lookup_iff.2 h
    rcases hob : (m.object o).observer with _ | ob
    · rw [set_append_run r key v hnew hob] at hrun
      cases hrun
      exact ⟨rfl, .inl (by rw [valueAt_withSlot_self hlt]; rfl)⟩
    · have hc : ob.rootCount = 0 := by
        simpa [rootCountOf, hob] using hadd.resolve_left hnew
      obtain ⟨m₂, child, hg, -, -, hdef⟩ := set_define_run r key v hwf hnew hob hc
      rw [hdef] at hrun
      obtain ⟨hres, -, hv⟩ := then_pure (notify_noFault r _) (notify_leaves hr _ _)
        ⟨rfl, fun _ => rfl⟩ hrun
      exact ⟨hres, .inl ((hv _).trans (valueAt_defined (hg.objects_size ▸ hlt) _ v _ child))⟩
  · have hmem : key.toName ∈ m.keysOf o := isSome_lookup_iff.1 (by rw [hlk]; rfl)
    rw [set_present_run r key v hmem] at hrun
    cases s with
    | plain u =>
      rw [exec_bind, objPut_plain_run r hlk v] at hrun
      cases hrun
      exact ⟨rfl, .inl (by rw [valueAt_withSlot_self hlt]; rfl)⟩
    | tracked p =>
      rw [run_bind_congr (objPut_tracked_run r hlk v)] at hrun
      exact set_tracked_holds hr hwf hlk (hdeep.imp_right fun h => h p hlk) hrun

end Holds

/-- An unobserved object whose key `k` is a deep tracked property holding `1`: a write of the
object itself under `k` observes the object before storing it, and the walk puts under `k` a
new property holding `1`. The object is stored in the property the write had found, so `k`
still reads `1`; no host code runs. -/
theorem set_tracked_key_through_unobserved_walk :
    ∃ m', ExceptT.run (set (⟨fun _ _ => pure .undefined, 0⟩ : Runner Unit) (.obj ⟨0⟩) (.name "k")
        (.obj ⟨0⟩))
      ({ host := (), deps := #[{}], props := #[⟨.num 1, ⟨0⟩, none, false, none⟩],
         objects := #[{ slots := [("k", .tracked ⟨0⟩)] }] } : Machine Unit) =
        .ok (.ok (.obj ⟨0⟩), m') ∧
      m'.valueAt ⟨0⟩ "k" = .num 1 ∧ (m'.object ⟨0⟩).observer.isSome :=
  ⟨_, rfl, rfl, rfl⟩

end Eff

/-! ## The object API -/

/-- The object API of `o` refines an insertion-ordered map: each case of a write and of a
deletion, told apart by the key, the claim of root data and the observer, changes the keys as
a map does and notifies what the case says, once; a written key reads back when host code
leaves the object alone and the key is no deep tracked property of an unobserved object. -/
structure ObjectApi (r : Runner η) (o : ObjRef) : Prop where
  plain : ∀ (m : Machine η) (key : Key) (v u : Value),
    (m.object o).slots.lookup key.toName = some (.plain u) →
    ExceptT.run (Eff.set r (.obj o) key v) m = .ok (.ok v, m.withSlot o key.toName (.plain v)) ∧
      (m.withSlot o key.toName (.plain v)).keysOf o = m.keysOf o ∧
      (m.withSlot o key.toName (.plain v)).valueAt o key.toName = v
  same : ∀ (m : Machine η) (key : Key) (v : Value) (p : PropId),
    (m.object o).slots.lookup key.toName = some (.tracked p) → (m.prop p).value.same v = true →
    ExceptT.run (Eff.set r (.obj o) key v) m = .ok (.ok v, m)
  changed : ∀ (m : Machine η) (key : Key) (v : Value) (p : PropId),
    (m.object o).slots.lookup key.toName = some (.tracked p) → (m.prop p).value.same v = false →
    ∀ m₁ : Machine η, ExceptT.run (Eff.assign r (m.prop p).hook) m = .ok (.ok (), m₁) →
      m₁.SlotsInRange →
    ∃ m₂ child, m₁.Reobserved (m.prop p).shallow m₂ v child ∧
      (m₂.stored p v child).keysOf o = m₁.keysOf o ∧
      ExceptT.run (Eff.set r (.obj o) key v) m =
        ExceptT.run (do Eff.notify r (m.prop p).dep; pure v) (m₂.stored p v child)
  refused : ∀ (m : Machine η) (key : Key) (v : Value),
    key.toName ∉ m.keysOf o → 0 < m.rootCountOf o →
    ∃ m', ExceptT.run (Eff.set r (.obj o) key v) m = .ok (.ok v, m') ∧
      ExceptT.run (Eff.warn ("avoid adding reactive property \"" ++ key.toName ++
        "\" to root data at runtime; declare it upfront") : Eff η Unit) m = .ok (.ok (), m')
  appended : ∀ (m : Machine η) (key : Key) (v : Value), o.idx < m.objects.size →
    key.toName ∉ m.keysOf o → (m.object o).observer = none →
    ExceptT.run (Eff.set r (.obj o) key v) m = .ok (.ok v, m.withSlot o key.toName (.plain v)) ∧
      (m.withSlot o key.toName (.plain v)).keysOf o = m.keysOf o ++ [key.toName] ∧
      (m.withSlot o key.toName (.plain v)).valueAt o key.toName = v
  defined : ∀ (m : Machine η) (key : Key) (v : Value) (ob : Observer), m.SlotsInRange →
    o.idx < m.objects.size → key.toName ∉ m.keysOf o → (m.object o).observer = some ob →
    ob.rootCount = 0 →
    ∃ m₂ child, m.Grown m₂ ∧
      (m₂.defined o key.toName v ⟨m.deps.size⟩ child).keysOf o = m.keysOf o ++ [key.toName] ∧
      (m₂.defined o key.toName v ⟨m.deps.size⟩ child).valueAt o key.toName = v ∧
      ExceptT.run (Eff.set r (.obj o) key v) m =
        ExceptT.run (do Eff.notify r ob.dep; pure v) (m₂.defined o key.toName v ⟨m.deps.size⟩ child)
  removeRefused : ∀ (m : Machine η) (key : Key), 0 < m.rootCountOf o →
    ∃ m', ExceptT.run (Eff.remove r (.obj o) key) m = .ok (.ok (), m') ∧
      ExceptT.run (Eff.warn ("avoid deleting property \"" ++ key.toName ++
        "\" from root data; set it to null instead") : Eff η Unit) m = .ok (.ok (), m')
  removeAbsent : ∀ (m : Machine η) (key : Key), key.toName ∉ m.keysOf o → m.rootCountOf o = 0 →
    ExceptT.run (Eff.remove r (.obj o) key) m = .ok (.ok (), m)
  removed : ∀ (m : Machine η) (key : Key), key.toName ∈ m.keysOf o → m.rootCountOf o = 0 →
    (m.withoutKey o key.toName).keysOf o = (m.keysOf o).filter (· ≠ key.toName) ∧
    ExceptT.run (Eff.remove r (.obj o) key) m =
      ExceptT.run (Eff.announce r (m.objectDep o)) (m.withoutKey o key.toName)
  holds : LeavesObject r o → ∀ (m m' : Machine η) (key : Key) (v : Value)
    (res : Except Fault Value), m.SlotsInRange → o.idx < m.objects.size →
    (key.toName ∈ m.keysOf o ∨ m.rootCountOf o = 0) →
    ((m.object o).observer.isSome ∨
      ∀ p, (m.object o).slots.lookup key.toName = some (.tracked p) → (m.prop p).shallow = true) →
    ExceptT.run (Eff.set r (.obj o) key v) m = .ok (res, m') →
    res = .ok v ∧ (m'.valueAt o key.toName = v ∨ (m'.valueAt o key.toName).same v = true)

open Machine Eff in
theorem object_api_refines (r : Runner η) (o : ObjRef) : ObjectApi r o where
  plain m key v u hlk := by
    have hlt : o.idx < m.objects.size := lt_of_mem_keysOf (isSome_lookup_iff.1 (by rw [hlk]; rfl))
    have hmem : key.toName ∈ m.keysOf o := isSome_lookup_iff.1 (by rw [hlk]; rfl)
    refine ⟨?_, keysOf_withSlot_of_mem hmem _ o, valueAt_withSlot_self hlt _ _⟩
    rw [set_present_run r key v hmem, exec_bind, objPut_plain_run r hlk v]
    rfl
  same m key v p hlk hs := by
    have hmem : key.toName ∈ m.keysOf o := isSome_lookup_iff.1 (by rw [hlk]; rfl)
    rw [set_present_run r key v hmem, run_bind_congr (objPut_tracked_run r hlk v), exec_bind,
      propSet_same_run r hs]
    rfl
  changed m key v p hlk hs m₁ hhook hwf₁ := by
    have hmem : key.toName ∈ m.keysOf o := isSome_lookup_iff.1 (by rw [hlk]; rfl)
    obtain ⟨m₂, child, hre, -, hps⟩ := propSet_changed_run r hs hhook hwf₁
    -- a walk keeps every object's keys
    have hkeys : m₂.keysOf o = m₁.keysOf o := by
      unfold Reobserved at hre
      split at hre
      · rw [hre.1]
      · exact hre.grown.keys o
    refine ⟨m₂, child, hre, hkeys, ?_⟩
    rw [set_present_run r key v hmem, run_bind_congr (objPut_tracked_run r hlk v),
      run_bind_congr hps]
  refused m key v hnew hc := by
    obtain ⟨_, m', hrun, rfl, hw⟩ := set_refused r key v hnew hc m rfl
    exact ⟨m', hrun, hw⟩
  appended m key v hlt hnew hob :=
    ⟨set_append_run r key v hnew hob, keysOf_withSlot_of_not_mem hlt hnew _,
      valueAt_withSlot_self hlt _ _⟩
  defined m key v ob hwf hlt hnew hob hc := by
    obtain ⟨m₂, child, hg, -, -, hrun⟩ := set_define_run r key v hwf hnew hob hc
    have hlt₂ : o.idx < m₂.objects.size := hg.objects_size ▸ hlt
    have hnew₂ : key.toName ∉ m₂.keysOf o := hg.keys o ▸ hnew
    exact ⟨m₂, child, hg, (keysOf_defined hlt₂ hnew₂ v _ child).trans (by rw [hg.keys o]),
      valueAt_defined hlt₂ _ v _ child, hrun⟩
  removeRefused m key hc := by
    obtain ⟨_, m', hrun, rfl, hw⟩ := remove_refused r key hc m rfl
    exact ⟨m', hrun, hw⟩
  removeAbsent m key hk hc := remove_absent_run r key hk hc
  removed m key hk hc :=
    ⟨keysOf_withoutKey (lt_of_mem_keysOf hk) _, remove_present_run r key hk hc⟩
  holds hr _ _ _ _ _ hwf hlt hadd hdeep hrun := set_holds hr hwf hlt hadd hdeep hrun

/-- Writes to a container that no observer watches run no host code and notify no set. On an
object, a set that adds a key puts it in a plain slot, and a delete drops the key if the object
has it; on a list, a write and a removal by index change its items and nothing else. -/
theorem unobserved_edits_notify_no_one (r : Runner η) (m : Machine η) :
    (∀ o key v, (m.object o).observer = none →
      (key.toName ∉ m.keysOf o → ExceptT.run (Eff.set r (.obj o) key v) m =
          .ok (.ok v, m.withSlot o key.toName (.plain v))) ∧
      ExceptT.run (Eff.remove r (.obj o) key) m =
        .ok (.ok (), if key.toName ∈ m.keysOf o then m.withoutKey o key.toName else m)) ∧
    (∀ l k i v, k.asIndex? = some i → (m.listCell l).observer = none → l.idx < m.lists.size →
      m.SlotsInRange →
      (∃ ys, ExceptT.run (Eff.set r (.list l) k v) m = .ok (.ok v, m.withItems l ys)) ∧
      ((∃ ys, ExceptT.run (Eff.remove r (.list l) k) m = .ok (.ok (), m.withItems l ys)) ∨
        ExceptT.run (Eff.remove r (.list l) k) m = .ok (.ok (), m))) := by
  refine ⟨fun o key v hob => ⟨fun hk => Eff.set_append_run r key v hk hob, ?_⟩,
    fun l k i v hk hob hl hwf => ⟨?_, ?_⟩⟩
  · -- an object no one observes is no root data, so a delete goes through, and tells no one
    have hc : m.rootCountOf o = 0 := by simp [Machine.rootCountOf, hob]
    split
    · rename_i hmem
      rw [Eff.remove_present_run r key hmem hc]
      simp only [Machine.objectDep, hob, Option.map_none, Eff.announce, Eff.exec_pure]
    · exact Eff.remove_absent_run r key ‹_› hc
  · obtain ⟨ys, _, ⟨-, rfl⟩, hrun⟩ := (setIndex_edits (r := r) (l := l) hk v).unobserved hl hwf
      trivial hob
    exact ⟨ys, hrun⟩
  · by_cases hi : i < (m.listCell l).items.length
    · obtain ⟨ys, _, -, hrun⟩ := (removeIndex_edits (r := r) (l := l) hk).unobserved hl hwf hi hob
      exact .inl ⟨ys, hrun⟩
    · exact .inr (removeIndex_past hk m (Nat.le_of_not_lt hi))

end Reactivity

import Reactivity.Proofs.Operations
import Reactivity.Script.Session

/-!
# Invariants of script sessions

A script reaches the engine only through the engine's operations, its registry of names, and
the closures it hands to the engine, whose runs are evaluations by the same interpreter with
less fuel. So a family of invariants that look only at the watcher and dependency tables, the
queue and the tick batch's jobs (`Apart`), that every primitive update keeps (`Stable`), and
that the scheduler keeps once host code does (`Schedules`), is kept by every expression and by
every closure of a script (`Script.Kept.eval`, `Script.Kept.host`): the rely on host code that
the engine's laws take is met by the interpreter itself. An invariant of the tables alone is
such a family of one, and holds in every state a session passes through
(`Script.Session.holds`), with nothing assumed of host code.
-/

namespace Reactivity

namespace Script

variable {J : Machine Registry → Prop} {α β : Type}

theorem Keeps.map {x : Script α} {f : α → β} (hx : Keeps J x) : Keeps J (f <$> x) := by
  rw [map_eq_pure_bind]
  exact Keeps.bind hx fun _ => Keeps.pure _

theorem mem_orElse {a b : Option α} {x : α} (h : x ∈ (a <|> b)) : x ∈ a ∨ x ∈ b := by
  cases a with
  | none => exact .inr h
  | some _ => exact .inl h

/-! ## Arguments, names and the registry -/

theorem refuse_keeps (text : String) : Keeps J (refuse text : Script α) := Keeps.fault _

theorem registry_keeps : Keeps J registry := Keeps.bind Keeps.get fun _ => Keeps.pure _

theorem find_keeps (what : String) (t : Names α) (name : String) : Keeps J (find what t name) := by
  unfold find
  split
  · exact Keeps.pure _
  · exact refuse_keeps _

theorem argAt_keeps (p : List Json) (i : Nat) : Keeps J (argAt p i) := by
  unfold argAt
  split
  · exact Keeps.pure _
  · exact refuse_keeps _

theorem textAt_keeps (p : List Json) (i : Nat) : Keeps J (textAt p i) :=
  Keeps.bind (argAt_keeps p i) fun _ => by
    split
    · exact Keeps.pure _
    · exact refuse_keeps _

theorem natAt_keeps (p : List Json) (i : Nat) : Keeps J (natAt p i) :=
  Keeps.bind (argAt_keeps p i) fun _ => by
    unfold natOf
    split
    · exact Keeps.pure _
    · exact refuse_keeps _

theorem keyAt_keeps (p : List Json) (i : Nat) : Keeps J (keyAt p i) :=
  Keeps.bind (argAt_keeps p i) fun _ => by
    split
    · exact Keeps.pure _
    · exact Keeps.pure _
    · exact refuse_keeps _

theorem pairsAt_keeps (p : List Json) (i : Nat) : Keeps J (pairsAt p i) := by
  unfold pairsAt
  split
  · exact Keeps.pure _
  · exact Keeps.pure _
  · refine Keeps.mapM_list fun _ => ?_
    split
    · exact Keeps.pure _
    · exact refuse_keeps _
  · exact refuse_keeps _

theorem scopeAt_keeps (p : List Json) (i : Nat) : Keeps J (scopeAt p i) :=
  Keeps.bind registry_keeps fun _ => Keeps.bind (textAt_keeps p i) fun _ => find_keeps _ _ _

theorem scopeAt?_keeps (p : List Json) (i : Nat) : Keeps J (scopeAt? p i) := by
  unfold scopeAt?
  split
  · exact Keeps.pure _
  · exact Keeps.pure _
  · exact Keeps.map (scopeAt_keeps p i)

theorem watcherAt_keeps (p : List Json) (i : Nat) : Keeps J (watcherAt p i) :=
  Keeps.bind registry_keeps fun _ => Keeps.bind (textAt_keeps p i) fun _ => find_keeps _ _ _

theorem watchAt_keeps (p : List Json) (i : Nat) : Keeps J (watchAt p i) :=
  Keeps.bind registry_keeps fun _ => Keeps.bind (textAt_keeps p i) fun _ => find_keeps _ _ _

theorem computedAt_keeps (p : List Json) (i : Nat) : Keeps J (computedAt p i) :=
  Keeps.bind registry_keeps fun _ => Keeps.bind (textAt_keeps p i) fun _ => find_keeps _ _ _

theorem cellAt_keeps (p : List Json) (i : Nat) : Keeps J (cellAt p i) :=
  Keeps.bind registry_keeps fun _ => Keeps.bind (textAt_keeps p i) fun _ => find_keeps _ _ _

theorem signalAt_keeps (p : List Json) (i : Nat) : Keeps J (signalAt p i) :=
  Keeps.bind registry_keeps fun _ => Keeps.bind (textAt_keeps p i) fun _ => find_keeps _ _ _

theorem argument_keeps (name : String) : Keeps J (argument name) := by
  refine Keeps.bind registry_keeps fun g => ?_
  split
  · exact Keeps.ite _ (Keeps.pure _) (Keeps.ite _ (Keeps.pure _) (Keeps.pure _))
  · exact Keeps.ite _ (Keeps.pure _) (Keeps.ite _ (Keeps.pure _) (Keeps.ite _ (Keeps.pure _)
      (Keeps.pure _)))
  · exact Keeps.pure _


section Tables

variable (ha : Apart J)
include ha

theorem closure_keeps (e : Json) : Keeps J (closure e) :=
  ha.get_set_bind (fun _ => ⟨rfl, rfl, rfl, rfl⟩) fun _ _ => Keeps.pure _

theorem closureAt?_keeps (p : List Json) (i : Nat) : Keeps J (closureAt? p i) := by
  unfold closureAt?
  split
  · exact Keeps.pure _
  · exact Keeps.pure _
  · exact Keeps.map (closure_keeps ha _)

theorem closureAt_keeps (p : List Json) (i : Nat) : Keeps J (closureAt p i) :=
  Keeps.bind (argAt_keeps p i) fun _ => closure_keeps ha _

theorem pushFrame_keeps (a : Args) : Keeps J (pushFrame a) := ha.modify fun _ => ⟨rfl, rfl, rfl, rfl⟩

theorem popFrame_keeps : Keeps J popFrame := ha.modify fun _ => ⟨rfl, rfl, rfl, rfl⟩

theorem newList_keeps (items : List Value) : Keeps J (Eff.newList items : Script ListRef) :=
  ha.get_set_bind (fun _ => ⟨rfl, rfl, rfl, rfl⟩) fun _ _ => Keeps.pure _

theorem object_keeps (fields : List (String × Value)) : Keeps J (object fields) :=
  Keeps.bind (ha.newObject _) fun _ => Keeps.pure _

theorem list_keeps (items : List Value) : Keeps J (list items) :=
  Keeps.bind (newList_keeps ha _) fun _ => Keeps.pure _

theorem watcherOptionsOf_keeps (j : Json) : Keeps J (watcherOptionsOf j) := by
  unfold watcherOptionsOf
  extract_lets done
  have hdone : ∀ b, Keeps J (done b) := fun _ => Keeps.pure _
  split
  · exact Keeps.bind (Keeps.pure _) hdone
  · exact Keeps.bind (Keeps.pure _) hdone
  · exact Keeps.bind (closure_keeps ha _) fun _ => Keeps.bind (Keeps.pure _) hdone

end Tables

mutual

theorem ofJson_keeps (ha : Apart J) : ∀ j, Keeps J (ofJson j)
  | .null => Keeps.pure _
  | .bool _ => Keeps.pure _
  | .num _ => Keeps.pure _
  | .str _ => Keeps.pure _
  | .arr items => Keeps.bind (ofJsonItems_keeps ha items) fun _ =>
      Keeps.bind (newList_keeps ha _) fun _ => Keeps.pure _
  | .obj fields => Keeps.bind (ofJsonFields_keeps ha fields) fun _ =>
      Keeps.bind (ha.newObject _) fun _ => Keeps.pure _

theorem ofJsonItems_keeps (ha : Apart J) : ∀ js, Keeps J (ofJsonItems js)
  | [] => Keeps.pure _
  | j :: rest => Keeps.bind (ofJson_keeps ha j) fun _ =>
      Keeps.bind (ofJsonItems_keeps ha rest) fun _ => Keeps.pure _

theorem ofJsonFields_keeps (ha : Apart J) : ∀ fs, Keeps J (ofJsonFields fs)
  | [] => Keeps.pure _
  | (_, j) :: rest => Keeps.bind (ofJson_keeps ha j) fun _ =>
      Keeps.bind (ofJsonFields_keeps ha rest) fun _ => Keeps.pure _

end

/-! ## Values the interpreter builds, and the engine's reads -/

section Engine

variable (ha : Apart J) (h : Stable J)
include ha h

theorem change_keeps (f : Registry → Registry) : Keeps J (change f) :=
  Keeps.bind (ha.modify fun _ => ⟨rfl, rfl, rfl, rfl⟩) fun _ => h.toCore.released

theorem getterOf_keeps (j : Json) : Keeps J (getterOf j) := by
  unfold getterOf
  split
  · unfold Eff.pathGetter
    split
    · exact Keeps.pure _
    · exact Keeps.bind (h.warn _) fun _ => Keeps.pure _
  · exact Keeps.bind (closure_keeps ha _) fun _ => Keeps.pure _
  · refine Keeps.bind (Keeps.mapM_list fun _ => ?_) fun _ => Keeps.pure _
    split
    · exact Keeps.pure _
    · exact refuse_keeps _
  · exact refuse_keeps _


omit ha in
theorem documentWith_keeps (fuel : Nat) : ∀ v, Keeps J (Eff.documentWith fuel v : Script Json) := by
  induction fuel with
  | zero => exact fun _ => Keeps.halt _
  | succ fuel ih =>
    intro v
    unfold Eff.documentWith
    split
    · exact Keeps.pure _
    · exact Keeps.pure _
    · exact Keeps.pure _
    · exact Keeps.pure _
    · exact Keeps.pure _
    · exact Keeps.bind (h.toCore.objKeys _) fun _ => Keeps.bind (Keeps.mapM_list fun _ =>
        Keeps.bind (h.toCore.objGet _ _) fun _ => Keeps.bind (ih _) fun _ => Keeps.pure _) fun _ =>
        Keeps.pure _
    · exact Keeps.bind (h.toCore.listItems _) fun _ => Keeps.bind (Keeps.mapM_list ih) fun _ =>
        Keeps.pure _

omit ha in
theorem document_keeps (v : Value) : Keeps J (Eff.document v : Script Json) :=
  Keeps.bind Stable.containerCount fun _ => documentWith_keeps h _ _

omit h in
theorem describe_keeps (v : Value) : Keeps J (describe v) := by
  unfold describe
  refine Keeps.bind Keeps.get fun _ => ?_
  extract_lets kind shape observed done
  have hdone : ∀ t, Keeps J (done t) := fun _ => object_keeps ha _
  split
  · exact Keeps.bind (list_keeps ha _) fun _ => Keeps.bind (Keeps.pure _) hdone
  · exact Keeps.bind (Keeps.pure _) hdone

omit h in
theorem scopeInfo_keeps (s : ScopeId) : Keeps J (scopeInfo s) :=
  Keeps.bind Keeps.get fun _ => Keeps.bind (list_keeps ha _) fun _ => object_keeps ha _

theorem forget_keeps (kind name : String) : Keeps J (forget kind name) := by
  refine Keeps.bind registry_keeps fun _ => ?_
  split
  · exact Keeps.bind (change_keeps ha h _) fun _ => Keeps.pure _
  · exact Keeps.bind (change_keeps ha h _) fun _ => Keeps.pure _
  · exact Keeps.bind (change_keeps ha h _) fun _ => Keeps.pure _
  · exact Keeps.bind (ha.modify fun _ => ⟨rfl, rfl, rfl, rfl⟩) fun _ => Keeps.pure _
  · exact Keeps.pure _

omit h in
theorem withRuntime_keeps {I : Interp} (hev : ∀ e, Keeps J (I.eval e))
    (hs : Schedules J I.runner) (currentThread : Bool) (items : List Json) :
    Keeps J (withRuntime I currentThread items) := by
  refine Keeps.bind (ha.modify fun _ => ⟨rfl, rfl, rfl, rfl⟩) fun _ =>
    Keeps.bind (Keeps.attempt (Keeps.mapM_list fun j => ?_)) fun res =>
      Keeps.bind (ha.modify fun m => ?_) fun _ => ?_
  · unfold runtimeItem
    split
    · exact Keeps.bind (hs.runRound) fun _ => Keeps.pure _
    · exact Keeps.bind (hs.settledSignal) fun _ =>
        Keeps.bind (hs.awaitSignal _) fun _ => Keeps.ite _ (Keeps.pure _) (Keeps.halt _)
    · exact hev _
  · -- dropping the runtime may set the tick batch back to idle, but keeps its jobs
    split
    · exact ⟨rfl, rfl, rfl, rfl⟩
    · exact ⟨rfl, rfl, rfl, by dsimp only; split <;> rfl⟩
  · split
    · exact list_keeps ha _
    · exact Keeps.fault _

end Engine

/-! ## The operation groups -/

section Groups

variable {I : Interp} (hev : ∀ e, Keeps J (I.eval e))
include hev

theorem valueAt_keeps (p : List Json) (i : Nat) : Keeps J (I.valueAt p i) :=
  Keeps.bind (argAt_keeps p i) fun e => hev e

theorem valueAt?_keeps (p : List Json) (i : Nat) : Keeps J (I.valueAt? p i) := by
  unfold Interp.valueAt?
  split
  · exact hev _
  · exact Keeps.pure _

theorem objectAt_keeps (p : List Json) (i : Nat) : Keeps J (I.objectAt p i) :=
  Keeps.bind (valueAt_keeps hev p i) fun _ => by
    split
    · exact Keeps.pure _
    · exact refuse_keeps _

theorem listAt_keeps (p : List Json) (i : Nat) : Keeps J (I.listAt p i) :=
  Keeps.bind (valueAt_keeps hev p i) fun _ => by
    split
    · exact Keeps.pure _
    · exact refuse_keeps _

theorem pairValues_keeps (pairs : List (String × Json)) : Keeps J (I.pairValues pairs) :=
  Keeps.mapM_list fun ⟨_, _⟩ => Keeps.bind (hev _) fun _ => Keeps.pure _

omit hev in
theorem display_keeps (v : Value) : Keeps J (display v) := Keeps.bind Keeps.get fun _ => Keeps.pure _

variable (ha : Apart J) (h : Stable J)
include ha h

theorem control_keeps (op : String) (raw : Json) : ∀ x ∈ control I op raw, Keeps J x := by
  unfold control
  split <;> rintro x ⟨⟩
  · exact ofJson_keeps ha raw
  · exact Keeps.pure _
  · unfold namedNumber
    split
    · exact Keeps.pure _
    · exact Keeps.pure _
    · exact Keeps.pure _
    · exact Keeps.pure _
    · exact refuse_keeps _
  · refine Keeps.bind (ha.newObject _) fun _ =>
      Keeps.bind (Keeps.forIn_list fun _ _ => ?_) fun _ => Keeps.pure _
    split
    · exact Keeps.bind (hev _) fun _ => Keeps.bind (h.object _ _) fun _ => Keeps.pure _
    · exact refuse_keeps _
  · exact Keeps.bind (Keeps.mapM_list hev) fun _ => list_keeps ha _
  · exact Keeps.bind registry_keeps fun _ => Keeps.bind (textAt_keeps _ _) fun _ =>
      find_keeps _ _ _
  · exact Keeps.bind (textAt_keeps _ _) fun _ => Keeps.bind (valueAt_keeps hev _ _) fun _ =>
      Keeps.bind (ha.modify fun _ => ⟨rfl, rfl, rfl, rfl⟩) fun _ => Keeps.pure _
  · exact Keeps.bind (textAt_keeps _ _) fun _ => argument_keeps _
  · exact Keeps.foldlM_list fun _ _ => hev _
  · exact Keeps.bind (valueAt_keeps hev _ _) fun _ =>
      Keeps.ite _ (valueAt_keeps hev _ _) (valueAt?_keeps hev _ _)
  · exact Keeps.bind (natAt_keeps _ _) fun _ => Keeps.bind (argAt_keeps _ _) fun _ =>
      Keeps.foldlM_list fun _ _ => hev _
  · exact Keeps.bind (valueAt_keeps hev _ _) fun _ => Keeps.bind (valueAt_keeps hev _ _) fun _ =>
      Keeps.pure _
  · exact Keeps.bind (valueAt_keeps hev _ _) fun _ => Keeps.pure _
  · exact Keeps.bind (valueAt_keeps hev _ _) fun _ => Keeps.bind (valueAt_keeps hev _ _) fun _ =>
      Keeps.pure _
  · exact Keeps.bind (valueAt_keeps hev _ _) fun _ => Keeps.bind (valueAt_keeps hev _ _) fun _ =>
      Keeps.pure _
  · exact Keeps.bind (Keeps.mapM_list fun _ => Keeps.bind (hev _) fun _ => display_keeps _)
      fun _ => Keeps.pure _
  · exact Keeps.bind (valueAt_keeps hev _ _) fun _ => Keeps.bind (display_keeps _) fun _ =>
      Keeps.fault _
  · refine Keeps.bind (Keeps.attempt (valueAt_keeps hev _ _)) fun _ => ?_
    split
    · exact Keeps.pure _
    · exact object_keeps ha _
  · exact Keeps.bind (valueAt_keeps hev _ _) fun _ => Keeps.bind Keeps.get fun _ =>
      Keeps.bind (h.report _) fun _ => Keeps.pure _
  · exact h.toCore.untracked (valueAt_keeps hev _ _)
  · refine Keeps.bind (argAt_keeps _ _) fun _ => Keeps.bind Keeps.get fun _ =>
      Keeps.bind (ha.modify fun _ => ⟨rfl, rfl, rfl, rfl⟩) fun _ =>
        Keeps.bind (Keeps.attempt (hev _)) fun _ =>
          Keeps.bind (ha.modify fun _ => ⟨rfl, rfl, rfl, rfl⟩) fun _ => ?_
    split
    · exact Keeps.pure _
    · exact Keeps.fault _
  · exact Keeps.bind (valueAt_keeps hev _ _) fun _ => Keeps.pure _
  · exact Keeps.bind (valueAt_keeps hev _ _) fun _ => Keeps.bind (document_keeps h _) fun _ =>
      Keeps.pure _
  · refine Keeps.bind (textAt_keeps _ _) fun _ => ?_
    split
    · exact list_keeps ha _
    · exact Keeps.pure _
  · refine Keeps.bind (valueAt_keeps hev _ _) fun _ => Keeps.bind Keeps.get fun _ => ?_
    split
    · exact Keeps.pure _
    · exact Keeps.halt _
  · exact Keeps.bind Keeps.get fun _ => Keeps.pure _
  · exact Keeps.bind Keeps.get fun _ => object_keeps ha _

variable (hs : Schedules J I.runner) (hr : ∀ c a, Keeps J (I.runner.invoke c a))
include hs hr

theorem containers_keeps (op : String) (raw : Json) : ∀ x ∈ containers I op raw, Keeps J x := by
  unfold containers
  split <;> rintro x ⟨⟩
  · exact Keeps.bind (valueAt_keeps hev _ _) fun _ => Keeps.bind (h.toCore.observe _ _) fun _ =>
      Keeps.pure _
  · refine Keeps.bind (valueAt_keeps hev _ _) fun _ => ?_
    split
    · exact Keeps.bind (h.object _ _) fun _ => Keeps.pure _
    · exact Keeps.bind (h.list _ _) fun _ => Keeps.pure _
    · exact refuse_keeps _
  · exact Keeps.bind (ha.modify fun _ => ⟨rfl, rfl, rfl, rfl⟩) fun _ => Keeps.pure _
  · exact Keeps.bind Keeps.get fun _ => Keeps.pure _
  · exact Keeps.bind (objectAt_keeps hev _ _) fun _ => Keeps.bind (textAt_keeps _ _) fun _ =>
      Keeps.bind (valueAt_keeps hev _ _) fun _ => Keeps.bind (closureAt?_keeps ha _ _) fun _ =>
        Keeps.bind (h.toCore.defineReactive _ _ _ _ _) fun _ => Keeps.pure _
  · exact Keeps.bind (valueAt_keeps hev _ _) fun _ => Keeps.bind (keyAt_keeps _ _) fun _ =>
      Keeps.bind (valueAt_keeps hev _ _) fun _ => h.set hs ha hr _ _ _
  · exact Keeps.bind (valueAt_keeps hev _ _) fun _ => Keeps.bind (keyAt_keeps _ _) fun _ =>
      Keeps.bind (h.remove hs _ _) fun _ => Keeps.pure _
  · exact Keeps.bind (objectAt_keeps hev _ _) fun _ => Keeps.bind (textAt_keeps _ _) fun _ =>
      Keeps.bind (valueAt_keeps hev _ _) fun _ => Keeps.bind (h.objPut hs ha hr _ _ _) fun _ =>
        Keeps.pure _
  · exact Keeps.bind (valueAt_keeps hev _ _) fun _ => Keeps.bind (textAt_keeps _ _) fun _ =>
      h.toCore.member _ _
  · exact Keeps.bind (objectAt_keeps hev _ _) fun _ => Keeps.bind (textAt_keeps _ _) fun _ =>
      Stable.objPeek _ _
  · exact Keeps.bind (objectAt_keeps hev _ _) fun _ => Keeps.bind (h.toCore.objKeys _) fun _ =>
      list_keeps ha _
  · refine Keeps.bind (valueAt_keeps hev _ _) fun _ => ?_
    split
    · exact Keeps.bind (h.toCore.objSize _) fun _ => Keeps.pure _
    · exact Keeps.bind (h.toCore.listSize _) fun _ => Keeps.pure _
    · exact refuse_keeps _
  · refine Keeps.bind (valueAt_keeps hev _ _) fun _ => ?_
    split
    · exact Keeps.bind (h.toCore.objSize _) fun _ => Keeps.pure _
    · exact Keeps.bind (h.toCore.listSize _) fun _ => Keeps.pure _
    · exact refuse_keeps _
  · exact Keeps.bind (objectAt_keeps hev _ _) fun _ => Keeps.bind (textAt_keeps _ _) fun _ =>
      Keeps.bind (h.toCore.objHas _ _) fun _ => Keeps.pure _
  · exact Keeps.bind (objectAt_keeps hev _ _) fun _ => Keeps.bind (textAt_keeps _ _) fun _ =>
      Keeps.bind (Stable.isTracked _ _) fun _ => Keeps.pure _
  · exact Keeps.bind (valueAt_keeps hev _ _) fun _ => describe_keeps ha _
  · exact Keeps.bind (listAt_keeps hev _ _) fun _ => Keeps.bind (natAt_keeps _ _) fun _ =>
      h.toCore.listGet _ _
  · exact Keeps.bind (listAt_keeps hev _ _) fun _ => Keeps.bind (h.toCore.listItems _) fun _ =>
      list_keeps ha _
  · exact Keeps.bind (listAt_keeps hev _ _) fun _ => Keeps.bind (valueAt_keeps hev _ _) fun _ =>
      Keeps.bind (h.push hs _ _) fun _ => Keeps.pure _
  · exact Keeps.bind (listAt_keeps hev _ _) fun _ => Keeps.bind (valueAt_keeps hev _ _) fun _ =>
      Keeps.bind (h.unshift hs _ _) fun _ => Keeps.pure _
  · exact Keeps.bind (listAt_keeps hev _ _) fun _ => Keeps.bind (h.pop hs _) fun _ =>
      list_keeps ha _
  · exact Keeps.bind (listAt_keeps hev _ _) fun _ => Keeps.bind (h.shift hs _) fun _ =>
      list_keeps ha _
  · refine Keeps.bind (listAt_keeps hev _ _) fun _ => Keeps.bind (natAt_keeps _ _) fun _ =>
      Keeps.bind (natAt_keeps _ _) fun _ => ?_
    extract_lets done
    have hdone : ∀ added, Keeps J (done added) := fun _ =>
      Keeps.bind (h.splice hs _ _ _ _) fun _ => list_keeps ha _
    split
    · exact Keeps.bind (Keeps.pure _) hdone
    · exact Keeps.bind (Keeps.mapM_list hev) hdone
  · refine Keeps.bind (listAt_keeps hev _ _) fun _ => Keeps.bind (textAt_keeps _ _) fun _ =>
      Keeps.bind ?_ fun _ => Keeps.bind (h.sortBy hs _ _) fun _ => Keeps.pure _
    unfold sortOrder
    split
    · exact Keeps.pure _
    · exact Keeps.pure _
    · exact Keeps.pure _
    · exact refuse_keeps _
  · exact Keeps.bind (listAt_keeps hev _ _) fun _ => Keeps.bind (h.reverse hs _) fun _ =>
      Keeps.pure _
  · exact Keeps.bind (valueAt_keeps hev _ _) fun _ => Keeps.bind (h.toCore.traverse _) fun _ =>
      Keeps.pure _
  · refine Keeps.bind (valueAt_keeps hev _ _) fun _ => Keeps.bind Keeps.get fun _ => ?_
    split
    · exact Keeps.pure _
    · exact Keeps.pure _

theorem scopes_keeps (op : String) (raw : Json) : ∀ x ∈ scopes I op raw, Keeps J x := by
  unfold scopes
  split <;> rintro x ⟨⟩
  · exact Keeps.bind (textAt_keeps _ _) fun _ => Keeps.bind (valueAt?_keeps hev _ _) fun _ =>
      Keeps.bind (h.newScope ha _ _ _ _) fun _ => Keeps.bind (change_keeps ha h _) fun _ =>
        Keeps.bind Keeps.get fun _ => Keeps.pure _
  · exact Keeps.bind (scopeAt_keeps _ _) fun _ => Keeps.bind (textAt_keeps _ _) fun _ =>
      Keeps.bind (pairsAt_keeps _ _) fun _ => Keeps.bind (pairValues_keeps hev _) fun _ =>
        Keeps.bind (valueAt?_keeps hev _ _) fun _ => Keeps.bind (h.newScope ha _ _ _ _) fun _ =>
          Keeps.bind (change_keeps ha h _) fun _ => Keeps.bind Keeps.get fun _ => Keeps.pure _
  · exact Keeps.bind Keeps.get fun _ => Keeps.bind (scopeAt_keeps _ _) fun _ => Keeps.pure _
  · exact Keeps.bind Keeps.get fun _ => Keeps.bind (scopeAt_keeps _ _) fun _ => Keeps.pure _
  · exact Keeps.bind (scopeAt_keeps _ _) fun _ => Keeps.bind (textAt_keeps _ _) fun _ =>
      h.lookup hr _ _
  · exact Keeps.bind (scopeAt_keeps _ _) fun _ =>
      Keeps.bind (pairsAt_keeps _ _) fun _ => Keeps.bind (pairValues_keeps hev _) fun _ =>
        Keeps.bind (h.updateProps hs ha hr _ _) fun _ => Keeps.pure _
  · exact Keeps.bind (scopeAt_keeps _ _) fun _ => Keeps.bind (keyAt_keeps _ _) fun _ =>
      Keeps.bind (valueAt_keeps hev _ _) fun _ => Keeps.bind Keeps.get fun _ => h.set hs ha hr _ _ _
  · exact Keeps.bind (scopeAt_keeps _ _) fun _ => Keeps.bind (keyAt_keeps _ _) fun _ =>
      Keeps.bind Keeps.get fun _ => Keeps.bind (h.remove hs _ _) fun _ => Keeps.pure _
  · exact Keeps.bind (scopeAt_keeps _ _) fun _ => scopeInfo_keeps ha _
  · exact Keeps.bind Keeps.get fun _ => Keeps.bind (scopeAt_keeps _ _) fun _ => Keeps.pure _
  · exact Keeps.bind (scopeAt?_keeps _ _) fun _ => Keeps.bind (textAt_keeps _ _) fun _ =>
      Keeps.bind (closureAt_keeps ha _ _) fun _ => Keeps.bind (h.newComputed ha _ _ _) fun _ =>
        Keeps.bind (change_keeps ha h _) fun _ => Keeps.pure _
  · exact Keeps.bind (scopeAt_keeps _ _) fun _ => Keeps.bind (textAt_keeps _ _) fun _ =>
      Keeps.bind (argAt_keeps _ _) fun _ => Keeps.bind (getterOf_keeps ha h _) fun _ =>
        Keeps.bind (closureAt?_keeps ha _ _) fun _ =>
          Keeps.bind (Keeps.bind Keeps.get fun _ => Keeps.pure _) fun _ =>
            Keeps.bind (h.watch hr _ _ _ _) fun _ => Keeps.bind (change_keeps ha h _) fun _ =>
              Keeps.bind h.unhold fun _ => Keeps.pure _
  · exact Keeps.bind (watchAt_keeps _ _) fun _ => Keeps.bind (h.teardown _) fun _ => Keeps.pure _
  · exact Keeps.bind (watchAt_keeps _ _) fun _ => Keeps.bind Keeps.get fun _ => Keeps.pure _
  · exact Keeps.bind (scopeAt_keeps _ _) fun _ => Keeps.bind (closureAt_keeps ha _ _) fun _ =>
      Keeps.bind (h.mount ha hr _ _) fun _ => Keeps.pure _
  · exact Keeps.bind (scopeAt_keeps _ _) fun _ => Keeps.bind (hs.forceUpdate _) fun _ =>
      Keeps.pure _
  · exact Keeps.bind (scopeAt_keeps _ _) fun _ => Keeps.bind (closureAt_keeps ha _ _) fun _ =>
      Keeps.bind (ha.modify fun _ => ⟨rfl, rfl, rfl, rfl⟩) fun _ => Keeps.pure _
  · exact Keeps.bind (scopeAt_keeps _ _) fun _ => Keeps.bind (closureAt_keeps ha _ _) fun _ =>
      Keeps.bind (ha.modify fun _ => ⟨rfl, rfl, rfl, rfl⟩) fun _ => Keeps.pure _
  · exact Keeps.bind (scopeAt_keeps _ _) fun _ => Keeps.bind (closureAt_keeps ha _ _) fun _ =>
      Keeps.bind (ha.modify fun _ => ⟨rfl, rfl, rfl, rfl⟩) fun _ => Keeps.pure _
  · exact Keeps.bind (scopeAt_keeps _ _) fun _ => Keeps.bind (h.destroy ha _) fun _ => Keeps.pure _
  · exact Keeps.bind (scopeAt?_keeps _ _) fun _ => Keeps.bind (valueAt_keeps hev _ _) fun _ =>
      Keeps.bind (textAt_keeps _ _) fun _ => Keeps.bind Keeps.get fun _ =>
        Keeps.bind (h.handleError hr _ _ _) fun _ => Keeps.pure _
  · exact Keeps.bind (valueAt_keeps hev _ _) fun _ => Keeps.bind Keeps.get fun _ =>
      Keeps.bind (h.warn _) fun _ => Keeps.pure _
  · exact Keeps.bind (ha.modify fun _ => ⟨rfl, rfl, rfl, rfl⟩) fun _ => Keeps.pure _
  · exact Keeps.bind (textAt_keeps _ _) fun _ => Keeps.bind (textAt_keeps _ _) fun _ =>
      Keeps.bind (forget_keeps ha h _ _) fun _ => Keeps.pure _

theorem watchers_keeps (op : String) (raw : Json) : ∀ x ∈ watchers I op raw, Keeps J x := by
  unfold watchers
  split <;> rintro x ⟨⟩
  · refine Keeps.bind (scopeAt?_keeps _ _) fun _ =>
      Keeps.bind (argAt_keeps _ _) fun _ => Keeps.bind (getterOf_keeps ha h _) fun _ =>
        Keeps.bind (closureAt?_keeps ha _ _) fun _ => Keeps.bind (watcherOptionsOf_keeps ha _)
          fun _ => Keeps.bind (h.create hr _ _ _ _ _) fun _ => ?_
    extract_lets done
    have hdone : ∀ u, Keeps J (done u) := fun _ => Keeps.bind h.unhold fun _ => Keeps.pure _
    split
    · exact Keeps.bind (change_keeps ha h _) hdone
    · exact Keeps.bind h.release hdone
  · exact Keeps.bind Keeps.get fun _ => Keeps.bind (watcherAt_keeps _ _) fun _ => Keeps.pure _
  · exact Keeps.bind Keeps.get fun _ => Keeps.bind (watcherAt_keeps _ _) fun _ => Keeps.pure _
  · exact Keeps.bind Keeps.get fun _ => Keeps.bind (watcherAt_keeps _ _) fun _ => Keeps.pure _
  · exact Keeps.bind Keeps.get fun _ => Keeps.bind (watcherAt_keeps _ _) fun _ => Keeps.pure _
  · exact Keeps.bind Keeps.get fun _ => Keeps.bind (watcherAt_keeps _ _) fun _ => Keeps.pure _
  · exact Keeps.bind (watcherAt_keeps _ _) fun _ => Keeps.pure _
  · exact Keeps.bind (watcherAt_keeps _ _) fun _ => Keeps.pure _
  · exact Keeps.bind (watcherAt_keeps _ _) fun _ => Keeps.bind Keeps.get fun _ => object_keeps ha _
  · exact Keeps.bind (watcherAt_keeps _ _) fun _ => Keeps.bind (h.run hr _) fun _ => Keeps.pure _
  · exact Keeps.bind (watcherAt_keeps _ _) fun _ => Keeps.bind (hs.update _) fun _ =>
      Keeps.pure _
  · exact Keeps.bind (watcherAt_keeps _ _) fun _ => Keeps.bind (h.refresh hr _) fun _ =>
      Keeps.pure _
  · exact Keeps.bind (watcherAt_keeps _ _) fun _ => h.evaluate hr _
  · exact Keeps.bind (watcherAt_keeps _ _) fun _ => Keeps.bind (h.toCore.dependOn _) fun _ => Keeps.pure _
  · exact Keeps.bind (watcherAt_keeps _ _) fun _ => Keeps.bind (h.teardown _) fun _ => Keeps.pure _
  · exact Keeps.bind Keeps.get fun _ => Keeps.bind (watcherAt_keeps _ _) fun _ => Keeps.pure _
  · exact Keeps.bind (watcherAt_keeps _ _) fun _ => Keeps.bind (cellAt_keeps _ _) fun _ =>
      Keeps.bind Keeps.get fun _ => Keeps.pure _
  · exact Keeps.bind (argAt_keeps _ _) fun _ => Keeps.bind (getterOf_keeps ha h _) fun _ =>
      Keeps.pure _
  · exact Keeps.bind (watcherOptionsOf_keeps ha _) fun _ => Keeps.pure _
  · exact Keeps.bind (computedAt_keeps _ _) fun _ => h.computedGet hr _
  · exact Keeps.bind Keeps.get fun _ => Keeps.bind (computedAt_keeps _ _) fun _ => Keeps.pure _
  · exact Keeps.bind Keeps.get fun _ => Keeps.bind (computedAt_keeps _ _) fun _ => Keeps.pure _
  · exact Keeps.bind (computedAt_keeps _ _) fun _ => Keeps.bind (h.watcher _ _ fun _ => rfl)
      fun _ => Keeps.pure _
  · exact Keeps.bind (computedAt_keeps _ _) fun _ => Keeps.bind (h.teardown _) fun _ =>
      Keeps.pure _
  · exact Keeps.bind (computedAt_keeps _ _) fun _ => Keeps.pure _
  · refine Keeps.bind Keeps.get fun _ => Keeps.bind (computedAt_keeps _ _) fun _ => ?_
    split
    · exact Keeps.pure _
    · exact Keeps.halt _
  · exact Keeps.bind (computedAt_keeps _ _) fun _ => Keeps.bind (textAt_keeps _ _) fun _ =>
      Keeps.bind (change_keeps ha h _) fun _ => Keeps.pure _
  · refine Keeps.bind (textAt_keeps _ _) fun _ => Keeps.bind (textAt_keeps _ _) fun _ =>
      Keeps.bind (valueAt_keeps hev _ _) fun _ => ?_
    extract_lets done
    have hdone : ∀ c, Keeps J (done c) := fun _ => Keeps.bind (h.newCell ha _) fun _ =>
      Keeps.bind (ha.modify fun _ => ⟨rfl, rfl, rfl, rfl⟩) fun _ => Keeps.pure _
    split
    · exact Keeps.bind (Keeps.pure _) hdone
    · exact Keeps.bind (Keeps.pure _) hdone
    · exact Keeps.bind (Keeps.pure _) hdone
    · exact Keeps.bind (refuse_keeps _) hdone
  · exact Keeps.bind (cellAt_keeps _ _) fun _ => Keeps.bind (h.cellGet _) fun _ => Keeps.pure _
  · exact Keeps.bind (cellAt_keeps _ _) fun _ =>
      h.cellWith ha (fun _ => Keeps.pure _) _
  · exact Keeps.bind Keeps.get fun _ => Keeps.bind (cellAt_keeps _ _) fun _ => Keeps.pure _
  · refine Keeps.bind (cellAt_keeps _ _) fun _ => Keeps.bind (valueAt_keeps hev _ _) fun _ =>
      Keeps.bind Keeps.get fun _ => Keeps.bind ?_ fun _ =>
        Keeps.bind (hs.cellSet ha _ _) fun _ => Keeps.pure _
    unfold cellContents
    split
    · exact Keeps.pure _
    · exact Keeps.pure _
    · exact Keeps.pure _
    · exact refuse_keeps _
  · refine Keeps.bind (cellAt_keeps _ _) fun _ => Keeps.bind (valueAt_keeps hev _ _) fun _ =>
      Keeps.bind Keeps.get fun _ => ?_
    split
    · refine Keeps.bind (hs.cellUpdate ha (fun v => ?_) _) fun _ => Keeps.pure _
      split
      · exact Keeps.pure _
      · exact Keeps.pure _
    · exact refuse_keeps _
  · exact Keeps.bind Keeps.get fun _ => Keeps.bind (cellAt_keeps _ _) fun _ => Keeps.pure _
  · exact Keeps.bind Keeps.get fun _ => Keeps.bind (cellAt_keeps _ _) fun _ => Keeps.pure _
  · refine Keeps.bind Keeps.get fun _ => Keeps.bind (cellAt_keeps _ _) fun _ => ?_
    split
    · exact Keeps.pure _
    · exact Keeps.halt _

omit h hr in
theorem ticks_keeps (op : String) (raw : Json) : ∀ x ∈ ticks I op raw, Keeps J x := by
  unfold ticks
  split <;> rintro x ⟨⟩
  · exact Keeps.bind (hs.tick) fun _ => Keeps.pure _
  · exact Keeps.bind (hs.drain) fun _ => Keeps.pure _
  · exact Keeps.bind (hs.flush) fun _ => Keeps.pure _
  · exact Keeps.bind Stable.pending fun _ => Keeps.pure _
  · exact Keeps.bind (Keeps.bind Keeps.get fun _ => Keeps.pure _) fun _ => Keeps.pure _
  · exact Keeps.bind Keeps.get fun _ => Keeps.pure _
  · exact Keeps.bind (scopeAt?_keeps _ _) fun _ => Keeps.bind (closureAt_keeps ha _ _) fun _ =>
      Keeps.bind (hs.nextTick _) fun _ => Keeps.pure _
  · exact Keeps.bind (textAt_keeps _ _) fun _ => Keeps.bind (hs.settledSignal) fun _ =>
      Keeps.bind (ha.modify fun _ => ⟨rfl, rfl, rfl, rfl⟩) fun _ => Keeps.pure _
  -- the two names of one question about a signal
  · exact Keeps.bind (signalAt_keeps _ _) fun _ => Keeps.bind Keeps.get fun _ => Keeps.pure _
  · exact Keeps.bind (signalAt_keeps _ _) fun _ => Keeps.bind Keeps.get fun _ => Keeps.pure _
  · -- the settings come as a text or as an object, and either is read the same way
    split <;> dsimp only <;> split
    · exact Keeps.bind (ha.modify fun _ => ⟨rfl, rfl, rfl, rfl⟩) fun _ => object_keeps ha _
    · exact Keeps.fault _
    · exact Keeps.bind (ha.modify fun _ => ⟨rfl, rfl, rfl, rfl⟩) fun _ => object_keeps ha _
    · exact Keeps.fault _
  · exact Keeps.bind Keeps.get fun _ => object_keeps ha _
  · exact Keeps.bind Keeps.get fun _ => Keeps.pure _
  · refine Keeps.bind (textAt_keeps _ _) fun _ => ?_
    extract_lets done
    have hdone : ∀ items, Keeps J (done items) := fun _ => withRuntime_keeps ha hev hs _ _
    split
    · exact Keeps.bind (Keeps.pure _) hdone
    · exact Keeps.bind (refuse_keeps _) hdone

theorem operation_keeps (op : String) (raw : Json) : Keeps J (operation I op raw) := by
  unfold operation
  split
  · rename_i x hx
    rcases mem_orElse hx with hx | hx
    · exact control_keeps hev ha h _ _ x hx
    rcases mem_orElse hx with hx | hx
    · exact containers_keeps hev ha h hs hr _ _ x hx
    rcases mem_orElse hx with hx | hx
    · exact scopes_keeps hev ha h hs hr _ _ x hx
    rcases mem_orElse hx with hx | hx
    · exact watchers_keeps hev ha h hs hr _ _ x hx
    · exact ticks_keeps hev ha hs _ _ x hx
  · exact refuse_keeps _

end Groups

theorem closureRunner_keeps {ev : Json → Script Value} (ha : Apart J) (hev : ∀ e, Keeps J (ev e))
    (c : Closure) (a : Args) : Keeps J ((closureRunner ev).invoke c a) := by
  refine Keeps.bind registry_keeps fun _ => ?_
  split
  · exact refuse_keeps _
  · refine Keeps.bind (pushFrame_keeps ha _) fun _ => Keeps.bind (Keeps.attempt (hev _)) fun _ =>
      Keeps.bind (popFrame_keeps ha) fun _ => ?_
    split
    · exact Keeps.pure _
    · exact Keeps.fault _

/-- A family of invariants that the interpreter keeps: each looks only at the tables, the queue
and the tick batch's jobs and survives every primitive update, and the scheduler keeps each as
soon as host code keeps every member of the family. -/
structure Kept {ι : Type} (K : ι → Machine Registry → Prop) : Prop where
  apart : ∀ i, Apart (K i)
  stable : ∀ i, Stable (K i)
  schedules : ∀ r : Runner Registry, (∀ i c a, Keeps (K i) (r.invoke c a)) → ∀ i, Schedules (K i) r

namespace Kept

variable {ι : Type} {K : ι → Machine Registry → Prop} (hK : Kept K)
include hK

/-- Every expression keeps every member of the family: by induction on the fuel, since the
closures handed to the engine are run by the interpreter with one unit of fuel less, and so keep
the family by the induction hypothesis. -/
theorem eval (fuel : Nat) : ∀ i e, Keeps (K i) (eval fuel e) := by
  induction fuel with
  | zero => exact fun _ _ => Keeps.halt _
  | succ fuel ih =>
    intro i e
    have hhost : ∀ j c a, Keeps (K j) ((closureRunner (Script.eval fuel)).invoke c a) :=
      fun j => closureRunner_keeps (hK.apart j) (ih j)
    unfold Script.eval
    split
    · exact Keeps.pure _
    · exact Keeps.pure _
    · exact Keeps.pure _
    · exact Keeps.pure _
    · exact refuse_keeps _
    · exact operation_keeps (ih i) (hK.apart i) (hK.stable i) (hK.schedules _ hhost i) (hhost i) _ _
    · exact refuse_keeps _

/-- The closures of a script, as host code, keep every member of the family. -/
theorem host (fuel : Nat) (i : ι) (c : Closure) (a : Args) :
    Keeps (K i) ((closureRunner (Script.eval fuel)).invoke c a) :=
  closureRunner_keeps (hK.apart i) (hK.eval fuel i) c a

end Kept

theorem Kept.ofTables (hJ : OnTables J) (h : Stable J) : Kept fun _ : Unit => J :=
  ⟨fun _ => hJ.apart, fun _ => h, fun _ hr _ => h.toEval.schedules hJ.offSchedule (hr ())⟩

theorem eval_keeps (hJ : OnTables J) (h : Stable J) (fuel : Nat) : ∀ e, Keeps J (eval fuel e) :=
  (Kept.ofTables hJ h).eval fuel ()

/-- The states a script passes through between its steps, from the fresh machine: each step
starts with an empty log, and its state is kept whether it ends with a value or a fault. -/
inductive Session : Machine Registry → Prop
  | fresh : Session fresh
  | step {m m' : Machine Registry} (e : Json) {r : Except Fault Value} :
      Session m → ExceptT.run (eval expressionFuel e) { m with log := #[] } = .ok (r, m') →
      Session m'

/-- An invariant of the tables that every primitive update keeps, and that the fresh machine
has, holds in every state of every session. -/
theorem Session.holds (hJ : OnTables J) (h : Stable J) (h₀ : J Script.fresh) {m : Machine Registry}
    (hm : Session m) : J m := by
  induction hm with
  | fresh => exact h₀
  | @step m _ e _ _ hrun ih =>
    exact Triple.of_run (eval_keeps hJ h _ e) hrun (hJ m { m with log := #[] } rfl rfl ih)

end Script

end Reactivity

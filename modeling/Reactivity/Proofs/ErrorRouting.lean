import Reactivity.Proofs.Dismantling

/-!
# Routing faults up the scope tree

A fault raised on behalf of a scope travels up the scope's ancestors, nearest first, starting
at its parent. At each living ancestor the error-captured hooks registered so far are asked in
order, and the first that answers `false` ends the routing. A fault that reaches a dropped
ancestor, or passes the root, goes to the host's handler, or to the log when none is installed.

The engine walks up parent links read from the state as it goes, for at most one step more than
there are scopes. Parent links never change, and each points to a scope created earlier
(`Machine.ParentsEarlier`), so the walk visits exactly the chain of parents fixed when the fault
is raised (`Machine.lineage`), and the bound never cuts it short: `error_routing` states
`Eff.handleError` as `Eff.consult` along that chain.
-/

namespace Reactivity

variable {η : Type}

/-! ## The scope tree -/

namespace Machine

variable {m m' : Machine η}

/-- Every parent link points to a scope created earlier. -/
def ParentsEarlier (m : Machine η) : Prop :=
  ∀ s p, (m.scope s).parent = some p → p.idx < s.idx

/-- The scopes above `s`, nearest first: its parent, its parent's parent, and so on. Each link
followed points to a scope created earlier, which bounds the chain. -/
def lineage (m : Machine η) (s : ScopeId) : List ScopeId :=
  match (m.scope s).parent with
  | none => []
  | some p => if p.idx < s.idx then p :: m.lineage p else []
termination_by s.idx

/-- `m'` keeps the parent link of every scope of `m`. -/
def KeepsParents (m m' : Machine η) : Prop :=
  ∀ s : ScopeId, s.idx < m.scopes.size → (m'.scope s).parent = (m.scope s).parent

theorem lineage_of_none {s : ScopeId} (hp : (m.scope s).parent = none) : m.lineage s = [] := by
  rw [lineage, hp]

theorem lt_of_mem_lineage {s a : ScopeId} (ha : a ∈ m.lineage s) : a.idx < s.idx := by
  fun_induction lineage m s with
  | case1 => simp at ha
  | case2 s p _ hlt ih =>
    rcases List.mem_cons.1 ha with rfl | ha
    · exact hlt
    · exact (ih ha).trans hlt
  | case3 => simp at ha

theorem lt_size_of_parent {s p : ScopeId} (hp : (m.scope s).parent = some p) :
    s.idx < m.scopes.size := by
  by_contra hle
  rw [scope_of_size_le (Nat.le_of_not_lt hle)] at hp
  cases hp

theorem length_lineage_lt (s : ScopeId) : (m.lineage s).length < m.scopes.size + 1 := by
  have hle : ∀ t : ScopeId, (m.lineage t).length ≤ t.idx := by
    intro t
    fun_induction lineage m t with
    | case1 => simp
    | case2 t p _ hlt ih => simp only [List.length_cons]; omega
    | case3 => simp
  cases hp : (m.scope s).parent with
  | none => simp [lineage_of_none hp]
  | some p => have := lt_size_of_parent hp; have := hle s; omega

namespace KeepsParents

theorem refl (m : Machine η) : m.KeepsParents m := fun _ _ => rfl

theorem of_scopes (h : m.KeepsParents m') {m'' : Machine η} (hs : m''.scopes = m'.scopes) :
    m.KeepsParents m'' := fun s hs' => by
  unfold Machine.scope
  rw [hs]
  exact h s hs'

theorem collect (h : m.KeepsParents m') : m.KeepsParents m'.collect := fun s hs => by
  obtain ⟨b, hb⟩ := m'.collect_scope s
  rw [hb]
  exact h s hs

end KeepsParents

end Machine

theorem keepsParents_base (m₀ : Machine η) : Stable.Base m₀.KeepsParents where
  depend d := by
    refine Keeps.bind Keeps.get fun m => ?_
    split
    · exact Keeps.pure _
    · exact Keeps.ite _ (Keeps.bind (Keeps.modify fun _ h => h) fun _ =>
        Keeps.ite _ (Keeps.modify fun _ h => h) (Keeps.pure _)) (Keeps.pure _)
  pin _ := Keeps.modify fun _ h => h
  release := Keeps.modify fun _ h => h
  settle := Keeps.modify fun m h => by
    split
    · exact h.collect
    · exact h
  unhold := Keeps.bind (Keeps.modify fun _ h => h) fun _ => Keeps.modify fun m h => by
    split
    · exact h.collect
    · exact h
  report _ := Keeps.modify fun _ h => h

theorem Keeps.run_bind_congr {I : Machine η → Prop} {α β : Type} {x : Eff η α}
    {k₁ k₂ : α → Eff η β} (hx : Keeps I x) {m : Machine η} (hm : I m)
    (hk : ∀ a m', I m' → ExceptT.run (k₁ a) m' = ExceptT.run (k₂ a) m') :
    ExceptT.run (x >>= k₁) m = ExceptT.run (x >>= k₂) m := by
  rw [Eff.exec_bind, Eff.exec_bind]
  rcases h : ExceptT.run x m with _ | ⟨_ | a, m'⟩
  · rfl
  · rfl
  · exact hk a m' (hx m hm _ _ h)

namespace Eff

variable {r : Runner η} {err : Fault} {info : String}

/-! ## Asking the hooks of one scope -/

/-- An answer of an error-captured hook that stops the fault: `false`, and nothing else. -/
def Captures : Except Fault Value → Bool
  | .ok (.bool false) => true
  | _ => false

theorem captureAt_cons (h : Closure) (hooks : List Closure) :
    captureAt r (h :: hooks) err info = (do
      let answer ← attempt (r.invoke h (.fault err.message err.kindName info))
      if Captures answer then pure false else captureAt r hooks err info) := by
  simp only [captureAt, List.forIn_cons, bind_assoc]
  congr 1
  funext answer
  rcases answer with e | v
  · simp [Captures]
  · cases v with
    | bool b => cases b <;> simp [Captures]
    | _ => simp [Captures]

/-- Asks the error-captured hooks of `a`, as registered when it is reached, holding `a` while
they run: `false` when one of them captured the fault. -/
def askHooks (r : Runner η) (err : Fault) (info : String) (a : ScopeId) : Eff η Bool := do
  pin (.scope a)
  let goOn ← captureAt r ((← get).scope a).errorCaptured err info
  unhold
  return goOn

/-! ## The loop, and routing along a chain -/

/-- The routing loop from the scope `current`, for at most `bound` more scopes. -/
def routeFrom (r : Runner η) (err : Fault) (info : String) : Nat → Option ScopeId → Eff η Unit
  | _, none => unhandled err info
  | 0, some _ => unhandled err info
  | bound + 1, some a => do
    let goOn ← askHooks r err info a
    if goOn then
      let m ← get
      routeFrom r err info bound (m.parentOf a)

/-- Routing along a fixed chain of scopes: at each scope still alive its hooks are asked, and
the first that captures the fault ends the routing; a dropped scope or the end of the chain
hands the fault to the host's handler. -/
def consult (r : Runner η) (err : Fault) (info : String) : List ScopeId → Eff η Unit
  | [] => unhandled err info
  | a :: above => do
    if ((← get).scope a).dropped then unhandled err info
    else
      let goOn ← askHooks r err info a
      if goOn then consult r err info above

theorem handleError_eq (r : Runner η) (err : Fault) (scope : Option ScopeId) (info : String) :
    handleError r err scope info = (do
      let m ← get
      routeFrom r err info (m.scopes.size + 1) (scope.bind m.parentOf)) := by
  unfold handleError
  congr 1
  funext m
  simp only [Std.Legacy.Range.forIn_eq_forIn_range']
  generalize scope.bind m.parentOf = c
  have hk : [:m.scopes.size + 1].size = m.scopes.size + 1 := by simp [Std.Legacy.Range.size]
  rw [hk]
  generalize m.scopes.size + 1 = k
  generalize 0 = s
  -- one turn of the loop per unit of the bound, from any position of the range
  induction k generalizing s c with
  | zero => cases c <;> simp [routeFrom]
  | succ k ih =>
    cases c with
    | none => simp [routeFrom, List.range'_succ]
    | some a =>
      simp only [List.range'_succ, List.forIn_cons, routeFrom, askHooks, bind_assoc, pure_bind]
      congr 1; funext _; congr 1; funext x; congr 1; funext goOn; congr 1; funext _
      cases goOn
      · simp
      · rw [if_neg (by decide)]
        simp only [bind_assoc, pure_bind]
        congr 1; funext m'
        exact ih _ _

/-- What error-captured hooks may do: anything but change the parent of an existing scope. -/
def HooksKeepParents (r : Runner η) : Prop :=
  ∀ (m₀ : Machine η) c msg kind info, Keeps m₀.KeepsParents (r.invoke c (.fault msg kind info))

theorem askHooks_keeps (hr : HooksKeepParents r) (m₀ : Machine η) (a : ScopeId) :
    Keeps m₀.KeepsParents (askHooks r err info a) :=
  Keeps.bind ((keepsParents_base m₀).pin _) fun _ => Keeps.bind Keeps.get fun _ =>
    Keeps.bind (Stable.Base.captureAt (hr m₀) _ _ _) fun _ =>
      Keeps.bind (keepsParents_base m₀).unhold fun _ => Keeps.pure _

/-- The loop follows the lineage fixed at the start: while the hooks run, every link it reads
is the one of `m`, and the lineage is shorter than the bound. -/
theorem routeFrom_lineage (hr : HooksKeepParents r) {m : Machine η} (hm : m.ParentsEarlier)
    (s : ScopeId) (n : Nat) (hn : (m.lineage s).length < n) (m' : Machine η)
    (h' : m.KeepsParents m') :
    ExceptT.run (routeFrom r err info n ((m.scope s).parent.bind m'.alive)) m' =
      ExceptT.run (consult r err info (m.lineage s)) m' := by
  -- induction along the lineage, each link to a scope created earlier
  fun_induction Machine.lineage m s generalizing n m' with
  | case1 s hp =>
    rw [hp]
    cases n <;> rfl
  | case2 s p hp hlt ih =>
    obtain ⟨k, rfl⟩ : ∃ k, n = k + 1 := ⟨n - 1, by simp at hn; omega⟩
    have hk : (m.lineage p).length < k := by simpa using hn
    have hpm : p.idx < m.scopes.size := hlt.trans (Machine.lt_size_of_parent hp)
    rw [hp, Option.bind_some]
    simp only [consult, exec_get_bind]
    unfold Machine.alive
    by_cases hd : (m'.scope p).dropped = true
    · rw [if_pos hd, if_pos hd]
      rfl
    · rw [if_neg hd, if_neg hd]
      simp only [routeFrom]
      -- the hooks of `p` run alike; after them the loop reads `p`'s link, still the one of `m`
      refine Keeps.run_bind_congr (askHooks_keeps hr m p) h' fun goOn m'' h'' => ?_
      cases goOn
      · rfl
      · have hpar : m''.parentOf p = (m.scope p).parent.bind m''.alive := by
          unfold Machine.parentOf
          rw [h'' p hpm]
        simp only [if_true, exec_get_bind, hpar]
        exact ih k hk m'' h''
  | case3 s p hp hlt => exact absurd (hm s p hp) hlt

end Eff

/-! ## Routing a fault -/

/-- How a fault raised for `scope` in state `m` is routed: along the lineage fixed when it is
raised, up to scopes each created before the one below it (so never to `scope` itself), the
hooks of each asked in registration order up to the first that captures the fault. -/
structure ErrorRouting (r : Runner η) (err : Fault) (info : String) (m : Machine η)
    (scope : Option ScopeId) : Prop where
  walk : ExceptT.run (Eff.handleError r err scope info) m =
    ExceptT.run (Eff.consult r err info (scope.elim [] m.lineage)) m
  above : ∀ s, scope = some s → ∀ a ∈ m.lineage s, a.idx < s.idx
  hooks : ∀ h hooks, Eff.captureAt r (h :: hooks) err info = (do
    let answer ← Eff.attempt (r.invoke h (.fault err.message err.kindName info))
    if Eff.Captures answer then pure false else Eff.captureAt r hooks err info)

/-- Faults are routed up the lineage of their scope, in every tree whose parent links point to
scopes created earlier, whatever the hooks do short of changing a parent link. -/
theorem error_routing (r : Runner η) (hr : Eff.HooksKeepParents r) (m : Machine η)
    (hm : m.ParentsEarlier) (err : Fault) (scope : Option ScopeId) (info : String) :
    ErrorRouting r err info m scope where
  walk := by
    rw [Eff.handleError_eq, Eff.exec_get_bind]
    cases scope with
    | none => cases m.scopes.size <;> rfl
    | some s => exact Eff.routeFrom_lineage hr hm s _ (m.length_lineage_lt s) m (.refl m)
  above s hs a ha := Machine.lt_of_mem_lineage ha
  hooks := Eff.captureAt_cons

/-- A root scope whose one hook is closure 0, and a child of it. -/
def rootAndChild : Machine Unit :=
  { scopes := #[{ name := "root", parent := none, props := ⟨0⟩, data := ⟨0⟩, errorCaptured := [0] },
      { name := "child", parent := some ⟨0⟩, props := ⟨0⟩, data := ⟨1⟩ }]
    host := () }

/-- Host code whose every closure answers `false`. -/
def answersFalse : Runner Unit := ⟨fun _ _ => pure (.bool false), 1⟩

theorem error_routing_child :
    rootAndChild.ParentsEarlier ∧ Eff.HooksKeepParents answersFalse ∧
      ErrorRouting answersFalse (.custom "boom") "render" rootAndChild (some ⟨1⟩) := by
  have hm : rootAndChild.ParentsEarlier := by
    intro s p hp
    rcases s with ⟨_ | _ | n⟩
    · simp [Machine.scope, rootAndChild] at hp
    · simp [Machine.scope, rootAndChild] at hp
      subst hp
      decide
    · simp [Machine.scope, rootAndChild] at hp
      cases hp
  have hr : Eff.HooksKeepParents answersFalse := fun _ _ _ _ _ => Keeps.pure _
  exact ⟨hm, hr, error_routing answersFalse hr rootAndChild hm _ _ _⟩

end Reactivity

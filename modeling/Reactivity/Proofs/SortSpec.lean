import Reactivity.Proofs.SortItems
import Mathlib.Order.Defs.Unbundled
import Mathlib.Data.List.Perm.Basic

/-!
# Stable sorting: what it means

Let `lt` be a strict weak order: irreflexive, transitive, and with its ties (neither is before
the other) transitive. Sorting stably by `lt` puts a list in order and keeps the items of each
class of ties in the order they came. That fixes the result (`SortsTo`, `SortsTo.unique`), and
`List.mergeSort` by `fun a b => !lt b a` gives it (`sortsTo_mergeSort`), so a sort that gives a
stable order gives the merge sort's (`SortsTo.eq_mergeSort`).

The steps of a sort give stable orders piece by piece: a list already in order, a strictly
descending one turned round (`SortsTo.reverse`), two sorted parts merged (`SortsTo.merge`), and two
sorted parts of which the first is wholly before the second (`SortsTo.append`); the input only
matters through its classes of ties, so it may be split first along a property that ties share
(`SortsTo.split`).
-/

namespace Reactivity.Sorting

variable {α : Type} (lt : α → α → Bool)

/-- `a` and `b` tie: neither is before the other. -/
def ties (a b : α) : Bool := !lt a b && !lt b a

/-- `ys` is `xs` sorted stably by `lt`: in order, and with each class of ties in the order of
`xs`. -/
structure SortsTo (xs ys : List α) : Prop where
  sorted : ys.Pairwise fun a b => lt b a = false
  classes : ∀ c, ys.filter (ties lt c) = xs.filter (ties lt c)

variable {lt}

theorem ties_iff {a b : α} : ties lt a b = true ↔ lt a b = false ∧ lt b a = false := by
  simp [ties]

/-! ## Strict weak orders -/

namespace Weak

variable (hw : IsStrictWeakOrder α fun a b => lt a b = true)
include hw

theorem irrefl (a : α) : lt a a = false := by
  simpa using hw.irrefl a

theorem trans {a b c : α} (hab : lt a b = true) (hbc : lt b c = true) : lt a c = true :=
  hw.trans a b c hab hbc

/-- Negative transitivity: what is before `c` is before anything in between. -/
theorem conn {a c : α} (b : α) (h : lt a c = true) : lt a b = true ∨ lt b c = true := by
  by_contra hn
  simp only [not_or, Bool.not_eq_true] at hn
  obtain ⟨hab, hbc⟩ := hn
  have hba : lt b a = false := by
    cases hx : lt b a
    · rfl
    · exact absurd (trans hw hx h) (by simp [hbc])
  have hcb : lt c b = false := by
    cases hx : lt c b
    · rfl
    · exact absurd (trans hw h hx) (by simp [hab])
  have hac := hw.incomp_trans a b c ⟨by simp [hab], by simp [hba]⟩
    ⟨by simp [hbc], by simp [hcb]⟩
  exact hac.1 h

theorem lt_of_lt_of_not {a b c : α} (hab : lt a b = true) (hcb : lt c b = false) :
    lt a c = true :=
  (conn hw c hab).resolve_right (by simp [hcb])

theorem lt_of_not_of_lt {a b c : α} (hba : lt b a = false) (hbc : lt b c = true) :
    lt a c = true :=
  (conn hw a hbc).resolve_left (by simp [hba])

/-- Not being after is transitive. -/
theorem not_trans {a b c : α} (hba : lt b a = false) (hcb : lt c b = false) : lt c a = false := by
  cases h : lt c a
  · rfl
  · rcases conn hw b h with h' | h'
    · simp [hcb] at h'
    · simp [hba] at h'

theorem total (a b : α) : lt a b = false ∨ lt b a = false := by
  cases h : lt a b
  · exact .inl rfl
  · refine .inr ?_
    cases h' : lt b a
    · rfl
    · have := trans hw h h'
      rw [irrefl hw] at this
      cases this

theorem ties_self (a : α) : ties lt a a = true := by
  simp [ties, irrefl hw]

omit hw in
theorem ties_comm {a b : α} (h : ties lt a b = true) : ties lt b a = true := by
  rw [ties_iff] at *
  exact ⟨h.2, h.1⟩

theorem ties_trans {a b c : α} (hab : ties lt a b = true) (hbc : ties lt b c = true) :
    ties lt a c = true := by
  rw [ties_iff] at *
  exact ⟨not_trans hw hbc.1 hab.1, not_trans hw hab.2 hbc.2⟩

/-- Items that tie are before and after the same items. -/
theorem lt_left_of_ties {a b : α} (h : ties lt a b = true) (x : α) : lt a x = lt b x := by
  rw [ties_iff] at h
  cases hb : lt b x
  · cases ha : lt a x
    · rfl
    · rw [lt_of_not_of_lt hw h.1 ha] at hb
      cases hb
  · exact lt_of_not_of_lt hw h.2 hb

theorem lt_right_of_ties {a b : α} (h : ties lt a b = true) (x : α) : lt x a = lt x b := by
  rw [ties_iff] at h
  cases hb : lt x b
  · cases ha : lt x a
    · rfl
    · rw [lt_of_lt_of_not hw ha h.2] at hb
      cases hb
  · exact lt_of_lt_of_not hw hb h.1

omit hw in
theorem not_ties_of_lt {a b : α} (h : lt a b = true) : ties lt a b = false := by
  simp [ties, h]

theorem asymm {a b : α} (h : lt a b = true) : lt b a = false :=
  (total hw a b).resolve_left (by simp [h])

/-- `fun a b => !lt b a`, the order the merge sort is given, is transitive. -/
theorem le_trans (a b c : α) (hab : (!lt b a) = true) (hbc : (!lt c b) = true) :
    (!lt c a) = true := by
  simp only [Bool.not_eq_true'] at *
  exact not_trans hw hab hbc

theorem le_total (a b : α) : ((!lt b a) || !lt a b) = true := by
  rcases total hw a b with h | h <;> simp [h]

end Weak

/-! ## The stable order of a list -/

namespace SortsTo

variable {xs xs' ys ys' zs : List α}

theorem of_sorted (h : xs.Pairwise fun a b => lt b a = false) : SortsTo lt xs xs :=
  ⟨h, fun _ => rfl⟩

theorem single (x : α) : SortsTo lt [x] [x] :=
  of_sorted (List.pairwise_singleton _ x)

variable (hw : IsStrictWeakOrder α fun a b => lt a b = true)
include hw

/-- Lists with the same classes of ties have the same items. -/
theorem mem_of_classes (h : ∀ c, ys.filter (ties lt c) = xs.filter (ties lt c)) {a : α}
    (ha : a ∈ ys) : a ∈ xs := by
  have : a ∈ ys.filter (ties lt a) := List.mem_filter.2 ⟨ha, Weak.ties_self hw a⟩
  rw [h a] at this
  exact (List.mem_filter.1 this).1

theorem mem (h : SortsTo lt xs ys) {a : α} (ha : a ∈ ys) : a ∈ xs :=
  mem_of_classes hw h.classes ha

/-- The head of a sorted list is before none of its items. -/
theorem not_lt_head {y z : α} {ys : List α} (hy : (y :: ys).Pairwise fun a b => lt b a = false)
    (hz : z ∈ y :: ys) : lt z y = false := by
  rcases List.mem_cons.1 hz with rfl | hz
  · exact Weak.irrefl hw z
  · exact List.rel_of_pairwise_cons hy hz

/-- A sorted list is fixed by its classes of ties. -/
theorem eq_of_classes (hy : ys.Pairwise fun a b => lt b a = false)
    (hz : zs.Pairwise fun a b => lt b a = false)
    (h : ∀ c, ys.filter (ties lt c) = zs.filter (ties lt c)) : ys = zs := by
  induction ys generalizing zs with
  | nil =>
    cases zs with
    | nil => rfl
    | cons z zs => cases mem_of_classes hw (fun c => (h c).symm) List.mem_cons_self
  | cons y ys ih =>
    cases zs with
    | nil => cases mem_of_classes hw h List.mem_cons_self
    | cons z zs =>
      -- each head is in the other list, so neither is before the other: they tie
      have hyz : ties lt y z = true := ties_iff.2
        ⟨not_lt_head hw hz (mem_of_classes hw h List.mem_cons_self),
          not_lt_head hw hy (mem_of_classes hw (fun c => (h c).symm) List.mem_cons_self)⟩
      have hhead := h y
      rw [List.filter_cons_of_pos (Weak.ties_self hw y), List.filter_cons_of_pos hyz] at hhead
      obtain ⟨rfl, -⟩ := List.cons.inj hhead
      refine congrArg (y :: ·) (ih hy.of_cons hz.of_cons fun c => ?_)
      have hc := h c
      by_cases hcy : ties lt c y = true
      · rw [List.filter_cons_of_pos hcy, List.filter_cons_of_pos hcy] at hc
        exact (List.cons.inj hc).2
      · rwa [List.filter_cons_of_neg hcy, List.filter_cons_of_neg hcy] at hc

theorem unique (hy : SortsTo lt xs ys) (hz : SortsTo lt xs zs) : ys = zs :=
  eq_of_classes hw hy.sorted hz.sorted fun c => (hy.classes c).trans (hz.classes c).symm

end SortsTo

/-- The merge sort by `fun a b => !lt b a` is the stable order. -/
theorem sortsTo_mergeSort (hw : IsStrictWeakOrder α fun a b => lt a b = true) (xs : List α) :
    SortsTo lt xs (xs.mergeSort fun a b => !lt b a) := by
  have hsorted := List.pairwise_mergeSort (Weak.le_trans hw) (Weak.le_total hw) xs
  refine ⟨by simpa using hsorted, fun c => ?_⟩
  -- the class of `c` in input order is in order, so it is a sublist of the merge sort, and of
  -- the class there; the two have the same length
  have hclass : (xs.filter (ties lt c)).Pairwise fun a b => (!lt b a) = true := by
    refine List.pairwise_iff_forall_sublist.2 fun {a b} hab => ?_
    have ha := (List.mem_filter.1 (hab.subset (List.mem_cons_self))).2
    have hb := (List.mem_filter.1 (hab.subset (List.mem_cons_of_mem _ List.mem_cons_self))).2
    simpa using (ties_iff.1 (Weak.ties_trans hw (Weak.ties_comm ha) hb)).2
  have hsub := (List.sublist_mergeSort (Weak.le_trans hw) (Weak.le_total hw) hclass
    List.filter_sublist).filter (ties lt c)
  simp only [List.filter_filter, Bool.and_self] at hsub
  refine (hsub.eq_of_length ?_).symm
  simp only [← List.countP_eq_length_filter]
  exact ((List.mergeSort_perm xs _).countP_eq _).symm

namespace SortsTo

variable {xs xs' ys ys' : List α} (hw : IsStrictWeakOrder α fun a b => lt a b = true)
include hw

theorem eq_mergeSort (h : SortsTo lt xs ys) : ys = xs.mergeSort fun a b => !lt b a :=
  h.unique hw (sortsTo_mergeSort hw xs)

theorem perm (h : SortsTo lt xs ys) : ys.Perm xs :=
  h.eq_mergeSort hw ▸ List.mergeSort_perm xs _

theorem length_eq (h : SortsTo lt xs ys) : ys.length = xs.length :=
  (h.perm hw).length_eq

/-- A strictly descending list turned round is its stable order: no two of its items tie. -/
theorem reverse (h : xs.Pairwise fun a b => lt b a = true) : SortsTo lt xs xs.reverse := by
  refine ⟨List.pairwise_reverse.2 (h.imp (Weak.asymm hw)), fun c => ?_⟩
  rw [List.filter_reverse]
  -- the class of `c` is strictly descending too, so it has at most one item
  have hdesc : (xs.filter (ties lt c)).Pairwise fun a b => lt b a = true :=
    h.sublist List.filter_sublist
  have hall : ∀ a ∈ xs.filter (ties lt c), ties lt c a = true := fun a ha =>
    (List.mem_filter.1 ha).2
  generalize xs.filter (ties lt c) = l at hdesc hall
  rcases l with _ | ⟨a, _ | ⟨b, l⟩⟩
  · rfl
  · rfl
  · have hba : lt b a = true := List.rel_of_pairwise_cons hdesc List.mem_cons_self
    have hab := Weak.ties_trans hw (Weak.ties_comm (hall a List.mem_cons_self))
      (hall b (List.mem_cons_of_mem _ List.mem_cons_self))
    rw [(ties_iff.1 hab).2] at hba
    cases hba

/-- Two sorted parts, all of the first before all of the second, side by side. -/
theorem append (ha : SortsTo lt xs xs') (hb : SortsTo lt ys ys')
    (hlt : ∀ a ∈ xs, ∀ b ∈ ys, lt a b = true) : SortsTo lt (xs ++ ys) (xs' ++ ys') := by
  refine ⟨List.pairwise_append.2 ⟨ha.sorted, hb.sorted, fun a ha' b hb' => ?_⟩, fun c => ?_⟩
  · exact Weak.asymm hw (hlt a (ha.mem hw ha') b (hb.mem hw hb'))
  · rw [List.filter_append, List.filter_append, ha.classes, hb.classes]

omit hw in
/-- The input counts only through its classes of ties: splitting it first along a property
that ties share, keeping the order on each side, changes nothing. -/
theorem split {p : α → Bool} (hp : ∀ a b, ties lt a b = true → p a = p b)
    (h : SortsTo lt (xs.filter p ++ xs.filter fun a => !p a) ys) : SortsTo lt xs ys := by
  refine ⟨h.sorted, fun c => ?_⟩
  rw [h.classes, List.filter_append, List.filter_filter, List.filter_filter]
  -- the class of `c` lies wholly on the side of `c`
  have hleft : xs.filter (fun a => ties lt c a && p a) = xs.filter fun a => ties lt c a && p c :=
    List.filter_congr fun a _ => by
      cases hca : ties lt c a
      · rfl
      · rw [hp c a hca]
  have hright : xs.filter (fun a => ties lt c a && !p a) =
      xs.filter fun a => ties lt c a && !p c :=
    List.filter_congr fun a _ => by
      cases hca : ties lt c a
      · rfl
      · rw [hp c a hca]
  rw [hleft, hright]
  cases p c <;> simp

end SortsTo

/-! ## Merging sorted lists -/

/-- Merging a left part that ends with an item after every item of the right: it stays last. -/
theorem merge_concat_left {y : α} {t zs : List α} (h : ∀ z ∈ zs, lt z y = true) :
    ((t ++ [y]).merge zs fun a b => !lt b a) = (t.merge zs fun a b => !lt b a) ++ [y] := by
  induction t generalizing zs with
  | nil =>
    simp only [List.nil_append, List.nil_merge]
    induction zs with
    | nil => simp
    | cons z zs ih =>
      have hz := List.forall_mem_cons.1 h
      rw [List.cons_merge_cons_neg _ _ _ (by simp [hz.1]), ih hz.2, List.cons_append]
  | cons a t ih =>
    induction zs with
    | nil => simp
    | cons z zs ihz =>
      have hz := List.forall_mem_cons.1 h
      rw [List.cons_append]
      by_cases hza : lt z a = true
      · rw [List.cons_merge_cons_neg _ _ _ (by simp [hza]),
          List.cons_merge_cons_neg _ _ _ (by simp [hza]), ← List.cons_append, ihz hz.2,
          List.cons_append]
      · rw [List.cons_merge_cons_pos _ _ _ (by simpa using hza),
          List.cons_merge_cons_pos _ _ _ (by simpa using hza), ih h, List.cons_append]

/-- Merging onto a right part that ends with an item before none of the left: it stays last. -/
theorem merge_concat_right {y : α} {t zs : List α} (h : ∀ a ∈ t, lt y a = false) :
    (t.merge (zs ++ [y]) fun a b => !lt b a) = (t.merge zs fun a b => !lt b a) ++ [y] := by
  induction t generalizing zs with
  | nil => simp
  | cons a t ih =>
    have ha := List.forall_mem_cons.1 h
    induction zs with
    | nil =>
      rw [List.nil_append, List.cons_merge_cons_pos _ _ _ (by simp [ha.1]),
        ← List.nil_append [y], ih ha.2]
      simp
    | cons z zs ihz =>
      rw [List.cons_append]
      by_cases hza : lt z a = true
      · rw [List.cons_merge_cons_neg _ _ _ (by simp [hza]),
          List.cons_merge_cons_neg _ _ _ (by simp [hza]), ihz, List.cons_append]
      · rw [List.cons_merge_cons_pos _ _ _ (by simpa using hza),
          List.cons_merge_cons_pos _ _ _ (by simpa using hza), ← List.cons_append, ih ha.2,
          List.cons_append]

/-- An item before none of the right goes first. -/
theorem merge_cons_left {a : α} {xs ys : List α} (h : ∀ b ∈ ys, lt b a = false) :
    ((a :: xs).merge ys fun a b => !lt b a) = a :: xs.merge ys fun a b => !lt b a := by
  cases ys with
  | nil => simp
  | cons b ys => exact List.cons_merge_cons_pos _ _ _ (by simp [h b List.mem_cons_self])

/-- An item of the right before every item of the left goes first. -/
theorem merge_cons_right {b : α} {xs ys : List α} (h : ∀ a ∈ xs, lt b a = true) :
    (xs.merge (b :: ys) fun a b => !lt b a) = b :: xs.merge ys fun a b => !lt b a := by
  cases xs with
  | nil => simp
  | cons a xs => exact List.cons_merge_cons_neg _ _ _ (by simp [h a List.mem_cons_self])

section Merge

variable {xs xs' ys ys' : List α} (hw : IsStrictWeakOrder α fun a b => lt a b = true)
include hw

theorem sorted_merge (hx : xs.Pairwise fun a b => lt b a = false)
    (hy : ys.Pairwise fun a b => lt b a = false) :
    (xs.merge ys fun a b => !lt b a).Pairwise fun a b => lt b a = false := by
  simpa using List.pairwise_merge (Weak.le_trans hw) (Weak.le_total hw) xs ys
    (by simpa using hx) (by simpa using hy)

/-- No item of a sorted list that starts after an item of `c`'s class is in the class. -/
theorem filter_ties_eq_nil {c y x : α} {xs : List α} (hc : ties lt c y = true)
    (hyx : lt y x = true) (hx : (x :: xs).Pairwise fun a b => lt b a = false) :
    (x :: xs).filter (ties lt c) = [] := by
  refine List.filter_eq_nil_iff.2 fun a ha => ?_
  have hya : lt y a = true := Weak.lt_of_lt_of_not hw hyx (SortsTo.not_lt_head hw hx ha)
  rw [Weak.not_ties_of_lt (by rwa [Weak.lt_left_of_ties hw hc])]
  simp

/-- A class of ties in the merge of two sorted lists: its items from the left, then those from
the right. -/
theorem filter_ties_merge (c : α) (hx : xs.Pairwise fun a b => lt b a = false)
    (hy : ys.Pairwise fun a b => lt b a = false) :
    (xs.merge ys fun a b => !lt b a).filter (ties lt c) =
      xs.filter (ties lt c) ++ ys.filter (ties lt c) := by
  induction xs generalizing ys with
  | nil => simp
  | cons x xs ih =>
    induction ys with
    | nil => simp
    | cons y ys ihy =>
      by_cases hyx : lt y x = true
      · -- `y` goes first; if it is in the class, nothing of the left is
        rw [List.cons_merge_cons_neg _ _ _ (by simp [hyx])]
        by_cases hcy : ties lt c y = true
        · rw [List.filter_cons_of_pos hcy, ihy hy.of_cons, filter_ties_eq_nil hw hcy hyx hx,
            List.filter_cons_of_pos hcy]
          rfl
        · rw [List.filter_cons_of_neg hcy, ihy hy.of_cons, List.filter_cons_of_neg hcy]
      · rw [List.cons_merge_cons_pos _ _ _ (by simpa using hyx)]
        by_cases hcx : ties lt c x = true
        · rw [List.filter_cons_of_pos hcx, List.filter_cons_of_pos hcx, ih hx.of_cons hy]
          rfl
        · rw [List.filter_cons_of_neg hcx, List.filter_cons_of_neg hcx, ih hx.of_cons hy]

namespace SortsTo

/-- Two sorted parts merged. -/
theorem merge (ha : SortsTo lt xs xs') (hb : SortsTo lt ys ys') :
    SortsTo lt (xs ++ ys) (xs'.merge ys' fun a b => !lt b a) := by
  refine ⟨sorted_merge hw ha.sorted hb.sorted, fun c => ?_⟩
  rw [filter_ties_merge hw c ha.sorted hb.sorted, ha.classes, hb.classes, List.filter_append]

end SortsTo

end Merge

end Reactivity.Sorting

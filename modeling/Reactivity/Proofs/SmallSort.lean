import Reactivity.Proofs.SortSpec

/-!
# Sorting short lists

Inserting from the back merges one item into a sorted list, so sorting by insertion gives the
stable order (`sortsTo_insertionSort`); the network of `sortFour` merges its two pairs, each put
in order first (`sortFour_eq_merge`).

The merge from both ends of two sorted halves takes the least items at the front and the
greatest at the back, half the list at each end. Each end moves between the places where a
stable merge of the halves can stand (`Cut`), and of two such places with the same number of
items taken, or one more, the one further on in one half is no further back in the other
(`Cut.right_mono`). So after half the length the two ends meet at one place, the final check
passes, and the result is the merge (`mergeBothEnds_eq_merge`): the small sort gives the stable
order (`smallSort_eq_mergeSort`).
-/

namespace Reactivity.Sorting

variable {α : Type} {lt : α → α → Bool} (hw : IsStrictWeakOrder α fun a b => lt a b = true)

/-! ## Insertion -/

section Insertion

include hw

theorem insertBack_eq_merge {x : α} {r : List α}
    (h : r.reverse.Pairwise fun a b => lt b a = false) :
    (insertBack lt x r).reverse = r.reverse.merge [x] fun a b => !lt b a := by
  induction r with
  | nil => simp [insertBack]
  | cons y r ih =>
    rw [List.reverse_cons] at h ⊢
    have hr := List.pairwise_append.1 h
    unfold insertBack
    split
    · next hxy =>
      rw [List.reverse_cons, ih hr.1, merge_concat_left (by simpa using hxy)]
    · next hxy =>
      -- `x` is before none of the sorted items, so it goes last
      rw [List.reverse_cons, List.reverse_cons, List.merge_of_le]
      intro a b ha hb
      rw [List.mem_singleton.1 hb, Bool.not_eq_true']
      rw [Bool.not_eq_true] at hxy
      rcases List.mem_append.1 ha with ha | ha
      · exact Weak.not_trans hw (hr.2.2 a ha y List.mem_cons_self) hxy
      · rw [List.mem_singleton.1 ha]
        exact hxy

omit hw in
theorem insertAll_cons (s : List α) (x : α) (xs : List α) :
    insertAll lt s (x :: xs) = insertAll lt (insertBack lt x s.reverse).reverse xs := by
  simp only [insertAll, List.foldl_cons, List.reverse_reverse]

theorem sortsTo_insertAll {s₀ s : List α} (h : SortsTo lt s₀ s) (xs : List α) :
    SortsTo lt (s₀ ++ xs) (insertAll lt s xs) := by
  induction xs generalizing s₀ s with
  | nil => simpa [insertAll] using h
  | cons x xs ih =>
    rw [insertAll_cons, insertBack_eq_merge hw (by rw [List.reverse_reverse]; exact h.sorted),
      List.reverse_reverse, List.append_cons]
    exact ih (h.merge hw (SortsTo.single x))

theorem sortsTo_insertionSort (xs : List α) : SortsTo lt xs (insertionSort lt xs) :=
  sortsTo_insertAll hw (SortsTo.of_sorted List.Pairwise.nil) xs

end Insertion

/-! ## Four items -/

section Four

variable {a b c d : α}
include hw

theorem sortsTo_pair (a b : α) : SortsTo lt [a, b] (if lt b a then [b, a] else [a, b]) := by
  split
  · next hba => exact SortsTo.reverse hw (by simpa using hba)
  · next hba => exact SortsTo.of_sorted (by simpa using hba)

/-- With both pairs in order, the network merges them. -/
theorem sortFour_sorted (hab : lt b a = false) (hcd : lt d c = false) :
    sortFour lt a b c d = [a, b].merge [c, d] fun x y => !lt y x := by
  simp only [sortFour, hab, hcd, Bool.false_eq_true, if_false]
  cases hca : lt c a <;> cases hdb : lt d b
  · -- `a` first and `d` last: the middle two in their order
    cases hcb : lt c b <;> simp [hca, hdb, hcb]
  · have hcb : lt c b = true := Weak.lt_of_not_of_lt hw hcd hdb
    simp [hca, hdb, hcb, hcd]
  · have hda : lt d a = false := Weak.not_trans hw hab hdb
    simp [hca, hdb, hda, hab]
  · -- `c` first and `b` last: the middle two in their order
    cases hda : lt d a <;> simp [hca, hdb, hda]

theorem sortFour_swap_left (h : lt b a = true) : sortFour lt a b c d = sortFour lt b a c d := by
  simp only [sortFour, h, Weak.asymm hw h, if_true, Bool.false_eq_true, if_false]

theorem sortFour_swap_right (h : lt d c = true) : sortFour lt a b c d = sortFour lt a b d c := by
  simp only [sortFour, h, Weak.asymm hw h, if_true, Bool.false_eq_true, if_false]

/-- Four items sorted by the network: the merge of the two pairs, each put in order. -/
theorem sortFour_eq_merge (a b c d : α) :
    sortFour lt a b c d = (if lt b a then [b, a] else [a, b]).merge
      (if lt d c then [d, c] else [c, d]) fun x y => !lt y x := by
  by_cases hba : lt b a = true <;> by_cases hdc : lt d c = true
  · rw [sortFour_swap_left hw hba, sortFour_swap_right hw hdc,
      sortFour_sorted hw (Weak.asymm hw hba) (Weak.asymm hw hdc), if_pos hba, if_pos hdc]
  · rw [sortFour_swap_left hw hba, sortFour_sorted hw (Weak.asymm hw hba) (by simpa using hdc),
      if_pos hba, if_neg hdc]
  · rw [sortFour_swap_right hw hdc, sortFour_sorted hw (by simpa using hba) (Weak.asymm hw hdc),
      if_neg hba, if_pos hdc]
  · rw [sortFour_sorted hw (by simpa using hba) (by simpa using hdc), if_neg hba, if_neg hdc]

theorem sortsTo_sortFour (a b c d : α) : SortsTo lt [a, b, c, d] (sortFour lt a b c d) := by
  rw [sortFour_eq_merge hw]
  exact (sortsTo_pair hw a b).merge hw (sortsTo_pair hw c d)

end Four

/-! ## Where a stable merge stands -/

/-- Having taken the first `i` items of `xs` and the first `j` of `ys`, a stable merge of the two
stands here: no item left is before an item taken from the left, and each item taken from the
right is before every item left on the left. -/
structure Cut (lt : α → α → Bool) (xs ys : List α) (i j : Nat) : Prop where
  left_le : i ≤ xs.length
  right_le : j ≤ ys.length
  left : ∀ a ∈ xs.take i, ∀ b ∈ ys.drop j, lt b a = false
  right : ∀ b ∈ ys.take j, ∀ a ∈ xs.drop i, lt b a = true

theorem getElem_mem_take {xs : List α} {i k : Nat} (hi : i < xs.length) (hk : i < k) :
    xs[i] ∈ xs.take k :=
  List.mem_take_iff_getElem.2 ⟨i, by omega, rfl⟩

theorem getElem_mem_drop {xs : List α} {i : Nat} (hi : i < xs.length) : xs[i] ∈ xs.drop i := by
  rw [List.drop_eq_getElem_cons hi]
  exact List.mem_cons_self

namespace Cut

variable {xs ys : List α} {i j i' j' : Nat}

theorem start : Cut lt xs ys 0 0 :=
  ⟨Nat.zero_le _, Nat.zero_le _, by simp, by simp⟩

theorem finish : Cut lt xs ys xs.length ys.length :=
  ⟨Nat.le_refl _, Nat.le_refl _, by simp, by simp⟩

/-- Of two places where a stable merge stands, the one further on in the left half is no further
back in the right half. -/
theorem right_mono (h : Cut lt xs ys i j) (h' : Cut lt xs ys i' j') (hi : i < i') : j ≤ j' := by
  by_contra hj
  have hxi : i < xs.length := by have := h'.left_le; omega
  have hyj : j' < ys.length := by have := h.right_le; omega
  -- the item of the right at `j'` is before the item of the left at `i` by the first place
  -- and not by the second
  have hlt := h.right _ (getElem_mem_take hyj (by omega)) _ (getElem_mem_drop hxi)
  rw [h'.left _ (getElem_mem_take hxi hi) _ (getElem_mem_drop hyj)] at hlt
  cases hlt

/-- Two places with as many items taken are the same place. -/
theorem eq_of_add_eq (h : Cut lt xs ys i j) (h' : Cut lt xs ys i' j') (hk : i + j = i' + j') :
    i = i' := by
  rcases Nat.lt_trichotomy i i' with hi | hi | hi
  · exact absurd (h.right_mono h' hi) (by omega)
  · exact hi
  · exact absurd (h'.right_mono h hi) (by omega)

/-- Of two places one item apart, the further one has taken one more item from one half. -/
theorem succ_of_add_eq (h : Cut lt xs ys i j) (h' : Cut lt xs ys i' j')
    (hk : i' + j' = i + j + 1) : (i' = i + 1 ∧ j' = j) ∨ (i' = i ∧ j' = j + 1) := by
  rcases Nat.lt_or_ge i i' with hi | hi
  · have := h.right_mono h' hi
    omega
  · rcases Nat.lt_or_ge i' i with hi' | hi'
    · have := h'.right_mono h hi'
      omega
    · omega

section Steps

variable (hx : xs.Pairwise fun a b => lt b a = false) (hy : ys.Pairwise fun a b => lt b a = false)

include hw in
/-- An item of a sorted list is before none of those before it. -/
theorem not_lt_of_mem_take {zs : List α} (hz : zs.Pairwise fun a b => lt b a = false) {k : Nat}
    (hk : k < zs.length) {a : α} (ha : a ∈ zs.take (k + 1)) : lt zs[k] a = false := by
  rw [List.take_succ_eq_append_getElem hk] at ha
  have hsorted : (zs.take k ++ [zs[k]]).Pairwise fun a b => lt b a = false := by
    rw [← List.take_succ_eq_append_getElem hk]
    exact hz.sublist (List.take_sublist _ _)
  rcases List.mem_append.1 ha with ha | ha
  · exact (List.pairwise_append.1 hsorted).2.2 a ha _ List.mem_cons_self
  · rw [List.mem_singleton.1 ha]
    exact Weak.irrefl hw _

omit hw in
/-- An item of a sorted list is after none of those after it. -/
theorem not_lt_of_mem_drop {zs : List α} (hz : zs.Pairwise fun a b => lt b a = false) {k : Nat}
    (hk : k < zs.length) {a : α} (ha : a ∈ zs.drop (k + 1)) : lt a zs[k] = false := by
  have hsorted := hz.sublist (List.drop_sublist k zs)
  rw [List.drop_eq_getElem_cons hk] at hsorted
  exact List.rel_of_pairwise_cons hsorted ha

include hw hy in
/-- The front takes the next item of the left. -/
theorem takeLeft (h : Cut lt xs ys i j) (hi : i < xs.length) (hj : j < ys.length)
    (hle : lt ys[j] xs[i] = false) : Cut lt xs ys (i + 1) j := by
  refine ⟨hi, h.right_le, fun a ha b hb => ?_, fun b hb a ha => ?_⟩
  · rw [List.take_succ_eq_append_getElem hi] at ha
    rcases List.mem_append.1 ha with ha | ha
    · exact h.left a ha b hb
    · rw [List.mem_singleton.1 ha]
      rw [List.drop_eq_getElem_cons hj] at hb
      rcases List.mem_cons.1 hb with rfl | hb
      · exact hle
      · exact Weak.not_trans hw hle (not_lt_of_mem_drop hy hj hb)
  · exact h.right b hb a (List.drop_subset_drop_left _ (Nat.le_succ i) ha)

include hw hx in
/-- The front takes the next item of the right. -/
theorem takeRight (h : Cut lt xs ys i j) (hi : i < xs.length) (hj : j < ys.length)
    (hlt : lt ys[j] xs[i] = true) : Cut lt xs ys i (j + 1) := by
  refine ⟨h.left_le, hj, fun a ha b hb => ?_, fun b hb a ha => ?_⟩
  · exact h.left a ha b (List.drop_subset_drop_left _ (Nat.le_succ j) hb)
  · rw [List.take_succ_eq_append_getElem hj] at hb
    rcases List.mem_append.1 hb with hb | hb
    · exact h.right b hb a ha
    · rw [List.mem_singleton.1 hb]
      rw [List.drop_eq_getElem_cons hi] at ha
      rcases List.mem_cons.1 ha with rfl | ha
      · exact hlt
      · exact Weak.lt_of_lt_of_not hw hlt (not_lt_of_mem_drop hx hi ha)

include hw hy in
/-- The back gives up the last item taken from the left. -/
theorem giveLeft (h : Cut lt xs ys (i + 1) (j + 1)) (hi : i < xs.length) (hj : j < ys.length)
    (hlt : lt ys[j] xs[i] = true) : Cut lt xs ys i (j + 1) := by
  refine ⟨by omega, h.right_le, fun a ha b hb => ?_, fun b hb a ha => ?_⟩
  · exact h.left a (List.take_subset_take_left _ (by omega) ha) b hb
  · rw [List.drop_eq_getElem_cons hi] at ha
    rcases List.mem_cons.1 ha with rfl | ha
    · exact Weak.lt_of_not_of_lt hw (not_lt_of_mem_take hw hy hj hb) hlt
    · exact h.right b hb a ha

include hw hx in
/-- The back gives up the last item taken from the right. -/
theorem giveRight (h : Cut lt xs ys (i + 1) (j + 1)) (hi : i < xs.length) (hj : j < ys.length)
    (hle : lt ys[j] xs[i] = false) : Cut lt xs ys (i + 1) j := by
  refine ⟨h.left_le, by omega, fun a ha b hb => ?_, fun b hb a ha => ?_⟩
  · rw [List.drop_eq_getElem_cons hj] at hb
    rcases List.mem_cons.1 hb with rfl | hb
    · exact Weak.not_trans hw (not_lt_of_mem_take hw hx hi ha) hle
    · exact h.left a ha b hb
  · exact h.right b (List.take_subset_take_left _ (by omega) hb) a ha

end Steps

end Cut

/-! ## The merge from both ends -/

section Ends

variable [Inhabited α] {xs ys : List α} {k : Nat} {e : Ends α}

theorem getD_append_left {i : Nat} (hi : i < xs.length) :
    (xs ++ ys).toArray.getD i default = xs[i] := by
  simp [List.getElem?_append_left hi, hi]

theorem getD_append_right {j : Nat} (hj : j < ys.length) :
    (xs ++ ys).toArray.getD (xs.length + j) default = ys[j] := by
  simp [hj]

/-- The front of a merge from both ends of `xs ++ ys` after `k` steps: it has taken the first `i`
items of `xs` and the first `j` of `ys`, where a stable merge stands, and holds, last first, what
the merge puts before that place. -/
def Front (lt : α → α → Bool) (xs ys : List α) (k : Nat) (e : Ends α) : Prop :=
  ∃ i j, i + j = k ∧ e.left = i ∧ e.right = xs.length + j ∧ Cut lt xs ys i j ∧
    (xs.merge ys fun a b => !lt b a) =
      e.front.reverse ++ (xs.drop i).merge (ys.drop j) fun a b => !lt b a

/-- The back after `k` steps: what is left of `xs` and of `ys` ends where a stable merge stands,
and the back holds what the merge puts after that place. -/
def Back (lt : α → α → Bool) (xs ys : List α) (k : Nat) (e : Ends α) : Prop :=
  ∃ i j, i + j + k = xs.length + ys.length ∧ e.leftEnd = i ∧ e.rightEnd = xs.length + j ∧
    Cut lt xs ys i j ∧ e.back = (xs.drop i).merge (ys.drop j) fun a b => !lt b a

variable (hx : xs.Pairwise fun a b => lt b a = false) (hy : ys.Pairwise fun a b => lt b a = false)
include hw hx hy

/-- A step of the front, before either half runs out, keeps it where a stable merge stands. -/
theorem Front.step (h : Front lt xs ys k e) (hkx : k < xs.length) (hky : k < ys.length)
    {e' : Ends α} (he' : let l := (xs ++ ys).toArray.getD e.left default
      let r := (xs ++ ys).toArray.getD e.right default
      e'.left = (if !lt r l then e.left + 1 else e.left) ∧
      e'.right = (if !lt r l then e.right else e.right + 1) ∧
      e'.front = (if !lt r l then l else r) :: e.front) : Front lt xs ys (k + 1) e' := by
  obtain ⟨i, j, hk, hleft, hright, hcut, hmerge⟩ := h
  have hi : i < xs.length := by omega
  have hj : j < ys.length := by omega
  obtain ⟨hl', hr', hf'⟩ := he'
  simp only [hleft, hright, getD_append_left hi, getD_append_right hj] at hl' hr' hf'
  by_cases hyx : lt ys[j] xs[i] = true
  · -- the item of the right goes next
    simp only [hyx, Bool.not_true, Bool.false_eq_true, if_false] at hl' hr' hf'
    have hcut' := hcut.takeRight hw hx hi hj hyx
    refine ⟨i, j + 1, by omega, hl', by omega, hcut', ?_⟩
    rw [hf', hmerge, List.drop_eq_getElem_cons hj,
      merge_cons_right fun a ha => hcut'.right _ (getElem_mem_take hj (Nat.lt_succ_self j)) a ha]
    simp
  · -- the item of the left goes next
    rw [Bool.not_eq_true] at hyx
    simp only [hyx, Bool.not_false, if_true] at hl' hr' hf'
    have hcut' := hcut.takeLeft hw hy hi hj hyx
    refine ⟨i + 1, j, by omega, hl', hr', hcut', ?_⟩
    rw [hf', hmerge, List.drop_eq_getElem_cons hi,
      merge_cons_left fun b hb => hcut'.left _ (getElem_mem_take hi (Nat.lt_succ_self i)) b hb]
    simp

/-- A step of the back, before either half runs out, keeps it where a stable merge stands. -/
theorem Back.step (h : Back lt xs ys k e) (hkx : k < xs.length) (hky : k < ys.length)
    {e' : Ends α} (he' : let l := (xs ++ ys).toArray.getD (e.leftEnd - 1) default
      let r := (xs ++ ys).toArray.getD (e.rightEnd - 1) default
      e'.leftEnd = (if lt r l then e.leftEnd - 1 else e.leftEnd) ∧
      e'.rightEnd = (if lt r l then e.rightEnd else e.rightEnd - 1) ∧
      e'.back = (if lt r l then l else r) :: e.back) : Back lt xs ys (k + 1) e' := by
  obtain ⟨i, j, hk, hleft, hright, hcut, hback⟩ := h
  -- neither half is used up from the back yet
  obtain ⟨i, rfl⟩ : ∃ i₀, i = i₀ + 1 := ⟨i - 1, by have := hcut.right_le; omega⟩
  obtain ⟨j, rfl⟩ : ∃ j₀, j = j₀ + 1 := ⟨j - 1, by have := hcut.left_le; omega⟩
  have hi : i < xs.length := by have := hcut.left_le; omega
  have hj : j < ys.length := by have := hcut.right_le; omega
  obtain ⟨hl', hr', hb'⟩ := he'
  simp only [hleft, hright, Nat.add_sub_cancel, ← Nat.add_assoc, getD_append_left hi,
    getD_append_right hj] at hl' hr' hb'
  by_cases hyx : lt ys[j] xs[i] = true
  · -- the last item of the left goes to the back
    simp only [hyx, if_true] at hl' hr' hb'
    refine ⟨i, j + 1, by omega, hl', by rw [hr', Nat.add_assoc],
      hcut.giveLeft hw hy hi hj hyx, ?_⟩
    rw [hb', hback, List.drop_eq_getElem_cons hi,
      merge_cons_left fun b hb => hcut.left _ (getElem_mem_take hi (Nat.lt_succ_self i)) b hb]
  · -- the last item of the right goes to the back
    rw [Bool.not_eq_true] at hyx
    simp only [hyx, Bool.false_eq_true, if_false] at hl' hr' hb'
    refine ⟨i + 1, j, by omega, hl', hr', hcut.giveRight hw hx hi hj hyx, ?_⟩
    rw [hb', hback, List.drop_eq_getElem_cons hj,
      merge_cons_right fun a ha => hcut.right _ (getElem_mem_take hj (Nat.lt_succ_self j)) a ha]

/-- Half the length of steps at each end: both ends keep to places where a stable merge stands. -/
theorem mergeEnds_ends {half : Nat} (hxh : half ≤ xs.length) (hyh : half ≤ ys.length) :
    ∀ n k e, k + n ≤ half → Front lt xs ys k e → Back lt xs ys k e →
      Front lt xs ys (k + n) (mergeEnds lt (xs ++ ys).toArray n e) ∧
        Back lt xs ys (k + n) (mergeEnds lt (xs ++ ys).toArray n e) := by
  intro n
  induction n with
  | zero => exact fun k e _ hf hb => ⟨hf, hb⟩
  | succ n ih =>
    intro k e hk hf hb
    rw [mergeEnds, show k + (n + 1) = k + 1 + n by omega]
    exact ih (k + 1) _ (by omega) (hf.step hw hx hy (by omega) (by omega) ⟨rfl, rfl, rfl⟩)
      (hb.step hw hx hy (by omega) (by omega) ⟨rfl, rfl, rfl⟩)

/-- Two sorted halves, the left as long as half the whole, merged from both ends: the ends meet
exactly, and the result is the stable merge. -/
theorem mergeBothEnds_eq_merge (hlen : xs.length = (xs.length + ys.length) / 2) :
    mergeBothEnds lt (xs ++ ys).toArray = some (xs.merge ys fun a b => !lt b a) := by
  have hsize : (xs ++ ys).toArray.size = xs.length + ys.length := by simp
  obtain ⟨hf, hb⟩ := mergeEnds_ends hw hx hy (Nat.le_refl xs.length) (by omega) xs.length 0
    ⟨0, xs.length, xs.length, xs.length + ys.length, [], []⟩ (by omega)
    ⟨0, 0, rfl, rfl, rfl, Cut.start, by simp⟩
    ⟨xs.length, ys.length, by simp, rfl, rfl, Cut.finish, by simp⟩
  rw [Nat.zero_add] at hf hb
  unfold mergeBothEnds
  simp only [hsize, ← hlen]
  generalize mergeEnds lt (xs ++ ys).toArray xs.length
    ⟨0, xs.length, xs.length, xs.length + ys.length, [], []⟩ = e at hf hb ⊢
  obtain ⟨i, j, hk, hl, hr, hcut, hmerge⟩ := hf
  obtain ⟨i', j', hk', hl', hr', hcut', hback⟩ := hb
  rw [hl, hr, hl', hr']
  clear hl hr hl' hr'
  by_cases hev : (xs.length + ys.length) % 2 = 0
  · -- an even length: both ends stand at the same place
    have hii : i = i' := hcut.eq_of_add_eq hcut' (by omega)
    rw [if_pos hev]
    dsimp only
    rw [if_pos ⟨hii, by omega⟩, hmerge, hback, ← hii, show j' = j by omega,
      List.append_nil]
  · rw [if_neg hev]
    rcases hcut.succ_of_add_eq hcut' (by omega) with ⟨hi', hj'⟩ | ⟨hi', hj'⟩ <;> subst i' j'
    · -- the middle item is the next of the left
      have hi : i < xs.length := by have := hcut'.left_le; omega
      rw [if_pos (Nat.lt_succ_self i), if_pos ⟨rfl, rfl⟩, hmerge, hback, getD_append_left hi,
        List.drop_eq_getElem_cons hi,
        merge_cons_left fun b hb => hcut'.left _ (getElem_mem_take hi (Nat.lt_succ_self i)) b hb]
      simp
    · -- the middle item is the next of the right
      have hj : j < ys.length := by have := hcut'.right_le; omega
      rw [if_neg (Nat.lt_irrefl i), if_pos ⟨rfl, rfl⟩, hmerge, hback, getD_append_right hj,
        List.drop_eq_getElem_cons hj,
        merge_cons_right fun a ha => hcut'.right _ (getElem_mem_take hj (Nat.lt_succ_self j)) a ha]
      simp

end Ends

/-! ## The small sort -/

section Small

include hw

theorem sortsTo_smallHalf (big : Bool) (xs : List α) : SortsTo lt xs (smallHalf lt big xs) := by
  unfold smallHalf
  split
  · next a b c d rest => exact sortsTo_insertAll hw (sortsTo_sortFour hw a b c d) rest
  · next x rest _ => exact sortsTo_insertAll hw (SortsTo.single x) rest
  · exact SortsTo.of_sorted List.Pairwise.nil

/-- The small sort gives the stable order, and never refuses: with a strict weak order the two
ends of its merge always meet. -/
theorem smallSort_eq_mergeSort [Inhabited α] (xs : List α) :
    smallSort lt xs = some (xs.mergeSort fun a b => !lt b a) := by
  unfold smallSort
  dsimp only
  split
  · next hn =>
    rcases xs with _ | ⟨x, _ | ⟨y, xs⟩⟩
    · simp
    · simp
    · simp only [List.length_cons] at hn
      omega
  · have hA := sortsTo_smallHalf hw (decide (xs.length ≥ 8)) (xs.take (xs.length / 2))
    have hB := sortsTo_smallHalf hw (decide (xs.length ≥ 8)) (xs.drop (xs.length / 2))
    rw [mergeBothEnds_eq_merge hw hA.sorted hB.sorted (by
      simp [hA.length_eq hw, hB.length_eq hw]
      omega)]
    have := (hA.merge hw hB).eq_mergeSort hw
    rw [List.take_append_drop] at this
    rw [this]

end Small

end Reactivity.Sorting

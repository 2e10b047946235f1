import Mathlib.Data.List.Perm.Basic

/-! # Lists of Slots

Parties that come into being one after the other and change state in place.
-/

namespace Slots

open List Option

variable {α β : Type}

variable {l : List α} {i : Nat} {a b : α} {P : α → Prop}

theorem forall_mem_set (h : ∀ x ∈ l, P x) (ha : P a) : ∀ x ∈ l.set i a, P x := by
  intro x hx
  rcases mem_or_eq_of_mem_set hx with hold | rfl
  · exact h x hold
  · exact ha

theorem mem_snoc {x} (h : x ∈ l ++ [a]) : x ∈ l ∨ x = a := by
  simpa using h

theorem exists_snoc_iff : (∃ x ∈ l ++ [a], P x) ↔ (∃ x ∈ l, P x) ∨ P a := by
  simp [or_and_right, exists_or]

theorem exists_snoc (h : ∃ x ∈ l, P x) : ∃ x ∈ l ++ [a], P x := exists_snoc_iff.mpr (.inl h)

theorem pairwise_snoc {R : α → α → Prop} (h : l.Pairwise R) (ha : ∀ x ∈ l, R x a) :
    (l ++ [a]).Pairwise R := by
  refine pairwise_append.mpr ⟨h, pairwise_singleton _ _, fun x hx y hy => ?_⟩
  rw [mem_singleton.mp hy]
  exact ha x hx

theorem forall_mem_snoc (h : ∀ x ∈ l, P x) (ha : P a) : ∀ x ∈ l ++ [a], P x := by
  intro x hx
  rcases mem_snoc hx with hold | rfl
  · exact h x hold
  · exact ha

theorem lt_of_getElem? (h : l[i]? = some a) : i < l.length :=
  (List.getElem?_eq_some_iff.mp h).1

theorem getElem?_set_some (h : l[i]? = some a) : (l.set i b)[i]? = some b :=
  getElem?_set_self (lt_of_getElem? h)

theorem getElem?_append_some (h : l[i]? = some a) {m} : (l ++ m)[i]? = some a :=
  (getElem?_append_left (lt_of_getElem? h)).trans h

theorem getElem?_set_cases {j} {x : α} (h : (l.set i a)[j]? = some x) :
    j = i ∧ x = a ∨ j ≠ i ∧ l[j]? = some x := by
  by_cases hij : i = j
  · subst hij
    have hlt := lt_of_getElem? h
    rw [length_set] at hlt
    rw [getElem?_set_self hlt] at h
    exact .inl ⟨rfl, (some.inj h).symm⟩
  · rw [getElem?_set_ne hij] at h
    exact .inr ⟨Ne.symm hij, h⟩

theorem getElem?_snoc_cases {j} {x : α} (h : (l ++ [a])[j]? = some x) :
    l[j]? = some x ∨ j = l.length ∧ x = a := by
  rcases Nat.lt_trichotomy j l.length with hlt | rfl | hgt
  · rw [getElem?_append_left hlt] at h
    exact .inl h
  · rw [getElem?_concat_length] at h
    exact .inr ⟨rfl, (some.inj h).symm⟩
  · rw [getElem?_eq_none (by rw [length_append, length_singleton]; omega)] at h
    cases h

theorem getD_set (hi : i < l.length) (a d : α) (j : Nat) :
    (l.set i a)[j]?.getD d = if j = i then a else l[j]?.getD d := by
  by_cases hij : j = i
  · subst hij
    rw [getElem?_set_self hi, if_pos rfl]
    rfl
  · rw [getElem?_set_ne (Ne.symm hij), if_neg hij]

theorem getD_snoc (l : List α) (a d : α) (j : Nat) :
    (l ++ [a])[j]?.getD d = if j = l.length then a else l[j]?.getD d := by
  by_cases hj : j = l.length
  · subst hj
    rw [getElem?_concat_length, if_pos rfl]
    rfl
  · rw [if_neg hj]
    rcases Nat.lt_or_gt_of_ne hj with hlt | hgt
    · rw [getElem?_append_left hlt]
    · rw [getElem?_eq_none (by rw [length_append, length_singleton]; omega),
        getElem?_eq_none (by omega)]

theorem set_self (h : l[i]? = some a) : l.set i a = l := by
  obtain ⟨hlt, rfl⟩ := List.getElem?_eq_some_iff.mp h
  exact set_getElem_self hlt

theorem forall_getElem?_set {P : Nat → α → Prop} (h : ∀ j x, l[j]? = some x → P j x) (ha : P i a) : ∀ j x, (l.set i a)[j]? = some x → P j x := by
  intro j x hx
  rcases getElem?_set_cases hx with ⟨rfl, rfl⟩ | ⟨-, hold⟩
  · exact ha
  · exact h j x hold

theorem forall_getElem?_snoc {P : Nat → α → Prop} (h : ∀ j x, l[j]? = some x → P j x) (ha : P l.length a) : ∀ j x, (l ++ [a])[j]? = some x → P j x := by
  intro j x hx
  rcases getElem?_snoc_cases hx with hold | ⟨rfl, rfl⟩
  · exact h j x hold
  · exact ha

theorem getD_map_snoc (l : List α) (i : Nat) {f : α → β} {b : β} (h : f a = b) :
    (((l ++ [a])[i]?).map f).getD b = ((l[i]?).map f).getD b := by
  rcases Nat.lt_trichotomy i l.length with hlt | rfl | hgt
  · rw [getElem?_append_left hlt]
  · rw [getElem?_concat_length, getElem?_eq_none (Nat.le_refl _)]
    exact h
  · rw [getElem?_eq_none (Nat.le_of_lt hgt), getElem?_eq_none]
    rw [length_append, length_singleton]
    exact hgt

theorem forall_mem_modify (h : ∀ x ∈ l, P x) {f : α → α} (hf : ∀ x, l[i]? = some x → P (f x)) :
    ∀ x ∈ l.modify i f, P x := by
  intro x hx
  obtain ⟨j, hj⟩ := getElem?_of_mem hx
  by_cases hij : i = j
  · subst hij
    rw [getElem?_modify_eq] at hj
    obtain ⟨a, ha, rfl⟩ := map_eq_some_iff.mp hj
    exact hf a ha
  · rw [getElem?_modify_ne f l hij] at hj
    exact h x (mem_of_getElem? hj)

theorem map_set_eq {f : α → β} (h : l[i]? = some a)
    (hab : f b = f a) : (l.set i b).map f = l.map f := by
  induction l generalizing i with
  | nil => cases h
  | cons x l ih =>
    cases i with
    | zero =>
      cases h
      rw [set_cons_zero, map_cons, map_cons, hab]
    | succ i =>
      rw [set_cons_succ, map_cons, map_cons, ih h]

theorem countP_set_add (h : l[i]? = some a) (p : α → Bool) (b : α) :
    (l.set i b).countP p + (if p a then 1 else 0) = l.countP p + (if p b then 1 else 0) := by
  induction l generalizing i with
  | nil => cases h
  | cons x l ih =>
    cases i with
    | zero =>
      cases h
      rw [set_cons_zero, countP_cons, countP_cons]
      omega
    | succ i =>
      rw [set_cons_succ, countP_cons, countP_cons]
      have := ih h
      omega

theorem filterMap_set_eq {f : α → Option β} (h : l[i]? = some a)
    (hab : f b = f a) : (l.set i b).filterMap f = l.filterMap f := by
  induction l generalizing i with
  | nil => cases h
  | cons x l ih =>
    cases i with
    | zero =>
      cases h
      rw [set_cons_zero, filterMap_cons, filterMap_cons, hab]
    | succ i =>
      rw [set_cons_succ, filterMap_cons, filterMap_cons, ih h]

/-! ## Parties that may end -/

/-- A party goes on as another, or is done. -/
def put (l : List α) (i : Nat) : Option α → List α
  | some a => l.set i a
  | none => l.eraseIdx i

section Put

variable {l : List α} {i : Nat} {a x : α} {o : Option α}

/-- Up to order, the other parties are not touched. -/
theorem put_perm (ha : l[i]? = some a) :
    ∃ rest, l.Perm (a :: rest) ∧ ∀ o : Option α, (put l i o).Perm (o.toList ++ rest) := by
  have hlt := lt_of_getElem? ha
  refine ⟨l.eraseIdx i, ?_, fun o => ?_⟩
  · have hp := getElem_cons_eraseIdx_perm hlt
    rw [(List.getElem?_eq_some_iff.mp ha).2] at hp
    exact hp.symm
  · cases o with
    | none => exact .refl _
    | some b => exact set_perm_cons_eraseIdx hlt b

theorem filterMap_set_perm {f : α → Option β} {y : β}
    (h : l[i]? = some a) (ha : f a = none) (hb : f b = some y) :
    ((l.set i b).filterMap f).Perm (l.filterMap f ++ [y]) := by
  obtain ⟨rest, hl, hput⟩ := put_perm h
  have hold := hl.filterMap f
  have hnew := (hput (some b)).filterMap f
  rw [filterMap_cons_none ha] at hold
  rw [toList_some, singleton_append, filterMap_cons_some hb] at hnew
  exact (hnew.trans (hold.symm.cons y)).trans (perm_append_singleton _ _).symm

theorem mem_of_mem_put (h : x ∈ put l i o) : x ∈ l ∨ o = some x := by
  cases o with
  | none => exact .inl (mem_of_mem_eraseIdx h)
  | some b =>
    rcases mem_or_eq_of_mem_set h with hold | rfl
    · exact .inl hold
    · exact .inr rfl

theorem mem_put_of_mem (ha : l[i]? = some a) (h : x ∈ l) : x = a ∨ x ∈ put l i o := by
  obtain ⟨j, hj, hx⟩ := getElem_of_mem h
  by_cases hji : j = i
  · subst hji
    rw [getElem?_eq_getElem hj, hx] at ha
    exact .inl (some.inj ha)
  · right
    cases o with
    | none => exact mem_eraseIdx_iff_getElem.mpr ⟨j, hj, hji, hx⟩
    | some b =>
      have hlt : j < (l.set i b).length := by rwa [length_set]
      refine mem_iff_getElem.mpr ⟨j, hlt, ?_⟩
      exact (getElem_set_of_ne (fun h => hji h.symm) b hlt).trans hx

theorem mem_put_self (ha : l[i]? = some a) : x ∈ put l i (some x) := by
  have hlt := lt_of_getElem? ha
  exact mem_set hlt x

theorem exists_put {P : α → Prop} (ha : l[i]? = some a) (hP : P a → ∃ b, o = some b ∧ P b)
    (h : ∃ x ∈ l, P x) : ∃ x ∈ put l i o, P x := by
  obtain ⟨x, hx, hPx⟩ := h
  rcases mem_put_of_mem (o := o) ha hx with rfl | hold
  · obtain ⟨b, rfl, hPb⟩ := hP hPx
    exact ⟨b, mem_put_self ha, hPb⟩
  · exact ⟨x, hold, hPx⟩

theorem exists_of_put {P : α → Prop} (ha : l[i]? = some a) (hP : ∀ b, o = some b → P b → P a)
    (h : ∃ x ∈ put l i o, P x) : ∃ x ∈ l, P x := by
  obtain ⟨x, hx, hPx⟩ := h
  rcases mem_of_mem_put hx with hold | hnew
  · exact ⟨x, hold, hPx⟩
  · exact ⟨a, mem_of_getElem? ha, hP x hnew hPx⟩

end Put

variable {l : List α}

theorem ne_of_mem_eraseIdx {f : α → β} (hnd : (l.map f).Nodup) {i} {a x : α} (ha : l[i]? = some a)
    (hx : x ∈ l.eraseIdx i) : f x ≠ f a := by
  obtain ⟨j, hji, hj⟩ := mem_eraseIdx_iff_getElem?.mp hx
  intro heq
  have hfj : (l.map f)[j]? = some (f a) := by rw [getElem?_map, hj, map_some, heq]
  have hfi : (l.map f)[i]? = some (f a) := by rw [getElem?_map, ha, map_some]
  have hlt := lt_of_getElem? hfj
  exact hji ((getElem?_inj hlt hnd).mp (hfj.trans hfi.symm))

theorem modify_concat {α} (l : List α) (x : α) (f : α → α) :
    (l ++ [x]).modify l.length f = l ++ [f x] := by
  induction l with
  | nil => rfl
  | cons y l ih => simp [ih]

theorem modify_eq_set {i} {a : α} (h : l[i]? = some a) (f : α → α) :
    l.modify i f = l.set i (f a) := by
  rw [modify_eq_set_getElem?, h]
  rfl

theorem count_flatMap_set [BEq β] {i} {a : α} (h : l[i]? = some a) (g : α → List β) (b : α) (y : β) :
    ((l.set i b).flatMap g).count y + (g a).count y = (l.flatMap g).count y + (g b).count y := by
  induction l generalizing i with
  | nil => cases h
  | cons x l ih =>
    cases i with
    | zero =>
      cases h
      rw [set_cons_zero, flatMap_cons, flatMap_cons, count_append, count_append]
      omega
    | succ i =>
      rw [set_cons_succ, flatMap_cons, flatMap_cons, count_append, count_append]
      have := ih h
      omega

theorem filter_key_eq [DecidableEq β] {key : α → β} (hnd : (l.map key).Nodup) {a : α} (ha : a ∈ l) :
    l.filter (fun x => key x = key a) = [a] := by
  induction l with
  | nil => cases ha
  | cons x l ih =>
    obtain ⟨hnot, hnd⟩ := nodup_cons.mp hnd
    rcases mem_cons.mp ha with rfl | ha
    · rw [filter_cons_of_pos (by simp), filter_eq_nil_iff.mpr]
      intro y hy hkey
      exact hnot (of_decide_eq_true hkey ▸ mem_map_of_mem hy)
    · have hne : key x ≠ key a := fun heq => hnot (heq ▸ mem_map_of_mem ha)
      rw [filter_cons_of_neg (by simpa using hne)]
      exact ih hnd ha

end Slots

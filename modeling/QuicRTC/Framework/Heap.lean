import Mathlib.Data.List.Perm.Basic
import Mathlib.Order.Lattice

/-! # Binary Heaps in a Slice

A priority queue kept in a slice, as Go's `container/heap` keeps it.
-/

namespace Heap

open List Option

variable {α : Type}

/-! ## Operations -/

def swap (l : List α) (i j : Nat) : List α :=
  if h : i < l.length ∧ j < l.length then (l.set i l[j]).set j l[i] else l

def lessAt (less : α → α → Bool) (l : List α) (j i : Nat) : Bool :=
  match l[j]?, l[i]? with
  | some a, some b => less a b
  | _, _ => false

def parent (j : Nat) : Nat := (j - 1) / 2

/-- Each round at least halves `j`, so `j` rounds are enough. -/
def upLoop (less : α → α → Bool) : Nat → List α → Nat → List α
  | 0, l, _ => l
  | rounds + 1, l, j =>
    if parent j = j ∨ lessAt less l j (parent j) = false then l
    else upLoop less rounds (swap l (parent j) j) (parent j)

def up (less : α → α → Bool) (l : List α) (j : Nat) : List α := upLoop less (j + 1) l j

def lesserChild (less : α → α → Bool) (l : List α) (i n : Nat) : Option Nat :=
  if n ≤ 2 * i + 1 then none
  else if 2 * i + 2 < n ∧ lessAt less l (2 * i + 2) (2 * i + 1) = true then some (2 * i + 2)
  else some (2 * i + 1)

/-- Among the first `n` elements. Each round at least doubles `i`, so `n` rounds are enough.
    -/
def downLoop (less : α → α → Bool) (n : Nat) : Nat → List α → Nat → List α
  | 0, l, _ => l
  | rounds + 1, l, i =>
    match lesserChild less l i n with
    | none => l
    | some j =>
      if lessAt less l j i = false then l
      else downLoop less n rounds (swap l i j) j

def down (less : α → α → Bool) (l : List α) (i n : Nat) : List α := downLoop less n n l i

def push (less : α → α → Bool) (l : List α) (a : α) : List α :=
  up less (l ++ [a]) l.length

/-- The last element comes off; `none` for an empty slice. -/
def pop (less : α → α → Bool) (l : List α) : Option (α × List α) :=
  let n := l.length - 1
  let l' := down less (swap l 0 n) 0 n
  match l'[n]? with
  | some a => some (a, l'.take n)
  | none => none

/-! ## Swaps -/

theorem swap_perm (l : List α) (i j : Nat) : (swap l i j).Perm l := by
  unfold swap
  split
  · next h => exact set_set_perm h.1 h.2
  · exact Perm.refl l

@[simp] theorem swap_length (l : List α) (i j : Nat) : (swap l i j).length = l.length :=
  (swap_perm l i j).length_eq

variable {l : List α} {i j : Nat}

theorem swap_getElem? (hi : i < l.length) (hj : j < l.length) (k : Nat) :
    (swap l i j)[k]? = if k = j then l[i]? else if k = i then l[j]? else l[k]? := by
  unfold swap
  rw [dif_pos ⟨hi, hj⟩]
  by_cases hkj : k = j
  · subst hkj
    rw [if_pos rfl, getElem?_set_self (by rwa [length_set]), getElem?_eq_getElem hi]
  · rw [if_neg hkj, getElem?_set_ne (Ne.symm hkj)]
    by_cases hki : k = i
    · subst hki
      rw [if_pos rfl, getElem?_set_self hi, getElem?_eq_getElem hj]
    · rw [if_neg hki, getElem?_set_ne (Ne.symm hki)]

theorem swap_left (hi : i < l.length) (hj : j < l.length) : (swap l i j)[i]? = l[j]? := by
  rw [swap_getElem? hi hj]
  split
  · next h => rw [h]
  · rw [if_pos rfl]

theorem swap_right (hi : i < l.length) (hj : j < l.length) : (swap l i j)[j]? = l[i]? := by
  rw [swap_getElem? hi hj, if_pos rfl]

theorem swap_other {k} (hi : i < l.length) (hj : j < l.length) (hki : k ≠ i) (hkj : k ≠ j) :
    (swap l i j)[k]? = l[k]? := by
  rw [swap_getElem? hi hj, if_neg hkj, if_neg hki]

theorem upLoop_perm (less : α → α → Bool) (rounds : Nat) (l : List α) (j : Nat) :
    (upLoop less rounds l j).Perm l := by
  induction rounds generalizing l j with
  | zero => exact Perm.refl l
  | succ rounds ih =>
    simp only [upLoop]
    split
    · exact Perm.refl l
    · exact (ih _ _).trans (swap_perm l _ _)

theorem downLoop_perm (less : α → α → Bool) (n rounds : Nat) (l : List α) (i : Nat) :
    (downLoop less n rounds l i).Perm l := by
  induction rounds generalizing l i with
  | zero => exact Perm.refl l
  | succ rounds ih =>
    simp only [downLoop]
    split
    · exact Perm.refl l
    · split
      · exact Perm.refl l
      · exact (ih _ _).trans (swap_perm l _ _)

/-! ## The order -/

section Order

variable {κ : Type} [LinearOrder κ] (key : α → κ)

def Le (l : List α) (i j : Nat) : Prop :=
  ∀ a ∈ l[i]?, ∀ b ∈ l[j]?, key a ≤ key b

/-- None of the first `n` elements is below its parent. -/
def IsHeap (l : List α) (n : Nat) : Prop :=
  ∀ k, 0 < k → k < n → Le key l (parent k) k

structure UpOrder (l : List α) (j : Nat) : Prop where
  except : ∀ k, 0 < k → k < l.length → k ≠ j → Le key l (parent k) k
  grand : 0 < j → ∀ k, 0 < k → k < l.length → parent k = j → Le key l (parent j) k

structure DownOrder (l : List α) (i n : Nat) : Prop where
  except : ∀ k, 0 < k → k < n → parent k ≠ i → Le key l (parent k) k
  grand : 0 < i → ∀ k, 0 < k → k < n → parent k = i → Le key l (parent i) k

variable {l : List α} {i j k n : Nat}

theorem parent_lt (h : 0 < k) : parent k < k := by
  unfold parent
  omega

theorem Le.trans (h : Le key l i j) (h' : Le key l j k) (hj : j < l.length) : Le key l i k := by
  intro a ha b hb
  exact le_trans (h a ha l[j] (getElem?_eq_getElem hj))
    (h' l[j] (getElem?_eq_getElem hj) b hb)

theorem Le.of_eq {l' : List α} {i' j'} (h : Le key l i j) (hi : l'[i']? = l[i]?)
    (hj : l'[j']? = l[j]?) : Le key l' i' j' := by
  intro a ha b hb
  exact h a (hi ▸ ha) b (hj ▸ hb)

variable {key} {less : α → α → Bool} (hless : ∀ a b, less a b = decide (key a < key b))
include hless

theorem le_of_lessAt (h : lessAt less l j i = true) : Le key l j i := by
  intro b hb a ha
  unfold lessAt at h
  rw [ha, hb] at h
  simp only [hless, decide_eq_true_eq] at h
  exact le_of_lt h

theorem le_of_not_lessAt (h : lessAt less l j i = false) : Le key l i j := by
  intro a ha b hb
  unfold lessAt at h
  rw [ha, hb] at h
  simp only [hless, decide_eq_false_iff_not] at h
  exact le_of_not_gt h

theorem UpOrder.move (h : UpOrder key l j) (hpos : 0 < j)
    (hj : j < l.length) (hlt : lessAt less l j (parent j) = true) :
    UpOrder key (swap l (parent j) j) (parent j) := by
  have hpj := parent_lt hpos
  have hi : parent j < l.length := by omega
  have hle : Le key l j (parent j) := le_of_lessAt hless hlt
  have hleft := swap_left hi hj
  have hright := swap_right hi hj
  refine ⟨fun k hk hkl hki => ?_, fun hipos k hk hkl hki => ?_⟩
  · rw [swap_length] at hkl
    by_cases hkj : k = j
    · subst hkj
      exact hle.of_eq key hleft hright
    · have hsame := swap_other hi hj hki hkj
      by_cases hpk : parent k = j
      · -- a child of the element that moved up: the old parent is above it
        rw [hpk]
        exact (h.grand hpos k hk hkl hpk).of_eq key hright hsame
      · by_cases hpi : parent k = parent j
        · rw [hpi]
          have hsib : Le key l (parent j) k := hpi ▸ h.except k hk hkl hkj
          exact (hle.trans key hsib hi).of_eq key hleft hsame
        · exact (h.except k hk hkl hkj).of_eq key (swap_other hi hj hpi hpk) hsame
  · rw [swap_length] at hkl
    have hgp := parent_lt hipos
    have hup : Le key l (parent (parent j)) (parent j) :=
      h.except (parent j) hipos hi (by omega)
    have hgsame : (swap l (parent j) j)[parent (parent j)]? = l[parent (parent j)]? :=
      swap_other hi hj (by omega) (by omega)
    by_cases hkj : k = j
    · subst hkj
      exact hup.of_eq key hgsame hright
    · have hpk := parent_lt hk
      have hsib : Le key l (parent j) k := hki ▸ h.except k hk hkl hkj
      exact (hup.trans key hsib hi).of_eq key hgsame (swap_other hi hj (by omega) hkj)

theorem upLoop_isHeap (rounds : Nat) (h : UpOrder key l j)
    (hj : j < l.length) (hrounds : j < rounds) : IsHeap key (upLoop less rounds l j) l.length := by
  induction rounds generalizing l j with
  | zero => omega
  | succ rounds ih =>
    simp only [upLoop]
    split
    · next hstop =>
      intro k hk hkl
      by_cases hkj : k = j
      · subst hkj
        have hpk := parent_lt hk
        exact le_of_not_lessAt hless (hstop.resolve_left (by omega))
      · exact h.except k hk hkl hkj
    · next hgo =>
      have hpos : 0 < j := by
        rcases Nat.eq_zero_or_pos j with rfl | hpos
        · exact absurd (.inl rfl) hgo
        · exact hpos
      have hlt : lessAt less l j (parent j) = true := by
        cases hl : lessAt less l j (parent j) with
        | true => rfl
        | false => exact absurd (.inr hl) hgo
      have hpj := parent_lt hpos
      have hrec := ih (h.move hless hpos hj hlt) (by rw [swap_length]; omega) (by omega)
      rwa [swap_length] at hrec

/-! ### Sifting down -/

theorem lesserChild_spec (h : lesserChild less l i n = some j) :
    i < j ∧ j < n ∧ parent j = i ∧ ∀ k, 0 < k → k < n → parent k = i → Le key l j k := by
  have hself : ∀ k, Le key l k k := fun k a ha b hb => by
    exact le_of_eq (congrArg key (mem_unique ha hb))
  have hchild : ∀ k, 0 < k → parent k = i → k = 2 * i + 1 ∨ k = 2 * i + 2 := by
    intro k hk hp
    unfold parent at hp
    omega
  unfold lesserChild at h
  split at h
  · cases h
  · next hleft =>
    split at h
    · next hright =>
      cases h
      refine ⟨by omega, hright.1, by unfold parent; omega, fun k hk _ hp => ?_⟩
      rcases hchild k hk hp with rfl | rfl
      · exact le_of_lessAt hless hright.2
      · exact hself _
    · next hright =>
      cases h
      refine ⟨by omega, by omega, by unfold parent; omega, fun k hk hkn hp => ?_⟩
      rcases hchild k hk hp with rfl | rfl
      · exact hself _
      · apply le_of_not_lessAt hless
        cases hl : lessAt less l (2 * i + 2) (2 * i + 1) with
        | false => rfl
        | true => exact absurd ⟨hkn, hl⟩ hright

theorem DownOrder.move (h : DownOrder key l i n) (hn : n ≤ l.length)
    (hj : lesserChild less l i n = some j) (hlt : lessAt less l j i = true) :
    DownOrder key (swap l i j) j n := by
  obtain ⟨hij, hjn, hpj, hmin⟩ := lesserChild_spec hless hj
  have hil : i < l.length := by omega
  have hjl : j < l.length := by omega
  have hle : Le key l j i := le_of_lessAt hless hlt
  have hleft := swap_left hil hjl
  have hright := swap_right hil hjl
  refine ⟨fun k hk hkn hpk => ?_, fun _ k hk hkn hpk => ?_⟩
  · have hlt := parent_lt hk
    by_cases hpi : parent k = i
    · rw [hpi]
      by_cases hkj : k = j
      · subst hkj
        exact hle.of_eq key hleft hright
      · exact (hmin k hk hkn hpi).of_eq key hleft (swap_other hil hjl (by omega) hkj)
    · by_cases hki : k = i
      · -- the place of the element itself: its lesser child is below the parent
        subst hki
        exact (h.grand hk j (by omega) hjn hpj).of_eq key
          (swap_other hil hjl (by omega) (by omega)) hleft
      · have hkj : k ≠ j := fun heq => hpi (heq ▸ hpj)
        exact (h.except k hk hkn hpi).of_eq key (swap_other hil hjl hpi hpk)
          (swap_other hil hjl hki hkj)
  · have hlt := parent_lt hk
    have hold : Le key l j k := hpk ▸ h.except k hk hkn (by omega)
    rw [hpj]
    exact hold.of_eq key hleft (swap_other hil hjl (by omega) (by omega))

theorem downLoop_isHeap (rounds : Nat)
    (h : DownOrder key l i n) (hn : n ≤ l.length) (hrounds : n ≤ i + rounds) :
    IsHeap key (downLoop less n rounds l i) n := by
  induction rounds generalizing l i with
  | zero =>
    -- no element has `i` as its parent any more
    intro k hk hkn
    have := parent_lt hk
    exact h.except k hk hkn (by omega)
  | succ rounds ih =>
    simp only [downLoop]
    split
    · next hnone =>
      intro k hk hkn
      refine h.except k hk hkn (fun hp => ?_)
      unfold lesserChild at hnone
      unfold parent at hp
      split at hnone
      · omega
      · split at hnone <;> cases hnone
    · next j hj =>
      obtain ⟨hij, hjn, hpj, hmin⟩ := lesserChild_spec hless hj
      split
      · next hstop =>
        intro k hk hkn
        by_cases hp : parent k = i
        · rw [hp]
          exact (le_of_not_lessAt hless hstop).trans key (hmin k hk hkn hp) (by omega)
        · exact h.except k hk hkn hp
      · next hgo =>
        have hlt : lessAt less l j i = true := by simpa using hgo
        exact ih (h.move hless hn hj hlt) (by rwa [swap_length]) (by omega)

theorem downLoop_getElem? (rounds : Nat) (hn : n ≤ l.length)
    (hk : n ≤ k) : (downLoop less n rounds l i)[k]? = l[k]? := by
  induction rounds generalizing l i with
  | zero => rfl
  | succ rounds ih =>
    simp only [downLoop]
    split
    · rfl
    · next j hj =>
      split
      · rfl
      · obtain ⟨hij, hjn, -, -⟩ := lesserChild_spec hless hj
        rw [ih (by rwa [swap_length]), swap_other (by omega) (by omega) (by omega) (by omega)]

omit hless in
theorem IsHeap.root_le (h : IsHeap key l l.length) : ∀ k, k < l.length → Le key l 0 k := by
  intro k
  induction k using Nat.strongRecOn with
  | ind k ih =>
    intro hk
    rcases Nat.eq_zero_or_pos k with rfl | hpos
    · intro a ha b hb
      exact le_of_eq (congrArg key (mem_unique ha hb))
    · have hp := parent_lt hpos
      exact (ih (parent k) hp (by omega)).trans key (h k hpos hk) (by omega)

omit hless in
theorem IsHeap.of_eq {l' : List α} (h : IsHeap key l n)
    (heq : ∀ k, k < n → l'[k]? = l[k]?) : IsHeap key l' n := by
  intro k hk hkn
  have hp := parent_lt hk
  exact (h k hk hkn).of_eq key (heq _ (by omega)) (heq _ hkn)

/-- **Push** adds the element. -/
theorem push_spec (h : IsHeap key l l.length) (a : α) :
    (push less l a).Perm (a :: l) ∧ IsHeap key (push less l a) (push less l a).length := by
  have hperm : (push less l a).Perm (l ++ [a]) := upLoop_perm less _ _ _
  have hold : IsHeap key (l ++ [a]) l.length :=
    h.of_eq (fun k hk => getElem?_append_left hk)
  have hup : UpOrder key (l ++ [a]) l.length := by
    refine ⟨fun k hk hkl hne => ?_, fun _ k hk hkl hp => ?_⟩
    · rw [length_append, length_singleton] at hkl
      exact hold k hk (by omega)
    · rw [length_append, length_singleton] at hkl
      have := parent_lt hk
      omega
  refine ⟨hperm.trans (perm_append_singleton a l), ?_⟩
  rw [hperm.length_eq]
  exact upLoop_isHeap hless _ hup (by simp) (Nat.lt_succ_self _)

/-- **Pop** takes a least element. -/
theorem pop_spec (h : IsHeap key l l.length) (hne : l ≠ []) :
    ∃ a rest, pop less l = some (a, rest) ∧ l.Perm (a :: rest) ∧
      IsHeap key rest rest.length ∧ ∀ b ∈ rest, key a ≤ key b := by
  have hpos : 0 < l.length := length_pos_iff.mpr hne
  obtain ⟨n, hn⟩ : ∃ n, l.length = n + 1 := ⟨l.length - 1, by omega⟩
  have hroot : l[0]? = some l[0] := getElem?_eq_getElem hpos
  have hnl : n ≤ (swap l 0 n).length := by rw [swap_length]; omega
  have hdown : DownOrder key (swap l 0 n) 0 n := by
    refine ⟨fun k hk hkn hp => ?_, fun h0 => absurd h0 (Nat.lt_irrefl 0)⟩
    have hlt := parent_lt hk
    exact (h k hk (by omega)).of_eq key
      (swap_other hpos (by omega) hp (by omega)) (swap_other hpos (by omega) (by omega) (by omega))
  have hheap := downLoop_isHeap hless n hdown hnl (by omega)
  have hperm : (downLoop less n n (swap l 0 n) 0).Perm l :=
    (downLoop_perm less n n _ _).trans (swap_perm l 0 n)
  have hlast : (downLoop less n n (swap l 0 n) 0)[n]? = some l[0] := by
    rw [downLoop_getElem? hless n hnl (Nat.le_refl n), swap_right hpos (by omega), hroot]
  have hlen : (downLoop less n n (swap l 0 n) 0).length = n + 1 := by rw [hperm.length_eq, hn]
  -- from here on only the sifted slice matters
  generalize hm : downLoop less n n (swap l 0 n) 0 = m at hheap hperm hlast hlen
  have hsplit : m = m.take n ++ [l[0]] := by
    have hdrop : m.drop n = [m[n]] := by
      rw [drop_eq_getElem_cons (by omega), drop_eq_nil_of_le (by omega)]
    rw [getElem?_eq_getElem (by omega)] at hlast
    rw [← some.inj hlast, ← hdrop, take_append_drop]
  have htake : l.Perm (l[0] :: m.take n) := by
    refine hperm.symm.trans ?_
    conv => lhs; rw [hsplit]
    exact perm_append_singleton _ _
  refine ⟨l[0], m.take n, ?_, htake, ?_, fun b hb => ?_⟩
  · unfold pop down
    simp only [hn, Nat.add_sub_cancel, hm, hlast]
  · have htl : (m.take n).length = n := by rw [length_take]; omega
    rw [htl]
    exact hheap.of_eq (fun k hk => getElem?_take_of_lt hk)
  · obtain ⟨k, hk⟩ := getElem?_of_mem (htake.symm.subset (mem_cons_of_mem _ hb))
    obtain ⟨hkl, -⟩ := List.getElem?_eq_some_iff.mp hk
    exact h.root_le k hkl _ hroot _ hk

omit hless in
theorem isHeap_nil : IsHeap key ([] : List α) ([] : List α).length :=
  fun _ _ hk => absurd hk (Nat.not_lt_zero _)

end Order

end Heap

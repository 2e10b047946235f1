import Mathlib.Data.List.Dedup
import Mathlib.Data.List.Induction
import Mathlib.Data.List.Sort

/-! # Lists Keyed by a Linear Order

Two lists are merged through a map from keys to entries: the result is strictly ascending and has
the last copy of each entry. A suffix of a strictly ascending list holds exactly the entries whose
key is at least that of its first entry.
-/

namespace Keyed

open List

variable {α κ : Type} [LinearOrder κ] (key : α → κ)

/-! ## Merging by key -/

/-- Write `a` under its key. -/
def upsert (a : α) : List α → List α
  | [] => [a]
  | b :: m => if key b = key a then a :: m else b :: upsert a m

/-- The map after writing the entries of `l` in order. -/
def collect (l : List α) : List α := l.foldl (fun m a => upsert key a m) []

def sortByKey (l : List α) : List α := l.insertionSort (fun a b => key a ≤ key b)

def mergeByKey (p q : List α) : List α := sortByKey key (collect key (p ++ q))

def lastWith (k : κ) (l : List α) : Option α := l.reverse.find? (fun a => key a = k)

/-- Each key once and in order, with the last entry of `q` under it, or else of `p`. -/
def lastCopies (p q : List α) : List α :=
  (sortByKey id ((p ++ q).map key).dedup).filterMap
    (fun k => (lastWith key k q).or (lastWith key k p))

variable {l m : List α} {a x : α}

theorem mem_upsert (h : (m.map key).Nodup) :
    x ∈ upsert key a m ↔ x = a ∨ x ∈ m ∧ key x ≠ key a := by
  induction m with
  | nil => simp [upsert]
  | cons b m ih =>
    rw [map_cons, nodup_cons] at h
    unfold upsert
    split
    · next heq =>
      have hne : ∀ x ∈ m, key x ≠ key a := fun x hx hk =>
        h.1 (mem_map.mpr ⟨x, hx, hk.trans heq.symm⟩)
      grind
    · rw [mem_cons, ih h.2]
      grind

theorem upsert_nodup (h : (m.map key).Nodup) : ((upsert key a m).map key).Nodup := by
  induction m with
  | nil => simp [upsert]
  | cons b m ih =>
    rw [map_cons, nodup_cons] at h
    unfold upsert
    split
    · next heq => rw [map_cons, nodup_cons, ← heq]; exact h
    · next hne =>
      rw [map_cons, nodup_cons]
      refine ⟨?_, ih h.2⟩
      intro hmem
      obtain ⟨x, hx, hkey⟩ := mem_map.mp hmem
      rcases (mem_upsert key h.2).mp hx with rfl | hx
      · exact hne hkey.symm
      · exact h.1 (mem_map.mpr ⟨x, hx.1, hkey⟩)

theorem collect_concat (l : List α) (a : α) :
    collect key (l ++ [a]) = upsert key a (collect key l) := by
  simp [collect]

theorem collect_nodup (l : List α) : ((collect key l).map key).Nodup := by
  induction l using reverseRecOn with
  | nil => exact nodup_nil
  | append_singleton l a ih =>
    rw [collect_concat]
    exact upsert_nodup key ih

theorem mem_collect : x ∈ collect key l ↔ lastWith key (key x) l = some x := by
  induction l using reverseRecOn with
  | nil => simp [collect, lastWith]
  | append_singleton l a ih =>
    rw [collect_concat, mem_upsert key (collect_nodup key l), ih]
    unfold lastWith
    rw [reverse_concat, find?_cons]
    grind

theorem lastWith_append (k : κ) (p q : List α) :
    lastWith key k (p ++ q) = (lastWith key k q).or (lastWith key k p) := by
  unfold lastWith
  rw [reverse_append, find?_append]

theorem mem_of_lastWith {k : κ} (h : lastWith key k l = some x) : x ∈ l :=
  mem_reverse.mp (mem_of_find?_eq_some h)

theorem key_of_lastWith {k : κ} (h : lastWith key k l = some x) : key x = k := by
  simpa using find?_some h

theorem sortByKey_perm (l : List α) : (sortByKey key l).Perm l :=
  perm_insertionSort _ l

theorem sortByKey_pairwise (h : (l.map key).Nodup) :
    (sortByKey key l).Pairwise (fun a b => key a < key b) := by
  have hle : (sortByKey key l).Pairwise (fun a b => key a ≤ key b) :=
    haveI : Std.Total (fun a b : α => key a ≤ key b) := ⟨fun a b => le_total (key a) (key b)⟩
    haveI : IsTrans α (fun a b : α => key a ≤ key b) := ⟨fun _ _ _ => le_trans⟩
    pairwise_insertionSort _ l
  have hne : (sortByKey key l).Pairwise (fun a b => key a ≠ key b) := by
    have := ((sortByKey_perm key l).map key).nodup_iff.mpr h
    exact pairwise_map.mp this
  exact (hle.and hne).imp (fun ⟨h1, h2⟩ => lt_of_le_of_ne h1 h2)

theorem mergeByKey_pairwise (p q : List α) :
    (mergeByKey key p q).Pairwise (fun a b => key a < key b) :=
  sortByKey_pairwise key (collect_nodup key _)

theorem mem_mergeByKey_iff {p q} :
    x ∈ mergeByKey key p q ↔ lastWith key (key x) (p ++ q) = some x := by
  rw [mergeByKey, (sortByKey_perm key _).mem_iff, mem_collect]

theorem mem_of_mem_mergeByKey {p q} (h : x ∈ mergeByKey key p q) : x ∈ p ∨ x ∈ q :=
  mem_append.mp (mem_of_lastWith key ((mem_mergeByKey_iff key).mp h))

theorem mem_mergeByKey {p q} (hinj : ∀ x ∈ p ++ q, ∀ y ∈ p ++ q, key x = key y → x = y) :
    x ∈ mergeByKey key p q ↔ x ∈ p ∨ x ∈ q := by
  refine ⟨mem_of_mem_mergeByKey key, fun hx => (mem_mergeByKey_iff key).mpr ?_⟩
  have hx := mem_append.mpr hx
  cases hlast : lastWith key (key x) (p ++ q) with
  | none => simpa using find?_eq_none.mp hlast x (mem_reverse.mpr hx)
  | some y => rw [hinj y (mem_of_lastWith key hlast) x hx (key_of_lastWith key hlast)]

/-! ## Strictly ascending lists -/

variable {key}

section

variable (h : l.Pairwise (fun a b => key a < key b))
include h

theorem nodup_of_pairwise : l.Nodup :=
  h.imp (fun hlt heq => absurd (heq ▸ hlt) (lt_irrefl _))

theorem eq_of_key_eq : ∀ x ∈ l, ∀ y ∈ l, key x = key y → x = y := by
  induction l with
  | nil => intro x hx; cases hx
  | cons a l ih =>
    rw [pairwise_cons] at h
    intro x hx y hy hkey
    rcases mem_cons.mp hx with hxa | hx <;> rcases mem_cons.mp hy with hya | hy
    · rw [hxa, hya]
    · exact absurd (hxa ▸ hkey) (ne_of_lt (h.1 y hy))
    · exact absurd (hya ▸ hkey) (ne_of_gt (h.1 x hx))
    · exact ih h.2 x hx y hy hkey

theorem sortByKey_of_pairwise : sortByKey key l = l :=
  Pairwise.insertionSort_eq (h.imp le_of_lt)

theorem mem_suffix_of_le {t} (hs : a :: t <:+ l) (hx : x ∈ l) (hle : key a ≤ key x) :
    x ∈ a :: t := by
  obtain ⟨d, rfl⟩ := hs
  rcases mem_append.mp hx with hx | hx
  · have := (pairwise_append.mp h).2.2 x hx a mem_cons_self
    exact absurd hle (not_le_of_gt this)
  · exact hx

end

theorem eq_of_pairwise_of_mem {m : List α} (h : l.Pairwise (fun a b => key a < key b))
    (hm : m.Pairwise (fun a b => key a < key b)) (hmem : ∀ x, x ∈ l ↔ x ∈ m) : l = m := by
  have hperm := (perm_ext_iff_of_nodup (nodup_of_pairwise h) (nodup_of_pairwise hm)).mpr hmem
  refine hperm.eq_of_pairwise ?_ h hm
  intro a b _ _ hab hba
  exact absurd hba (lt_asymm hab)

theorem mergeByKey_eq_lastCopies (p q : List α) : mergeByKey key p q = lastCopies key p q := by
  apply eq_of_pairwise_of_mem (mergeByKey_pairwise key p q)
  · have hkeys : (((p ++ q).map key).dedup.map id).Nodup := by simpa using nodup_dedup _
    refine (sortByKey_pairwise id hkeys).filterMap _ ?_
    intro k k' hlt x hx x' hx'
    rw [← lastWith_append] at hx hx'
    rwa [key_of_lastWith key hx, key_of_lastWith key hx']
  · intro x
    unfold lastCopies
    rw [mem_mergeByKey_iff, mem_filterMap]
    simp only [← lastWith_append, (sortByKey_perm id _).mem_iff, mem_dedup]
    constructor
    · intro h
      exact ⟨key x, mem_map_of_mem (mem_of_lastWith key h), h⟩
    · rintro ⟨k, -, hk⟩
      cases key_of_lastWith key hk
      exact hk

theorem lastCopies_length (p q : List α) :
    (lastCopies key p q).length = ((p ++ q).map key).dedup.length := by
  rw [← (sortByKey_perm id ((p ++ q).map key).dedup).length_eq, lastCopies,
    filterMap_length_eq_length]
  intro k hk
  rw [(sortByKey_perm id _).mem_iff, mem_dedup] at hk
  obtain ⟨x, hx, rfl⟩ := mem_map.mp hk
  rw [← lastWith_append, lastWith, find?_isSome]
  exact ⟨x, mem_reverse.mpr hx, by simp⟩

theorem head_le (h : (a :: l).Pairwise (fun a b => key a < key b)) :
    ∀ x ∈ a :: l, key a ≤ key x := by
  rw [pairwise_cons] at h
  intro x hx
  rcases mem_cons.mp hx with rfl | hx
  · exact le_refl _
  · exact le_of_lt (h.1 x hx)

end Keyed

import Mathlib.Data.List.AList
import Mathlib.Data.List.Sort

/-! # Byte Strings and Finite Maps

A string is a sequence of bytes, a map an association list without duplicate keys. The source leaves
the order of iteration over a map open; `reorder` gives the list any other order. What a loop
deleted from a map is `gone`.
-/

abbrev GoString := List UInt8

/-- The bytes of an ASCII literal. -/
def str (s : String) : GoString := s.toList.map (fun c => c.toNat.toUInt8)

abbrev GoMap (α : Type) := AList (fun _ : GoString => α)

namespace GoMap

open List Option AList

variable {α : Type}

/-! ## Operations -/

def fold {β : Type} (f : β → GoString → α → β) (b : β) (m : GoMap α) : β :=
  m.entries.foldl (fun b e => f b e.1 e.2) b

variable {m m' : GoMap α} {k n : GoString} {a : α}

theorem fold_induction {β} {P : β → Prop} {f : β → GoString → α → β} {b : β} (hb : P b)
    (hstep : ∀ b k a, P b → P (f b k a)) : P (m.fold f b) := by
  unfold fold
  induction m.entries generalizing b with
  | nil => exact hb
  | cons e l ih => exact ih (hstep b e.1 e.2 hb)

theorem fold_entries_induction {β} {P : List ((_ : GoString) × α) → β → Prop}
    {f : β → GoString → α → β} {b : β} (hb : P [] b)
    (hstep : ∀ seen b k a, P seen b → P (seen ++ [⟨k, a⟩]) (f b k a)) :
    P m.entries (m.fold f b) := by
  suffices h : ∀ (l seen : List ((_ : GoString) × α)) (b : β), P seen b →
      P (seen ++ l) (l.foldl (fun b e => f b e.1 e.2) b) from h m.entries [] b hb
  intro l
  induction l with
  | nil =>
    intro seen b h
    rw [append_nil]
    exact h
  | cons e l ih =>
    intro seen b h
    rw [append_cons]
    exact ih _ _ (hstep seen b e.1 e.2 h)

theorem mem_entries_iff {e} : e ∈ m.entries ↔ m.lookup e.1 = some e.2 :=
  mem_lookup_iff.symm

theorem mem_iff : n ∈ m ↔ ∃ a, m.lookup n = some a :=
  lookup_isSome.symm.trans isSome_iff_exists

theorem lookup_insert_eq_some_iff {x : α} :
    (m.insert k a).lookup n = some x ↔ n = k ∧ x = a ∨ n ≠ k ∧ m.lookup n = some x := by
  by_cases h : n = k
  · subst h
    simp [eq_comm]
  · simp [h]

theorem lookup_erase_eq_some_iff {x : α} :
    (m.erase k).lookup n = some x ↔ n ≠ k ∧ m.lookup n = some x := by
  by_cases h : n = k
  · subst h
    simp [lookup_erase]
  · simp [h]

/-- A loop that deletes the other entries. -/
def filter (p : GoString → α → Bool) (m : GoMap α) : GoMap α where
  entries := m.entries.filter (fun e => p e.1 e.2)
  nodupKeys := List.NodupKeys.sublist List.filter_sublist m.nodupKeys

theorem lookup_filter (p : GoString → α → Bool) (m : GoMap α) (k : GoString) :
    (m.filter p).lookup k = (m.lookup k).filter (p k) := by
  apply Option.ext
  intro a
  rw [← mem_def, ← mem_def, mem_filter_iff, mem_lookup_iff,
    mem_lookup_iff]
  exact mem_filter

/-! ## Submaps -/

def Sub (m' m : GoMap α) : Prop := ∀ k a, m'.lookup k = some a → m.lookup k = some a

theorem Sub.refl (m : GoMap α) : Sub m m := fun _ _ h => h

theorem Sub.trans {m''} (h : Sub m'' m') (h' : Sub m' m) : Sub m'' m :=
  fun k a hk => h' k a (h k a hk)

theorem sub_filter (p : GoString → α → Bool) (m : GoMap α) : Sub (m.filter p) m := by
  intro k a h
  rw [lookup_filter, filter_eq_some_iff] at h
  exact h.1

theorem sub_erase (m : GoMap α) (k : GoString) : Sub (m.erase k) m :=
  fun _ _ h => (lookup_erase_eq_some_iff.mp h).2

def gone (m m' : GoMap α) : List ((_ : GoString) × α) :=
  m.entries.filter (fun e => (m'.lookup e.1).isNone)

theorem mem_gone {e} : e ∈ gone m m' ↔ m.lookup e.1 = some e.2 ∧ m'.lookup e.1 = none := by
  unfold gone
  rw [mem_filter, mem_entries_iff, isNone_iff_eq_none]

theorem gone_self (m : GoMap α) : gone m m = [] := by
  apply eq_nil_iff_forall_not_mem.mpr
  intro e he
  obtain ⟨hsome, hnone⟩ := mem_gone.mp he
  rw [hsome] at hnone
  cases hnone

theorem entries_perm_gone (h : Sub m' m) : m.entries.Perm (m'.entries ++ gone m m') := by
  have hleft : m'.entries.Perm (m.entries.filter (fun e => (m'.lookup e.1).isSome)) := by
    apply (perm_ext_iff_of_nodup m'.nodupKeys.nodup (m.nodupKeys.nodup.filter _)).mpr
    intro e
    rw [mem_filter, mem_entries_iff, mem_entries_iff, isSome_iff_exists]
    constructor
    · exact fun he => ⟨h _ _ he, e.2, he⟩
    · rintro ⟨he, a, ha⟩
      have : some e.2 = some a := he.symm.trans (h _ _ ha)
      rw [ha, this]
  have hsplit := filter_append_perm (fun e => (m'.lookup e.1).isSome) m.entries
  simp only [not_isSome] at hsplit
  exact hsplit.symm.trans (hleft.symm.append_right _)

theorem Sub.length_le (h : Sub m' m) : m'.entries.length ≤ m.entries.length := by
  have := (entries_perm_gone h).length_eq
  rw [length_append] at this
  omega

theorem gone_trans {m''} (h : Sub m' m) (h' : Sub m'' m') :
    (gone m m'').Perm (gone m m' ++ gone m' m'') := by
  have hall := (entries_perm_gone (h'.trans h)).symm.trans
    ((entries_perm_gone h).trans ((entries_perm_gone h').append_right _))
  rw [append_assoc] at hall
  exact ((perm_append_left_iff _).mp hall).trans perm_append_comm

theorem gone_filter (p : GoString → α → Bool) (m : GoMap α) :
    gone m (m.filter p) = m.entries.filter (fun e => !p e.1 e.2) := by
  apply filter_congr
  intro e he
  rw [lookup_filter, mem_entries_iff.mp he, filter_some]
  cases p e.1 e.2 <;> rfl

theorem gone_erase (h : m.lookup k = some a) : (gone m (m.erase k)).Perm [⟨k, a⟩] := by
  apply (perm_ext_iff_of_nodup (m.nodupKeys.nodup.filter _) (nodup_singleton _)).mpr
  intro e
  rw [mem_singleton]
  change e ∈ gone m (m.erase k) ↔ _
  rw [mem_gone]
  constructor
  · rintro ⟨he, hnone⟩
    have hk : e.1 = k := by
      by_contra hne
      rw [lookup_erase_ne hne, he] at hnone
      cases hnone
    obtain ⟨k', a'⟩ := e
    obtain rfl : k' = k := hk
    obtain rfl : a' = a := mem_unique he h
    rfl
  · rintro rfl
    exact ⟨h, lookup_erase _ _⟩

theorem gone_insert (m' : GoMap α) (a : α) (h : m.lookup k = none) :
    gone m (m'.insert k a) = gone m m' := by
  apply filter_congr
  intro e he
  have hne : e.1 ≠ k := by
    rintro rfl
    rw [mem_entries_iff.mp he] at h
    cases h
  rw [lookup_insert_ne hne]

theorem gone_erase_filter (h : Sub m' m) (hk : m'.lookup k = some a) :
    ((gone m (m'.erase k)).filter (fun e => e.1 ≠ k)).Perm (gone m m') := by
  have hsplit := ((gone_trans h (sub_erase m' k)).trans ((gone_erase hk).append_left _)).filter
    (fun e => decide (e.1 ≠ k))
  have hrest : (gone m m').filter (fun e => decide (e.1 ≠ k)) = gone m m' := by
    apply filter_eq_self.mpr
    intro e he
    have hne : e.1 ≠ k := by
      intro heq
      have hnone := (mem_gone.mp he).2
      rw [heq, hk] at hnone
      cases hnone
    exact decide_eq_true hne
  rw [filter_append, hrest] at hsplit
  simpa using hsplit

def reorder (rank : GoString → Nat) (m : GoMap α) : GoMap α where
  entries := m.entries.insertionSort (fun a b => rank a.1 ≤ rank b.1)
  nodupKeys := (List.perm_nodupKeys (List.perm_insertionSort _ _)).mpr m.nodupKeys

theorem reorder_perm (rank : GoString → Nat) (m : GoMap α) :
    (m.reorder rank).entries.Perm m.entries := perm_insertionSort _ _

theorem lookup_reorder (rank : GoString → Nat) (m : GoMap α) (k : GoString) :
    (m.reorder rank).lookup k = m.lookup k := by
  apply Option.ext
  intro a
  rw [← mem_def, ← mem_def, mem_lookup_iff, mem_lookup_iff]
  exact (m.reorder_perm rank).mem_iff

end GoMap

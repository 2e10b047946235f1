import QuicRTC.Framework.GoMap

/-! # Registries of Shared Cells

A map from names to cells that other parties keep pointers to. When a name is removed and added
again, earlier holders still have the old cell. No two names point to one cell, and the table points
only to cells that exist; both are fields.
-/

/-- A table of names over numbered cells. -/
structure Registry (α : Type) where
  cell : Nat → α
  created : Nat
  table : GoMap Nat
  bound : ∀ n r, table.lookup n = some r → r < created
  unique : ∀ n n' r, table.lookup n = some r → table.lookup n' = some r → n = n'

namespace Registry

variable {α : Type}

/-! ## Operations -/

/-- `a` stands in for cells that do not exist. -/
def empty (a : α) : Registry α where
  cell := fun _ => a
  created := 0
  table := ∅
  bound := fun _ _ h => absurd h (Option.some_ne_none _).symm
  unique := fun _ _ _ h => absurd h (Option.some_ne_none _).symm

/-- The cell a name stands for. -/
def lookup (s : Registry α) (n : GoString) : Option Nat := s.table.lookup n

def size (s : Registry α) : Nat := s.table.entries.length

/-- A new cell under a name. -/
def add (s : Registry α) (n : GoString) (a : α) : Registry α where
  cell := Function.update s.cell s.created a
  created := s.created + 1
  table := s.table.insert n s.created
  bound := by
    intro m r h
    rcases GoMap.lookup_insert_eq_some_iff.mp h with ⟨-, rfl⟩ | ⟨-, h⟩
    · exact Nat.lt_succ_self _
    · exact Nat.lt_succ_of_lt (s.bound m r h)
  unique := by
    intro m m' r h h'
    rcases GoMap.lookup_insert_eq_some_iff.mp h with ⟨hm, hr⟩ | ⟨-, hold⟩ <;>
      rcases GoMap.lookup_insert_eq_some_iff.mp h' with ⟨hm', hr'⟩ | ⟨-, hold'⟩
    · rw [hm, hm']
    -- the new cell is not one of the old ones
    · exact absurd (s.bound m' r hold') (by omega)
    · exact absurd (s.bound m r hold) (by omega)
    · exact s.unique m m' r hold hold'

def getOrAdd (s : Registry α) (n : GoString) (a : α) : Nat × Registry α :=
  match s.lookup n with
  | some r => (r, s)
  | none => (s.created, s.add n a)

/-- Change a cell in place. -/
def modify (s : Registry α) (r : Nat) (f : α → α) : Registry α :=
  { s with cell := Function.update s.cell r (f (s.cell r)) }

/-- Its cell stays with those who hold it. -/
def remove (s : Registry α) (n : GoString) : Registry α where
  cell := s.cell
  created := s.created
  table := s.table.erase n
  bound := fun m r h => s.bound m r (GoMap.lookup_erase_eq_some_iff.mp h).2
  unique := fun m m' r h h' => s.unique m m' r (GoMap.lookup_erase_eq_some_iff.mp h).2
    (GoMap.lookup_erase_eq_some_iff.mp h').2

/-! ## What each operation does -/

variable {m n : GoString} {r : Nat} {s : Registry α}

theorem lookup_lt (h : s.lookup n = some r) :
    r < s.created := s.bound n r h

theorem lookup_inj {n'} (h : s.lookup n = some r) (h' : s.lookup n' = some r) :
    n = n' := s.unique n n' r h h'

theorem lookup_add_eq_some_iff {a : α} :
    (s.add n a).lookup m = some r ↔ m = n ∧ r = s.created ∨ m ≠ n ∧ s.lookup m = some r :=
  GoMap.lookup_insert_eq_some_iff

@[simp] theorem lookup_add_self (s : Registry α) (n : GoString) (a : α) :
    (s.add n a).lookup n = some s.created :=
  lookup_add_eq_some_iff.mpr (Or.inl ⟨rfl, rfl⟩)

theorem lookup_add_of_some {a : α}
    (hn : s.lookup n = none) (hm : s.lookup m = some r) : (s.add n a).lookup m = some r := by
  apply lookup_add_eq_some_iff.mpr
  right
  refine ⟨?_, hm⟩
  rintro rfl
  exact absurd (hm.symm.trans hn) (Option.some_ne_none _)

@[simp] theorem cell_add_created (s : Registry α) (n : GoString) (a : α) :
    (s.add n a).cell s.created = a := Function.update_self ..

theorem cell_add_of_lt (s : Registry α) (n : GoString) (a : α) (h : r < s.created) :
    (s.add n a).cell r = s.cell r := Function.update_of_ne (Nat.ne_of_lt h) ..

@[simp] theorem lookup_modify (s : Registry α) (r : Nat) (f : α → α) (n : GoString) :
    (s.modify r f).lookup n = s.lookup n := rfl

@[simp] theorem cell_modify_self (s : Registry α) (r : Nat) (f : α → α) :
    (s.modify r f).cell r = f (s.cell r) := Function.update_self ..

theorem cell_modify_of_ne (s : Registry α) {r'} (f : α → α) (h : r' ≠ r) :
    (s.modify r f).cell r' = s.cell r' := Function.update_of_ne h ..

theorem cell_modify (s : Registry α) (r r' : Nat) (f : α → α) :
    (s.modify r f).cell r' = if r' = r then f (s.cell r) else s.cell r' := by
  by_cases h : r' = r
  · subst h
    rw [if_pos rfl, cell_modify_self]
  · rw [if_neg h, cell_modify_of_ne s f h]

theorem cell_modify_congr {β : Type} (g : α → β) {f : α → α} (h : g (f (s.cell r)) = g (s.cell r))
    (r' : Nat) : g ((s.modify r f).cell r') = g (s.cell r') := by
  rw [cell_modify]
  split
  · next heq => rw [h, heq]
  · rfl

theorem lookup_remove_eq_some_iff : (s.remove n).lookup m = some r ↔ m ≠ n ∧ s.lookup m = some r :=
  GoMap.lookup_erase_eq_some_iff

@[simp] theorem cell_remove (s : Registry α) (n : GoString) (r : Nat) :
    (s.remove n).cell r = s.cell r := rfl

theorem getOrAdd_of_some (a : α) (h : s.lookup n = some r) : s.getOrAdd n a = (r, s) := by
  unfold getOrAdd
  rw [h]

theorem getOrAdd_of_none (a : α) (h : s.lookup n = none) :
    s.getOrAdd n a = (s.created, s.add n a) := by
  unfold getOrAdd
  rw [h]

theorem lookup_getOrAdd (s : Registry α) (n : GoString) (a : α) :
    (s.getOrAdd n a).2.lookup n = some (s.getOrAdd n a).1 := by
  cases h : s.lookup n with
  | none => rw [getOrAdd_of_none a h, lookup_add_self]
  | some r => rw [getOrAdd_of_some a h, h]

end Registry

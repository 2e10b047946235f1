import QuicRTC.Pubsub.Concurrent

/-! # The Identifiers of a Chain

A remove function finds its interceptor by the identifier it captured. As long as no more are given
out than a slice can have entries, it takes away the interceptor it was returned for and no other.
-/

namespace QuicRTC

open List Slots

/-- A length is an `int`. -/
def maxSliceLen : Nat := 9223372036854775807

namespace Hooks

variable {F : Type} {h : Hooks F} {n : Nat} {id : UInt64} {fn : F}

def entries (h : Hooks F) : List (UInt64 × F) := h.interceptorIDs.zip h.interceptors

/-- Distinct identifiers, of at most `n` given out. -/
structure Issued (n : Nat) (h : Hooks F) : Prop where
  length : h.interceptorIDs.length = h.interceptors.length
  nodup : h.interceptorIDs.Nodup
  issued : ∀ id ∈ h.interceptorIDs, id.toNat ≤ h.nextInterceptorID.toNat
  few : h.nextInterceptorID.toNat ≤ n

theorem issued_empty (n : Nat) : (empty : Hooks F).Issued n where
  length := rfl
  nodup := nodup_nil
  issued := nofun
  few := Nat.zero_le n

namespace Issued

theorem mono (hi : h.Issued n) {m} (hm : n ≤ m) : h.Issued m :=
  { hi with few := Nat.le_trans hi.few hm }

theorem map_snd (hi : h.Issued n) : h.entries.map Prod.snd = h.interceptors :=
  map_snd_zip (Nat.le_of_eq hi.length.symm)

theorem le_next (hi : h.Issued n) (hmem : (id, fn) ∈ h.entries) :
    id.toNat ≤ h.nextInterceptorID.toNat :=
  hi.issued id (of_mem_zip hmem).1

theorem fn_unique (hi : h.Issued n) {fn' : F} (hmem : (id, fn) ∈ h.entries)
    (hmem' : (id, fn') ∈ h.entries) : fn = fn' := by
  have hfst : (h.entries.map Prod.fst).Nodup := by
    rw [entries, map_fst_zip (Nat.le_of_eq hi.length)]
    exact hi.nodup
  have := inj_on_of_nodup_map hfst hmem hmem' rfl
  exact congrArg Prod.snd this

theorem next_add (hi : h.Issued n) (hn : n < maxSliceLen) (fn : F) :
    (h.add fn).nextInterceptorID.toNat = h.nextInterceptorID.toNat + 1 := by
  have hfew := hi.few
  unfold maxSliceLen at hn
  show (h.nextInterceptorID + 1).toNat = _
  rw [UInt64.toNat_add]
  exact Nat.mod_eq_of_lt (by show _ + 1 < 18446744073709551616; omega)

theorem entries_add (hi : h.Issued n) (fn : F) :
    (h.add fn).entries = h.entries ++ [(h.nextInterceptorID + 1, fn)] :=
  zip_append hi.length

theorem add (hi : h.Issued n) (hn : n < maxSliceLen) (fn : F) : (h.add fn).Issued (n + 1) := by
  have hnext := hi.next_add hn fn
  have hfew := hi.few
  refine ⟨?_, ?_, ?_, ?_⟩
  · show (_ ++ [_]).length = (_ ++ [_]).length
    rw [length_append, length_append, hi.length]
    rfl
  · apply Nodup.append hi.nodup (nodup_singleton _)
    intro id hid hnew
    have hle := hi.issued id hid
    obtain rfl := mem_singleton.mp hnew
    change (h.nextInterceptorID + 1).toNat = _ at hnext
    omega
  · refine forall_mem_snoc (fun id hid => ?_) (Nat.le_refl _)
    have hle := hi.issued id hid
    omega
  · omega

/-! ## The remove function -/

theorem zip_eraseIdx {ids : List UInt64} {fns : List F} (hlen : ids.length = fns.length)
    (hnd : ids.Nodup) {i} (hi : ids.findIdx? (fun gotID => gotID == id) = some i) :
    (ids.eraseIdx i).zip (fns.eraseIdx i) = (ids.zip fns).filter (fun p => p.1 != id) := by
  induction ids generalizing fns i with
  | nil => cases hi
  | cons a ids ih =>
    cases fns with
    | nil => cases hlen
    | cons fn fns =>
      obtain ⟨hnot, hnd⟩ := nodup_cons.mp hnd
      rw [findIdx?_cons] at hi
      by_cases ha : a = id
      · -- it is the first, and no other is equal to it
        subst ha
        rw [beq_self_eq_true, if_pos rfl, Option.some.injEq] at hi
        subst hi
        have hrest : ∀ p ∈ ids.zip fns, (p.1 != a) = true := by
          intro p hp
          have hpa : p.1 ≠ a := fun heq => hnot (heq ▸ (of_mem_zip hp).1)
          exact bne_iff_ne.mpr hpa
        simp [filter_eq_self.mpr hrest]
      · rw [if_neg (by simpa using ha)] at hi
        obtain ⟨j, hj, rfl⟩ := Option.map_eq_some_iff.mp hi
        have hkeep : ((a, fn).1 != id) = true := bne_iff_ne.mpr ha
        show (a, fn) :: (ids.eraseIdx j).zip (fns.eraseIdx j) = _
        rw [zip_cons_cons, filter_cons, if_pos hkeep, ih (Nat.succ.inj hlen) hnd hj]

theorem entries_remove (hi : h.Issued n) (id : UInt64) :
    (h.remove id).entries = h.entries.filter (fun p => p.1 != id) := by
  unfold remove
  split
  · next i hfind => exact zip_eraseIdx hi.length hi.nodup hfind
  · next hnone =>
    symm
    apply filter_eq_self.mpr
    intro p hp
    have := findIdx?_eq_none_iff.mp hnone p.1 (of_mem_zip hp).1
    rw [bne, this]
    rfl

theorem mem_entries_remove (hi : h.Issued n) {p} :
    p ∈ (h.remove id).entries ↔ p ∈ h.entries ∧ p.1 ≠ id := by
  rw [hi.entries_remove, mem_filter, bne_iff_ne]

theorem remove (hi : h.Issued n) (id : UInt64) : (h.remove id).Issued n := by
  unfold Hooks.remove
  split
  · next i hfind =>
    have hlt : i < h.interceptorIDs.length := (findIdx?_eq_some_iff_getElem.mp hfind).1
    refine ⟨?_, hi.nodup.sublist (eraseIdx_sublist _ _), ?_, hi.few⟩
    · rw [length_eraseIdx_of_lt hlt, length_eraseIdx_of_lt (hi.length ▸ hlt), hi.length]
    · exact fun id hid => hi.issued id (mem_of_mem_eraseIdx hid)
  · exact hi

end Issued

theorem next_remove (h : Hooks F) (id : UInt64) :
    (h.remove id).nextInterceptorID = h.nextInterceptorID := by
  unfold remove
  split <;> rfl

theorem interceptors_remove_sublist (h : Hooks F) (id : UInt64) :
    (h.remove id).interceptors.Sublist h.interceptors := by
  unfold remove
  split
  · exact eraseIdx_sublist _ _
  · exact Sublist.refl _

end Hooks

end QuicRTC

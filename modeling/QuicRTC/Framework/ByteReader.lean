import Mathlib.Data.List.Basic

/-! # Programs That Read Bytes

A decoder reads so many bytes at a time and may push bytes back. Its result depends on the bytes its
source still delivers, not on the pieces in which it gets them (`run_agree`).
-/

namespace ByteReader

open List

variable {ε ε' α β ρ ρ' : Type}

/-! ## Decoders and sources -/

inductive Decoder (ε α : Type) where
  | ret (a : α)
  | fail (e : ε)
  | read (n : Nat) (k : List UInt8 → Decoder ε α)
  /-- Push bytes back. -/
  | unread (bytes : List UInt8) (k : Decoder ε α)

structure Source (ρ ε : Type) where
  readFull : Nat → ρ → Except ε (List UInt8 × ρ)
  unread : List UInt8 → ρ → ρ

/-- The bytes themselves; `eof` is the error for what is left when that is too short. -/
def flat (eof : List UInt8 → ε) : Source (List UInt8) ε where
  readFull n r := if n ≤ r.length then .ok (r.take n, r.drop n) else .error (eof r)
  unread b r := b ++ r

namespace Decoder

def run (S : Source ρ ε) : Decoder ε α → ρ → Except ε (α × ρ)
  | .ret a, r => .ok (a, r)
  | .fail e, _ => .error e
  | .read n k, r =>
    match S.readFull n r with
    | .ok (b, r') => (k b).run S r'
    | .error e => .error e
  | .unread b k, r => k.run S (S.unread b r)

def bind : Decoder ε α → (α → Decoder ε β) → Decoder ε β
  | .ret a, f => f a
  | .fail e, _ => .fail e
  | .read n k, f => .read n (fun b => (k b).bind f)
  | .unread b k, f => .unread b (k.bind f)

def map (f : α → β) (d : Decoder ε α) : Decoder ε β := d.bind (fun a => .ret (f a))

/-- Decoders run in a row until one fails, and the source before that one. -/
def runAll (S : Source ρ ε) : List (Decoder ε α) → ρ → List α × ρ
  | [], r => ([], r)
  | d :: ds, r =>
    match d.run S r with
    | .ok (a, r') => (a :: (runAll S ds r').1, (runAll S ds r').2)
    | .error _ => ([], r)

/-- They read alike and end alike; errors may differ. -/
inductive Same : Decoder ε α → Decoder ε' α → Prop
  | ret (a : α) : Same (.ret a) (.ret a)
  | fail (e : ε) (e' : ε') : Same (.fail e) (.fail e')
  | read {n : Nat} {k : List UInt8 → Decoder ε α} {k' : List UInt8 → Decoder ε' α}
      (h : ∀ b, b.length = n → Same (k b) (k' b)) : Same (.read n k) (.read n k')
  | unread {b : List UInt8} {k : Decoder ε α} {k' : Decoder ε' α} (h : Same k k') :
      Same (.unread b k) (.unread b k')

theorem Same.refl (d : Decoder ε α) : Same d d := by
  induction d with
  | ret a => exact .ret a
  | fail e => exact .fail e e
  | read n k ih => exact .read (fun b _ => ih b)
  | unread b k ih => exact .unread ih

theorem Same.map {d : Decoder ε α} {d' : Decoder ε' α} (h : Same d d') (f : α → β) :
    Same (d.map f) (d'.map f) := by
  induction h with
  | ret a => exact .ret (f a)
  | fail e e' => exact .fail e e'
  | read _ ih => exact .read ih
  | unread _ ih => exact .unread ih

theorem map_map {γ : Type} (f : α → β) (g : β → γ) (d : Decoder ε α) :
    (d.map f).map g = d.map (g ∘ f) := by
  induction d with
  | ret _ => rfl
  | fail _ => rfl
  | read n k ih => exact congrArg (read n) (funext ih)
  | unread b k ih => exact congrArg (unread b) ih

theorem run_map (f : α → β) (S : Source ρ ε) (d : Decoder ε α) (r : ρ) :
    (d.map f).run S r = (d.run S r).map (Prod.map f id) := by
  induction d generalizing r with
  | ret _ => rfl
  | fail _ => rfl
  | read n k ih =>
    simp only [map, bind, run]
    split
    · exact ih _ _
    · rfl
  | unread b k ih => exact ih _

theorem runAll_map (f : α → β) (S : Source ρ ε) (ds : List (Decoder ε α)) (r : ρ) :
    runAll S (ds.map (map f)) r = ((runAll S ds r).1.map f, (runAll S ds r).2) := by
  induction ds generalizing r with
  | nil => rfl
  | cons d ds ih =>
    simp only [map_cons, runAll, run_map]
    cases d.run S r with
    | error _ => rfl
    | ok p => simp only [Except.map, Prod.map, id, ih, map_cons]

end Decoder

/-! ## Sources that deliver the same bytes -/

structure Delivers (S : Source ρ ε) (bytes : ρ → List UInt8) : Prop where
  full : ∀ n r, n ≤ (bytes r).length →
             ∃ r', S.readFull n r = .ok ((bytes r).take n, r') ∧ bytes r' = (bytes r).drop n
  short : ∀ n r, (bytes r).length < n → ∃ e, S.readFull n r = .error e
  unread : ∀ b r, bytes (S.unread b r) = b ++ bytes r

theorem flat_delivers (eof : List UInt8 → ε) : Delivers (flat eof) id where
  full := fun _ r h => ⟨r.drop _, if_pos h, rfl⟩
  short := fun _ r h => ⟨eof r, if_neg (Nat.not_le_of_lt h)⟩
  unread := fun _ _ => rfl

theorem flat_append (eof : List UInt8 → ε) (b r : List UInt8) :
    (flat eof).readFull b.length (b ++ r) = .ok (b, r) := by
  simp [flat]

theorem run_read_append {eof : List UInt8 → ε} {n} {k : List UInt8 → Decoder ε α} {b : List UInt8}
    (hb : b.length = n) (r : List UInt8) :
    (Decoder.read n k).run (flat eof) (b ++ r) = (k b).run (flat eof) r := by
  subst hb
  rw [Decoder.run, flat_append]

section Flat

variable {eof : List UInt8 → ε} {n : Nat}

theorem run_read_flat {k : List UInt8 → Decoder ε α} {r} : (Decoder.read n k).run (flat eof) r =
    if n ≤ r.length then (k (r.take n)).run (flat eof) (r.drop n) else .error (eof r) := by
  by_cases hn : n ≤ r.length
  · simp only [Decoder.run, flat, if_pos hn]
  · simp only [Decoder.run, flat, if_neg hn]

theorem run_take_error {d : Decoder ε α} {b a} (h : d.run (flat eof) b = .ok (a, []))
    (hn : n < b.length) : ∃ left, d.run (flat eof) (b.take n) = .error (eof left) := by
  -- A decoder that ends within the shorter bytes would end there in the longer ones too.
  induction d generalizing b n with
  | ret _ =>
    cases h
    cases hn
  | fail _ => cases h
  | read m k ih =>
    rw [run_read_flat] at h ⊢
    split at h
    case isFalse => cases h
    by_cases hm : m ≤ n
    · rw [if_pos (by rw [length_take]; omega), take_take, Nat.min_eq_left hm, drop_take]
      exact ih _ h (by rw [length_drop]; omega)
    · exact ⟨_, if_neg (by rw [length_take]; omega)⟩
  | unread c k ih =>
    have hlen : c.length + n < (c ++ b).length := by
      rw [length_append]
      omega
    have herr := ih (b := c ++ b) h hlen
    rwa [take_length_add_append] at herr

end Flat

/-- Both fail, or both end with one result and the same bytes left. -/
inductive Agree (bytes : ρ → List UInt8) (bytes' : ρ' → List UInt8) :
    Except ε (α × ρ) → Except ε' (α × ρ') → Prop
  | ok {a : α} {r : ρ} {r' : ρ'} (h : bytes r = bytes' r') :
      Agree bytes bytes' (.ok (a, r)) (.ok (a, r'))
  | error (e : ε) (e' : ε') : Agree bytes bytes' (.error e) (.error e')

variable {S : Source ρ ε} {S' : Source ρ' ε'} {bytes : ρ → List UInt8} {bytes' : ρ' → List UInt8}
  {d : Decoder ε α} {d' : Decoder ε' α} {r : ρ} {r' : ρ'}

theorem run_agree (hS : Delivers S bytes) (hS' : Delivers S' bytes') (h : d.Same d')
    (hr : bytes r = bytes' r') : Agree bytes bytes' (d.run S r) (d'.run S' r') := by
  -- on the decoders: at a read both sources have enough bytes, or neither has
  induction h generalizing r r' with
  | ret a => exact .ok hr
  | fail e e' => exact .error e e'
  | @read n k k' _ ih =>
    rcases Nat.lt_or_ge (bytes r).length n with hlt | hle
    · obtain ⟨e, he⟩ := hS.short n r hlt
      obtain ⟨e', he'⟩ := hS'.short n r' (hr ▸ hlt)
      simp only [Decoder.run, he, he']
      exact .error e e'
    · obtain ⟨s, hs, hrest⟩ := hS.full n r hle
      obtain ⟨s', hs', hrest'⟩ := hS'.full n r' (hr ▸ hle)
      simp only [Decoder.run, hs, hs', ← hr]
      exact ih _ (length_take_of_le hle) (by rw [hrest, hrest', hr])
  | unread _ ih =>
    apply ih
    rw [hS.unread, hS'.unread, hr]

/-- A run on the bytes is one on every source that delivers them. -/
theorem run_of_flat (hS : Delivers S bytes) {eof : List UInt8 → ε'} {a : α} {rest} (h : d.Same d')
    (hrun : d'.run (flat eof) (bytes r) = .ok (a, rest)) :
    ∃ s, d.run S r = .ok (a, s) ∧ bytes s = rest := by
  have hagree : Agree bytes id (d.run S r) (d'.run (flat eof) (bytes r)) :=
    run_agree hS (flat_delivers eof) h rfl
  rw [hrun] at hagree
  generalize d.run S r = res at hagree
  cases hagree with
  | ok hbytes => exact ⟨_, rfl, hbytes⟩

theorem runAll_agree (hS : Delivers S bytes) (hS' : Delivers S' bytes')
    {ds : List (Decoder ε α)} {ds' : List (Decoder ε' α)}
    (h : List.Forall₂ Decoder.Same ds ds') (hr : bytes r = bytes' r') :
    (Decoder.runAll S ds r).1 = (Decoder.runAll S' ds' r').1 ∧
      bytes (Decoder.runAll S ds r).2 = bytes' (Decoder.runAll S' ds' r').2 := by
  induction h generalizing r r' with
  | nil => exact ⟨rfl, hr⟩
  | @cons d d' ds ds' hd _ ih =>
    have hagree := run_agree hS hS' hd hr
    simp only [Decoder.runAll]
    generalize d.run S r = res, d'.run S' r' = res' at hagree
    cases hagree with
    | ok hbytes => exact ⟨congrArg (cons _) (ih hbytes).1, (ih hbytes).2⟩
    | error _ _ => exact ⟨rfl, hr⟩

theorem runAll_encoded {γ : Type} {eof : List UInt8 → ε} (encode : γ → List UInt8)
    (decoded : γ → α) {l : List γ} (hone : ∀ x ∈ l, ∀ rest,
      d.run (flat eof) (encode x ++ rest) = .ok (decoded x, rest)) (rest : List UInt8)
    (ds : List (Decoder ε α)) :
    Decoder.runAll (flat eof) (List.replicate l.length d ++ ds) (l.flatMap encode ++ rest) =
      (l.map decoded ++ (Decoder.runAll (flat eof) ds rest).1,
        (Decoder.runAll (flat eof) ds rest).2) := by
  induction l with
  | nil => rfl
  | cons x l ih =>
    have hrest := ih (fun y hy => hone y (mem_cons_of_mem x hy))
    rw [flatMap_cons, append_assoc, length_cons, replicate_succ,
      cons_append, Decoder.runAll, hone x mem_cons_self]
    simp only [hrest, map_cons, cons_append]

end ByteReader

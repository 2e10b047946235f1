import Mathlib.Data.List.Rotate

/-! # Circular Buffer with a Slot Cap and a Size Budget

A buffer that grows up to `cap` slots and from then on overwrites its oldest slot. It has a budget
on the total size of its entries: before one is added, the oldest are dropped until it fits.
-/

/-- `head` is the oldest entry once the buffer is full. -/
structure RingBuffer (α : Type) where
  buf : List α
  head : Nat
  cap : Nat
  bytes : Int
  maxBytes : Int

namespace RingBuffer

open List

variable {α : Type} (size : α → Nat)

/-! ## Operations -/

def empty (cap : Nat) (maxBytes : Int) : RingBuffer α where
  buf := []
  head := 0
  cap := cap
  bytes := 0
  maxBytes := maxBytes

/-- In insertion order. -/
def snapshot (r : RingBuffer α) : List α :=
  if r.buf.length < r.cap then r.buf
  else (List.range r.buf.length).filterMap
    (fun i => r.buf[(r.head + i) % r.buf.length]?)

def evictOldest (r : RingBuffer α) : RingBuffer α :=
  if r.buf.length = 0 then r
  else
    let oldestIdx := if r.buf.length < r.cap then 0 else r.head
    let bytes := r.bytes - (r.buf[oldestIdx]?).elim 0 size
    let r' :=
      if r.buf.length < r.cap then { r with buf := r.buf.drop 1 }
      else { r with buf := r.snapshot.drop 1, head := 0 }
    { r' with bytes := if bytes < 0 then 0 else bytes }

/-- One entry goes in each round, so as many rounds as entries are enough. -/
def trimLoop (need : Int) : Nat → RingBuffer α → RingBuffer α
  | 0, r => r
  | rounds + 1, r =>
    if 0 < r.maxBytes ∧ 0 < r.buf.length ∧ r.maxBytes < r.bytes + need then
      trimLoop need rounds (r.evictOldest size)
    else r

def trim (need : Int) (r : RingBuffer α) : RingBuffer α :=
  trimLoop size need r.buf.length r

def append (r : RingBuffer α) (a : α) : RingBuffer α :=
  if r.cap = 0 then r
  else
    let r := r.trim size (size a)
    if r.buf.length < r.cap then
      { r with buf := r.buf ++ [a], bytes := r.bytes + size a }
    else
      { r with
        buf := r.buf.set r.head a
        bytes := r.bytes - (r.buf[r.head]?).elim 0 size + size a
        head := (r.head + 1) % r.cap }

/-! ## The abstract window -/

def total : List α → Int
  | [] => 0
  | a :: l => size a + total l

@[simp] theorem total_nil : total size ([] : List α) = 0 := rfl

@[simp] theorem total_cons (a : α) (l : List α) :
    total size (a :: l) = size a + total size l := rfl

@[simp] theorem total_append (l m : List α) :
    total size (l ++ m) = total size l + total size m := by
  induction l with
  | nil => simp
  | cons a l ih => rw [cons_append, total_cons, total_cons, ih, Int.add_assoc]

theorem total_nonneg (l : List α) : 0 ≤ total size l := by
  induction l with
  | nil => simp
  | cons a l ih => rw [total_cons]; omega

variable {maxBytes : Int} {hist l w : List α} {i : Nat} {r : RingBuffer α}

theorem total_perm {m} (h : l.Perm m) : total size l = total size m := by
  induction h with
  | nil => rfl
  | cons a _ ih => rw [total_cons, total_cons, ih]
  | swap a b l => simp only [total_cons]; omega
  | trans _ _ ih₁ ih₂ => exact ih₁.trans ih₂

def dropUntilFits (maxBytes need : Int) : List α → List α
  | [] => []
  | a :: l =>
    if maxBytes < total size (a :: l) + need then dropUntilFits maxBytes need l
    else a :: l

/-- What is left once `need` more fits. -/
def trimmed (maxBytes need : Int) (w : List α) : List α :=
  if 0 < maxBytes then dropUntilFits size maxBytes need w else w

/-- What `append` does to the entries in insertion order. -/
def push (cap : Nat) (maxBytes : Int) (w : List α) (a : α) : List α :=
  let w := trimmed size maxBytes (size a) w
  (if w.length < cap then w else w.tail) ++ [a]

theorem trimmed_suffix (maxBytes need : Int) (w : List α) : trimmed size maxBytes need w <:+ w := by
  have hdrop : ∀ l : List α, dropUntilFits size maxBytes need l <:+ l := by
    intro l
    induction l with
    | nil => exact suffix_refl _
    | cons a l ih =>
      unfold dropUntilFits
      split
      · exact ih.trans (suffix_cons a l)
      · exact suffix_refl _
  unfold trimmed
  split
  · exact hdrop w
  · exact suffix_refl _

theorem push_suffix (cap : Nat) (maxBytes : Int) (w : List α) (a : α) :
    push size cap maxBytes w a <:+ w ++ [a] := by
  obtain ⟨t, ht⟩ := trimmed_suffix size maxBytes (size a) w
  simp only [push]
  split
  · exact ⟨t, by rw [← append_assoc, ht]⟩
  · obtain ⟨t', ht'⟩ := tail_suffix (trimmed size maxBytes (size a) w)
    exact ⟨t ++ t', by rw [← append_assoc, append_assoc t, ht', ht]⟩

theorem push_ne_nil (cap : Nat) (maxBytes : Int) (w : List α) (a : α) :
    push size cap maxBytes w a ≠ [] := by
  simp [push]

/-! ## Validity of the representation -/

/-- A ring as its operations leave it. -/
structure Valid (r : RingBuffer α) : Prop where
  len_le : r.buf.length ≤ r.cap
  head_zero : r.buf.length < r.cap → r.head = 0
  head_lt : 0 < r.cap → r.head < r.cap
  bytes_eq : r.bytes = total size r.buf

theorem snapshot_of_nil (h : r.buf = []) : r.snapshot = [] := by
  simp [snapshot, h]

theorem snapshot_of_lt (h : r.buf.length < r.cap) : r.snapshot = r.buf :=
  if_pos h

theorem Valid.snapshot_eq {size : α → Nat} (h : Valid size r) :
    r.snapshot = r.buf.rotate r.head := by
  unfold snapshot
  split
  · next hlt => rw [h.head_zero hlt, rotate_zero]
  · apply ext_getElem?
    intro i
    by_cases hi : i < r.buf.length
    · have hpos : 0 < r.buf.length := by omega
      have hmod : ∀ j, (r.head + j) % r.buf.length < r.buf.length :=
        fun j => Nat.mod_lt _ hpos
      have hmap : (range r.buf.length).filterMap
            (fun i => r.buf[(r.head + i) % r.buf.length]?)
          = (range r.buf.length).map
            (fun i => r.buf.get ⟨(r.head + i) % r.buf.length, hmod i⟩) := by
        rw [← filterMap_eq_map]
        apply filterMap_congr
        intro j _
        simp [getElem?_eq_getElem (hmod j)]
      rw [hmap, getElem?_map, getElem?_range hi, getElem?_rotate hi]
      simp [Nat.add_comm]
    · have hlen : (r.buf.rotate r.head).length ≤ i := by
        rw [length_rotate]; omega
      rw [getElem?_eq_none hlen, getElem?_eq_none]
      exact Nat.le_trans (length_filterMap_le _ _) (by rw [length_range]; omega)

theorem Valid.snapshot_length {size : α → Nat} (h : Valid size r) :
    r.snapshot.length = r.buf.length := by
  rw [h.snapshot_eq, length_rotate]

theorem Valid.snapshot_total {size : α → Nat} (h : Valid size r) :
    total size r.snapshot = r.bytes := by
  rw [h.snapshot_eq, h.bytes_eq]
  exact total_perm size (rotate_perm _ _)

/-! ## The representation refines the window -/

theorem Valid.oldest_eq {size : α → Nat} (h : Valid size r) (hne : r.buf ≠ []) :
    r.buf[if r.buf.length < r.cap then 0 else r.head]? = r.snapshot.head? := by
  have hpos : 0 < r.buf.length := length_pos_iff.mpr hne
  have hle := h.len_le
  rw [h.snapshot_eq]
  split
  · next hlt => rw [h.head_zero hlt, rotate_zero, head?_eq_getElem?]
  · have := h.head_lt (by omega)
    rw [head?_rotate (by omega)]

theorem Valid.evictOldest_eq {size : α → Nat} (h : Valid size r) (hne : r.buf ≠ []) :
    r.evictOldest size =
      { r with
        buf := r.snapshot.tail
        head := 0
        bytes := total size r.snapshot.tail } := by
  have hpos : 0 < r.buf.length := length_pos_iff.mpr hne
  have hbytes : r.bytes - (r.buf[if r.buf.length < r.cap then 0 else r.head]?).elim 0 size
      = total size r.snapshot.tail := by
    rw [h.oldest_eq hne, ← h.snapshot_total]
    cases r.snapshot with
    | nil => simp
    | cons x xs => simp only [head?_cons, Option.elim_some, total_cons, tail_cons]; omega
  have hclamp : (if total size r.snapshot.tail < 0 then 0 else total size r.snapshot.tail)
      = total size r.snapshot.tail :=
    if_neg (by have := total_nonneg size r.snapshot.tail; omega)
  unfold RingBuffer.evictOldest
  rw [if_neg (by omega)]
  simp only [hbytes, hclamp]
  by_cases hlt : r.buf.length < r.cap
  · -- not full: the slots are in order already
    rw [if_pos hlt, snapshot_of_lt hlt, drop_one, h.head_zero hlt]
  · rw [if_neg hlt, drop_one]

theorem Valid.evictOldest {size : α → Nat} (h : Valid size r) (hne : r.buf ≠ []) :
    Valid size (r.evictOldest size) ∧ (r.evictOldest size).snapshot = r.snapshot.tail := by
  have hpos : 0 < r.buf.length := length_pos_iff.mpr hne
  have hle := h.len_le
  have hlen := h.snapshot_length
  have hlt : r.snapshot.tail.length < r.cap := by rw [length_tail]; omega
  rw [h.evictOldest_eq hne]
  exact ⟨⟨by simp only; omega, fun _ => rfl, fun hc => hc, rfl⟩, snapshot_of_lt hlt⟩

theorem Valid.trim {size : α → Nat} (need : Int) (h : Valid size r) :
    Valid size (r.trim size need) ∧
      (r.trim size need).snapshot = trimmed size r.maxBytes need r.snapshot ∧
      (r.trim size need).cap = r.cap ∧ (r.trim size need).maxBytes = r.maxBytes := by
  -- induction on the number of entries left, one of which goes in each round
  suffices hloop : ∀ (n : Nat) (r : RingBuffer α), r.buf.length = n → Valid size r →
      Valid size (trimLoop size need n r) ∧
        (trimLoop size need n r).snapshot = trimmed size r.maxBytes need r.snapshot ∧
        (trimLoop size need n r).cap = r.cap ∧
        (trimLoop size need n r).maxBytes = r.maxBytes from hloop _ r rfl h
  intro n
  induction n with
  | zero =>
    intro r hn hv
    have hs : r.snapshot = [] := by
      rw [← length_eq_zero_iff, hv.snapshot_length, hn]
    refine ⟨hv, ?_, rfl, rfl⟩
    simp only [trimLoop, hs, trimmed, dropUntilFits, ite_self]
  | succ n ih =>
    intro r hn hv
    have hne : r.buf ≠ [] := by rw [← length_pos_iff]; omega
    obtain ⟨x, xs, hx⟩ : ∃ x xs, r.snapshot = x :: xs := by
      apply exists_cons_of_ne_nil
      rw [← length_pos_iff, hv.snapshot_length]
      omega
    have htot := hv.snapshot_total
    simp only [trimLoop]
    by_cases hc : 0 < r.maxBytes ∧ 0 < r.buf.length ∧ r.maxBytes < r.bytes + need
    · -- over budget: one round of eviction, then the induction hypothesis
      obtain ⟨hv', hs'⟩ := hv.evictOldest hne
      have hlen' : (r.evictOldest size).buf.length = n := by
        rw [← hv'.snapshot_length, hs', length_tail, hv.snapshot_length]; omega
      have hcap : (r.evictOldest size).cap = r.cap := by rw [hv.evictOldest_eq hne]
      have hmax : (r.evictOldest size).maxBytes = r.maxBytes := by rw [hv.evictOldest_eq hne]
      obtain ⟨ih1, ih2, ih3, ih4⟩ := ih _ hlen' hv'
      rw [if_pos hc]
      refine ⟨ih1, ?_, by rw [ih3, hcap], by rw [ih4, hmax]⟩
      rw [ih2, hs', hmax, hx]
      rw [hx] at htot
      simp only [trimmed, if_pos hc.1, tail_cons, dropUntilFits]
      rw [if_pos (by omega)]
    · rw [if_neg hc]
      refine ⟨hv, ?_, rfl, rfl⟩
      rw [hx] at htot ⊢
      unfold trimmed
      split
      · next hmax =>
        simp only [dropUntilFits]
        rw [if_neg (by intro hlt; exact hc ⟨hmax, by omega, by omega⟩)]
      · rfl

theorem exists_slot (a : α) (h : i < l.length) :
    ∃ p x q, l = p ++ x :: q ∧ p.length = i ∧ l.set i a = p ++ a :: q ∧ l[i]? = some x := by
  obtain ⟨p, q, hl, hp, hset⟩ : ∃ p q, l = p ++ l[i] :: q ∧ p.length = i ∧
      l.set i a = p ++ a :: q := exists_of_set h
  exact ⟨p, l[i], q, hl, hp, hset, getElem?_eq_getElem h⟩

theorem rotate_set_succ (a : α) (h : i < l.length) :
    (l.set i a).rotate (i + 1) = (l.rotate i).tail ++ [a] := by
  obtain ⟨p, x, q, rfl, rfl, hset, -⟩ := exists_slot a h
  have hsplit : p ++ a :: q = (p ++ [a]) ++ q := by simp
  have hlen : p.length + 1 = (p ++ [a]).length := by simp
  rw [hset, rotate_append_length_eq, hsplit, hlen, rotate_append_length_eq]
  simp

theorem total_set (a : α) (h : i < l.length) :
    total size (l.set i a) = total size l - (l[i]?).elim 0 size + size a := by
  obtain ⟨p, x, q, hl, -, hset, hget⟩ := exists_slot a h
  rw [hset, hget, hl]
  simp only [total_append, total_cons, Option.elim_some]
  omega

theorem Valid.extend {size : α → Nat} (h : Valid size r) (hlt : r.buf.length < r.cap) (a : α) :
    Valid size { r with buf := r.buf ++ [a], bytes := r.bytes + size a } ∧
      ({ r with buf := r.buf ++ [a], bytes := r.bytes + size a } : RingBuffer α).snapshot =
        r.snapshot ++ [a] := by
  have hz := h.head_zero hlt
  have hv : Valid size { r with buf := r.buf ++ [a], bytes := r.bytes + size a } := by
    refine ⟨?_, fun _ => hz, h.head_lt, ?_⟩
    · simp only [length_append, length_singleton]
      omega
    · simp only [total_append, total_cons, total_nil, h.bytes_eq]
      omega
  refine ⟨hv, ?_⟩
  rw [hv.snapshot_eq]
  simp only [hz, rotate_zero, snapshot_of_lt hlt]

theorem Valid.overwrite {size : α → Nat} (h : Valid size r) (hfull : r.buf.length = r.cap)
    (hcap : 0 < r.cap) (a : α) {r'} (hr' : r' = { r with
      buf := r.buf.set r.head a
      bytes := r.bytes - (r.buf[r.head]?).elim 0 size + size a
      head := (r.head + 1) % r.cap }) : Valid size r' ∧ r'.snapshot = r.snapshot.tail ++ [a] := by
  have hhead : r.head < r.buf.length := hfull ▸ h.head_lt hcap
  have hv : Valid size r' := by
    rw [hr']
    refine ⟨by simpa using h.len_le, fun hlt => ?_, fun hpos => Nat.mod_lt _ hpos, ?_⟩
    · exact absurd (by simpa using hlt) (Nat.not_lt.mpr hfull.ge)
    · simp only [total_set size a hhead, h.bytes_eq]
  refine ⟨hv, ?_⟩
  have hlen : (r.buf.set r.head a).length = r.cap := by rw [length_set, hfull]
  rw [hv.snapshot_eq, h.snapshot_eq, hr']
  -- The head wraps around at the capacity, which rotating does not see.
  rw [← hlen, rotate_mod, rotate_set_succ a hhead]

/-- **Refinement**: `append` pushes onto the window. -/
theorem Valid.append {size : α → Nat} (h : Valid size r) (hcap : 0 < r.cap) (a : α) :
    Valid size (r.append size a) ∧
      (r.append size a).snapshot = push size r.cap r.maxBytes r.snapshot a ∧
      (r.append size a).cap = r.cap ∧ (r.append size a).maxBytes = r.maxBytes := by
  obtain ⟨hv, hs, hc, hm⟩ := h.trim (size a)
  have hlen := hv.snapshot_length
  have hle := hv.len_le
  unfold RingBuffer.append
  rw [if_neg (by omega)]
  simp only [push, ← hs]
  -- From here on only the trimmed ring matters.
  generalize r.trim size (size a) = t at hv hs hc hm hlen hle ⊢
  by_cases hlt : t.buf.length < t.cap
  · rw [if_pos hlt, if_pos (by omega)]
    obtain ⟨hv', hs'⟩ := hv.extend hlt a
    exact ⟨hv', hs', hc, hm⟩
  · rw [if_neg hlt, if_neg (by omega)]
    obtain ⟨hv', hs'⟩ := hv.overwrite (by omega) (by omega) a rfl
    exact ⟨hv', hs', hc, hm⟩

/-! ## The window as a bounded suffix -/

/-- A single entry is kept whatever its size. -/
def Within (cap : Nat) (maxBytes : Int) (w : List α) : Prop :=
  w.length ≤ cap ∧ (0 < maxBytes → total size w ≤ maxBytes ∨ w.length = 1)

def Longest (cap : Nat) (maxBytes : Int) (hist w : List α) : Prop :=
  (w <:+ hist ∧ Within size cap maxBytes w) ∧
    ∀ v, v <:+ hist → Within size cap maxBytes v → v.length ≤ w.length

theorem within_nil (cap : Nat) (maxBytes : Int) : Within size cap maxBytes ([] : List α) :=
  ⟨Nat.zero_le _, fun h => .inl (Int.le_of_lt h)⟩

theorem longest_nil (cap : Nat) (maxBytes : Int) : Longest size cap maxBytes [] ([] : List α) :=
  ⟨⟨suffix_rfl, within_nil size cap maxBytes⟩, fun _ hv _ => hv.length_le⟩

theorem total_le_of_suffix {m} (h : l <:+ m) : total size l ≤ total size m := by
  obtain ⟨d, rfl⟩ := h
  have := total_nonneg size d
  rw [total_append]
  omega

theorem trimmed_fits (hmax : 0 < maxBytes) (need : Int) (w : List α) :
    trimmed size maxBytes need w = [] ∨
      total size (trimmed size maxBytes need w) + need ≤ maxBytes := by
  unfold trimmed
  rw [if_pos hmax]
  induction w with
  | nil => exact .inl rfl
  | cons a l ih =>
    unfold dropUntilFits
    split
    · exact ih
    · next hfit => exact .inr (by omega)

theorem suffix_trimmed {need u} (hu : u <:+ w)
    (hfit : 0 < maxBytes → total size u + need ≤ maxBytes) :
    u <:+ trimmed size maxBytes need w := by
  unfold trimmed
  split
  · next hmax =>
    have hfit := hfit hmax
    induction w with
    | nil => exact hu
    | cons a l ih =>
      unfold dropUntilFits
      split
      · next hover =>
        -- `u` is not the whole list, which does not fit
        rcases suffix_cons_iff.mp hu with rfl | hu
        · omega
        · exact ih hu
      · exact hu
  · exact hu

theorem push_within {cap} (hcap : 0 < cap) (hlen : w.length ≤ cap) (a : α) :
    Within size cap maxBytes (push size cap maxBytes w a) := by
  have htrim := (trimmed_suffix size maxBytes (size a) w).length_le
  have hfits := fun hmax : 0 < maxBytes => trimmed_fits size hmax (size a) w
  simp only [push]
  generalize trimmed size maxBytes (size a) w = t at htrim hfits ⊢
  have hkept : (if t.length < cap then t else t.tail) <:+ t := by
    split
    · exact suffix_rfl
    · exact tail_suffix t
  have hroom : (if t.length < cap then t else t.tail).length + 1 ≤ cap := by
    split
    · omega
    · rw [length_tail]; omega
  generalize (if t.length < cap then t else t.tail) = k at hkept hroom ⊢
  refine ⟨by simpa using hroom, fun hmax => ?_⟩
  rcases hfits hmax with hnil | hfit
  · right
    have hk : k = [] := suffix_nil.mp (hnil ▸ hkept)
    simp [hk]
  · left
    have := total_le_of_suffix size hkept
    simp only [total_append, total_cons, total_nil]
    omega

theorem Longest.push {size : α → Nat} {cap} (h : Longest size cap maxBytes hist w) (hcap : 0 < cap)
    (a : α) : Longest size cap maxBytes (hist ++ [a]) (push size cap maxBytes w a) := by
  obtain ⟨⟨⟨d, hd⟩, hlen, -⟩, hmax⟩ := h
  refine ⟨⟨?_, push_within size hcap hlen a⟩, ?_⟩
  · exact (push_suffix size cap maxBytes w a).trans ⟨d, by rw [← append_assoc, hd]⟩
  intro v hv hwithin
  -- A suffix that is not empty ends with the new entry.
  rcases eq_nil_or_concat' v with rfl | ⟨u, b, rfl⟩
  · exact Nat.zero_le _
  obtain ⟨c, hc⟩ := hv
  rw [← append_assoc] at hc
  obtain ⟨hcu, hab⟩ := append_inj' hc rfl
  obtain rfl : b = a := singleton_inj.mp hab
  obtain ⟨hulen, hubytes⟩ := hwithin
  have hulen : u.length + 1 ≤ cap := by simpa using hulen
  -- Before the new entry it was within the limits as well.
  have hfit : u ≠ [] → 0 < maxBytes → total size u + size b ≤ maxBytes := by
    intro hu hpos
    have := length_pos_iff.mpr hu
    rcases hubytes hpos with h | h
    · simpa using h
    · simp only [length_append, length_singleton] at h; omega
  have huw : u.length ≤ w.length := by
    by_cases hu : u = []
    · rw [hu]; exact Nat.zero_le _
    · refine hmax u ⟨c, hcu⟩ ⟨by omega, fun hpos => .inl ?_⟩
      have := hfit hu hpos
      omega
  have hkept : u.length ≤ (trimmed size maxBytes (size b) w).length := by
    by_cases hu : u = []
    · rw [hu]; exact Nat.zero_le _
    · have hsuf : u <:+ w := suffix_of_suffix_length_le ⟨c, hcu⟩ ⟨d, hd⟩ huw
      exact (suffix_trimmed size hsuf (hfit hu)).length_le
  simp only [RingBuffer.push, length_append, length_singleton]
  split
  · omega
  · rw [length_tail]; omega

/-- The entries are the newest of `hist`, within the limits. -/
structure Window (r : RingBuffer α) (hist : List α) : Prop where
  valid : Valid size r
  suffix : r.snapshot <:+ hist
  within : Within size r.cap r.maxBytes r.snapshot

theorem Window.empty (cap : Nat) (maxBytes : Int) (hist : List α) :
    Window size (RingBuffer.empty cap maxBytes) hist where
  valid := ⟨Nat.zero_le _, fun _ => rfl, fun h => h, rfl⟩
  suffix := by rw [snapshot_of_nil rfl]; exact nil_suffix
  within := by rw [snapshot_of_nil rfl]; exact within_nil size _ _

theorem Window.mono {size : α → Nat} {hist'} (h : Window size r hist) (hle : hist <:+ hist') :
    Window size r hist' :=
  ⟨h.valid, h.suffix.trans hle, h.within⟩

theorem Window.append {size : α → Nat} (h : Window size r hist) (a : α) :
    Window size (r.append size a) (hist ++ [a]) ∧
      (r.append size a).cap = r.cap ∧ (r.append size a).maxBytes = r.maxBytes := by
  rcases Nat.eq_zero_or_pos r.cap with hzero | hcap
  · have hr : r.append size a = r := if_pos hzero
    have hnil : r.snapshot = [] := eq_nil_of_length_eq_zero (by
      have := h.within.1
      omega)
    refine ⟨?_, by rw [hr], by rw [hr]⟩
    rw [hr]
    exact ⟨h.valid, hnil ▸ nil_suffix, h.within⟩
  · obtain ⟨hv, hs, hc, hm⟩ := h.valid.append hcap a
    obtain ⟨d, hd⟩ := h.suffix
    refine ⟨⟨hv, ?_, ?_⟩, hc, hm⟩
    · rw [hs]
      exact (push_suffix size _ _ _ a).trans ⟨d, by rw [← append_assoc, hd]⟩
    · rw [hs, hc, hm]
      exact push_within size hcap h.within.1 a

theorem Window.append_longest {size : α → Nat}
    (h : Window size r hist) (hl : Longest size r.cap r.maxBytes hist r.snapshot) (a : α) :
    Longest size r.cap r.maxBytes (hist ++ [a]) (r.append size a).snapshot := by
  rcases Nat.eq_zero_or_pos r.cap with hzero | hcap
  · -- no slots: nothing but the empty suffix is allowed
    obtain ⟨hw, hc, hm⟩ := h.append a
    refine ⟨⟨hw.suffix, ?_⟩, fun v _ hv => ?_⟩
    · have := hw.within
      rwa [hc, hm] at this
    · have := hv.1
      omega
  · rw [(h.valid.append hcap a).2.1]
    exact hl.push hcap a

theorem Window.refill {size : α → Nat} (l : List α) (h : Window size r hist) :
    Window size (l.foldl (RingBuffer.append size) r) (hist ++ l) ∧
      (l.foldl (RingBuffer.append size) r).cap = r.cap ∧
      (l.foldl (RingBuffer.append size) r).maxBytes = r.maxBytes := by
  induction l generalizing r hist with
  | nil =>
    rw [append_nil]
    exact ⟨h, rfl, rfl⟩
  | cons a l ih =>
    obtain ⟨ha, hc, hm⟩ := h.append a
    obtain ⟨hl, hlc, hlm⟩ := ih ha
    refine ⟨?_, hlc.trans hc, hlm.trans hm⟩
    rwa [append_assoc, singleton_append] at hl

theorem Window.setMaxBytes {size : α → Nat} (h : Window size r hist) (maxBytes : Int) :
    Window size ({ r with maxBytes := maxBytes }.trim size 0) hist ∧
      ({ r with maxBytes := maxBytes }.trim size 0).cap = r.cap ∧
      ({ r with maxBytes := maxBytes }.trim size 0).maxBytes = maxBytes := by
  have hv : Valid size { r with maxBytes := maxBytes } :=
    ⟨h.valid.len_le, h.valid.head_zero, h.valid.head_lt, h.valid.bytes_eq⟩
  obtain ⟨hv', hs, hc, hm⟩ := hv.trim 0
  have hsuf := trimmed_suffix size maxBytes 0 r.snapshot
  refine ⟨⟨hv', ?_, ?_⟩, hc, hm⟩
  · rw [hs]
    exact hsuf.trans h.suffix
  · rw [hs, hc, hm]
    refine ⟨Nat.le_trans hsuf.length_le h.within.1, fun hpos => .inl ?_⟩
    show total size (trimmed size maxBytes 0 r.snapshot) ≤ maxBytes
    have hpos : 0 < maxBytes := hpos
    rcases trimmed_fits size hpos 0 r.snapshot with hnil | hfit
    · rw [hnil, total_nil]; exact Int.le_of_lt hpos
    · omega

end RingBuffer

import Mathlib.Data.List.DropRight
import QuicRTC.Framework.Slots

/-! # Bounded FIFO Channels

A buffered channel as a list with a capacity it never exceeds; the bound is a field. The
non-blocking operations are those of a `select` with a `default` branch, which is `none`. Sending on
a closed channel is a run-time error, not a result; no operation below reads `closed`.
-/

structure Chan (α : Type) where
  cap : Nat
  buf : List α
  closed : Bool
  len_le : buf.length ≤ cap

namespace Chan

open List

variable {α : Type}

/-! ## Operations -/

def make (cap : Nat) : Chan α where
  cap := cap
  buf := []
  closed := false
  len_le := Nat.zero_le _

def trySend (c : Chan α) (a : α) : Option (Chan α) :=
  if h : c.buf.length < c.cap then
    some { c with buf := c.buf ++ [a], len_le := by simp only [List.length_append, List.length_singleton]; omega }
  else none

def evictOldest (c : Chan α) : Chan α :=
  { c with
    buf := c.buf.tail
    len_le := by have := c.len_le; simp only [List.length_tail]; omega }

def tryRecv (c : Chan α) : Option (α × Chan α) :=
  match c.buf with
  | [] => none
  | a :: _ => some (a, c.evictOldest)

def sendEvicting (c : Chan α) (a : α) : Option (Chan α) :=
  match c.trySend a with
  | some c' => some c'
  | none => c.evictOldest.trySend a

def drained (c : Chan α) : Chan α :=
  { c with buf := [], len_le := Nat.zero_le _ }

/-- What is buffered can still be received. -/
def close (c : Chan α) : Chan α := { c with closed := true }

/-! ## What each operation does -/

@[simp] theorem make_buf (n : Nat) : (make n : Chan α).buf = [] := rfl
@[simp] theorem make_cap (n : Nat) : (make n : Chan α).cap = n := rfl
@[simp] theorem evictOldest_buf (c : Chan α) : c.evictOldest.buf = c.buf.tail := rfl
@[simp] theorem evictOldest_cap (c : Chan α) : c.evictOldest.cap = c.cap := rfl

variable {c : Chan α} {a : α}

theorem trySend_some {c'} (h : c.trySend a = some c') :
    c.buf.length < c.cap ∧ c'.buf = c.buf ++ [a] ∧ c'.cap = c.cap := by
  unfold trySend at h
  split at h
  · next hlt =>
    cases h
    exact ⟨hlt, rfl, rfl⟩
  · cases h

theorem trySend_none (h : c.trySend a = none) : c.buf.length = c.cap := by
  unfold trySend at h
  split at h
  · cases h
  · have := c.len_le
    omega

theorem trySend_of_lt (a : α) (h : c.buf.length < c.cap) :
    ∃ c', c.trySend a = some c' ∧ c'.buf = c.buf ++ [a] ∧ c'.cap = c.cap := by
  unfold trySend
  rw [dif_pos h]
  exact ⟨_, rfl, rfl, rfl⟩

theorem tryRecv_some {c'} (h : c.tryRecv = some (a, c')) :
    c.buf = a :: c'.buf ∧ c'.cap = c.cap := by
  unfold tryRecv at h
  split at h
  · cases h
  · next b rest hb =>
    obtain ⟨rfl, rfl⟩ := h
    simp [hb]

theorem tryRecv_eq_none_iff : c.tryRecv = none ↔ c.buf = [] := by
  unfold tryRecv
  split
  · next h => simp [h]
  · next h => simp [h]

theorem sendEvicting_buf (a : α) (hcap : 0 < c.cap) :
    ∃ c', c.sendEvicting a = some c' ∧ c'.cap = c.cap ∧
      c'.buf = (c.buf ++ [a]).rtake c.cap := by
  unfold sendEvicting
  rcases h : c.trySend a with _ | c'
  · -- full: the oldest entry makes room
    have hlen := trySend_none h
    have hlt : c.evictOldest.buf.length < c.evictOldest.cap := by
      simp only [evictOldest_buf, length_tail, evictOldest_cap]; omega
    obtain ⟨c', hs, hbuf, hc⟩ := trySend_of_lt a hlt
    refine ⟨c', by simpa using hs, hc, ?_⟩
    rw [hbuf, evictOldest_buf, rtake_eq_reverse_take_reverse]
    rcases hb : c.buf with _ | ⟨x, xs⟩
    · simp [hb] at hlen; omega
    · have hx : c.cap = xs.length + 1 := by rw [← hlen, hb]; simp
      simp [hx]
  · obtain ⟨hlt, hbuf, hc⟩ := trySend_some h
    refine ⟨c', rfl, hc, ?_⟩
    rw [hbuf, rtake]
    have : (c.buf ++ [a]).length - c.cap = 0 := by simp; omega
    rw [this, drop_zero]

/-! ## Filling a channel from a list -/

theorem rtake_append_rtake (n : Nat) (l m : List α) :
    (l.rtake n ++ m).rtake n = (l ++ m).rtake n := by
  unfold rtake
  rw [drop_append, drop_append, drop_drop]
  simp only [length_append, length_drop]
  congr 2 <;> omega

theorem rtake_of_length_le {n} {l : List α} (h : l.length ≤ n) : l.rtake n = l := by
  unfold rtake
  rw [Nat.sub_eq_zero_of_le h, drop_zero]

/-- Room is made as needed; `false`: an entry was lost even so. -/
def fill (c : Chan α) : List α → Chan α × Bool
  | [] => (c, true)
  | a :: rest =>
    match c.sendEvicting a with
    | some c' => c'.fill rest
    | none => (c.evictOldest, false)

theorem fill_spec (hcap : 0 < c.cap) (l : List α) :
    (c.fill l).2 = true ∧ (c.fill l).1.cap = c.cap ∧
      (c.fill l).1.buf = (c.buf ++ l).rtake c.cap := by
  induction l generalizing c with
  | nil =>
    refine ⟨rfl, rfl, ?_⟩
    rw [append_nil, rtake_of_length_le c.len_le]
    rfl
  | cons a rest ih =>
    obtain ⟨c', hs, hc, hbuf⟩ := sendEvicting_buf a hcap
    have ih' := ih (c := c') (by omega)
    simp only [fill, hs]
    rw [hc, hbuf, rtake_append_rtake, append_assoc] at ih'
    exact ih'

end Chan

/-- With what has gone in and what has come out. -/
structure LoggedChan (α : Type) extends Chan α where
  sent : List α
  got : List α
  fifo : sent = got ++ buf

namespace LoggedChan

variable {α : Type}

def make (cap : Nat) : LoggedChan α where
  toChan := Chan.make cap
  sent := []
  got := []
  fifo := rfl

def trySend (c : LoggedChan α) (a : α) : Option (LoggedChan α) :=
  match h : c.toChan.trySend a with
  | none => none
  | some d => some
      { toChan := d
        sent := c.sent ++ [a]
        got := c.got
        fifo := by rw [(Chan.trySend_some h).2.1, c.fifo, List.append_assoc] }

def tryRecv (c : LoggedChan α) : Option (α × LoggedChan α) :=
  match h : c.toChan.tryRecv with
  | none => none
  | some (a, d) => some (a,
      { toChan := d
        sent := c.sent
        got := c.got ++ [a]
        fifo := by rw [c.fifo, (Chan.tryRecv_some h).1, List.append_assoc]; rfl })

variable {c : LoggedChan α}

theorem trySend_spec {c'} {a : α} (h : c.trySend a = some c') :
    c'.buf = c.buf ++ [a] ∧ c'.sent = c.sent ++ [a] ∧ c'.got = c.got := by
  unfold trySend at h
  split at h
  · cases h
  · next hsend =>
    cases h
    exact ⟨(Chan.trySend_some hsend).2.1, rfl, rfl⟩

theorem tryRecv_spec {c'} {a : α} (h : c.tryRecv = some (a, c')) :
    c.buf = a :: c'.buf ∧ c'.sent = c.sent ∧ c'.got = c.got ++ [a] := by
  unfold tryRecv at h
  split at h
  · cases h
  · next hrecv =>
    cases h
    exact ⟨(Chan.tryRecv_some hrecv).1, rfl, rfl⟩

theorem tryRecv_eq_none_iff : c.tryRecv = none ↔ c.buf = [] := by
  unfold tryRecv
  split
  · next h => simpa [Chan.tryRecv_eq_none_iff] using h
  · next h => simp [(Chan.tryRecv_some h).1]

theorem got_eq_sent (h : c.buf = []) : c.got = c.sent := by
  rw [c.fifo, h, List.append_nil]

theorem got_prefix (c : LoggedChan α) : c.got <+: c.sent := by
  rw [c.fifo]
  exact List.prefix_append _ _

end LoggedChan

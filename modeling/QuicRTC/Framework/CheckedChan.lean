import QuicRTC.Framework.Chan

/-! # Channel Operations that can go wrong

With the run-time behaviour the operations of `Chan` leave out: a send on a closed channel and a
second close are panics, a plain send into a full channel blocks, and receiving until a closed
channel has nothing more to give never ends.
-/

inductive ChanFault where
  | sendOnClosed
  | closeOfClosed
  /-- The goroutine is suspended in the operation. -/
  | blocked
  /-- A loop that receives until the channel is empty does not end. -/
  | spins
  deriving DecidableEq

namespace Chan

variable {α : Type}

/-! ## Operations -/

/-- `ch <- a` outside of a `select`. -/
def send (c : Chan α) (a : α) : Except ChanFault (Chan α) :=
  if c.closed then .error .sendOnClosed
  else
    match c.trySend a with
    | some c' => .ok c'
    | none => .error .blocked

/-- `select` with a `default`, which is `none`. A send on a closed channel is ready and
    panics. -/
def selectSend (c : Chan α) (a : α) : Except ChanFault (Option (Chan α)) :=
  if c.closed then .error .sendOnClosed else .ok (c.trySend a)

/-- A loop of `select`s until the `default`. -/
def drain (c : Chan α) : Except ChanFault (List α × Chan α) :=
  -- A closed channel yields zero values for ever.
  if c.closed then .error .spins else .ok (c.buf, c.drained)

def closeOnce (c : Chan α) : Except ChanFault (Chan α) :=
  if c.closed then .error .closeOfClosed else .ok c.close

def selectFill (c : Chan α) : List α → Except ChanFault (Chan α × Bool)
  | [] => .ok (c, true)
  | a :: rest => do
    match ← c.selectSend a with
    | some c' => c'.selectFill rest
    | none =>
      match ← c.evictOldest.selectSend a with
      | some c' => c'.selectFill rest
      | none => .ok (c.evictOldest, false)

/-! ## Open channels -/


variable {c : Chan α}

theorem trySend_closed {c'} {a : α} (h : c.trySend a = some c') : c'.closed = c.closed := by
  unfold trySend at h
  split at h
  · cases h; rfl
  · cases h

theorem tryRecv_closed {c'} {a : α} (h : c.tryRecv = some (a, c')) : c'.closed = c.closed := by
  unfold tryRecv at h
  split at h
  · cases h
  · cases h; rfl

theorem selectSend_of_open (h : c.closed = false) (a : α) : c.selectSend a = .ok (c.trySend a) := by
  simp [selectSend, h]

theorem drain_of_open (h : c.closed = false) : c.drain = .ok (c.buf, c.drained) := by
  simp [drain, h]

theorem closeOnce_of_open (h : c.closed = false) : c.closeOnce = .ok c.close := by
  simp [closeOnce, h]

theorem send_of_lt (h : c.closed = false) (hlt : c.buf.length < c.cap) (a : α) :
    ∃ c', c.send a = .ok c' ∧ c.trySend a = some c' := by
  obtain ⟨c', hc, -⟩ := trySend_of_lt a hlt
  exact ⟨c', by simp [send, h, hc], hc⟩

theorem selectFill_of_open (h : c.closed = false) (l : List α) :
    c.selectFill l = .ok (c.fill l) ∧ (c.fill l).1.closed = false := by
  induction l generalizing c with
  | nil => exact ⟨rfl, h⟩
  | cons a rest ih =>
    have hevict : c.evictOldest.closed = false := h
    simp only [selectFill, selectSend_of_open h, selectSend_of_open hevict, fill, sendEvicting]
    rcases hs : c.trySend a with _ | c'
    · rcases he : c.evictOldest.trySend a with _ | c'
      · exact ⟨rfl, hevict⟩
      · exact ih ((trySend_closed he).trans hevict)
    · exact ih ((trySend_closed hs).trans h)

end Chan

import QuicRTC.Framework.CheckedChan
import QuicRTC.Framework.System

/-! # The Data Channel

`datachannel/datachannel.go`. `Deliver` and `Close` exclude each other by `deliverMu`, so nothing is
sent on a closed channel; `Recv` takes no lock and selects among what is ready. While messages are
buffered, a closed channel gives `Recv` both.
-/

namespace QuicRTC

open LTS List Slots

/-- With what it does next. -/
inductive Holder where
  | free
  | checking (msg : List UInt8)
  | sending (msg : List UInt8)
  | closing
  | closingIn
deriving DecidableEq

/-- On its way into the queue. -/
def Holder.msg : Holder → List (List UInt8)
  | .checking msg => [msg]
  | .sending msg => [msg]
  | _ => []

inductive ChannelRecv where
  | message (msg : List UInt8)
  | eof
  | ctxErr
deriving DecidableEq

def ChannelRecv.message? : ChannelRecv → Option (List UInt8)
  | .message msg => some msg
  | _ => none

/-- The last two fields are history: the messages given to `Deliver`, in the order of the
    lock, and the results of `Recv`. -/
structure DataChannel where
  inCh : Chan (List UInt8)
  closed : Chan Unit
  /-- `closeOnce` was used. -/
  once : Bool
  holder : Holder
  delivered : List (List UInt8)
  results : List ChannelRecv

namespace DataChannel

def new (inboundBuffer : Int) : DataChannel where
  inCh := Chan.make (if inboundBuffer ≤ 0 then 64 else inboundBuffer.toNat)
  closed := Chan.make 0
  once := false
  holder := .free
  delivered := []
  results := []

inductive Label where
  /-- It gets the lock, looks at `closed`, and sends. -/
  | deliver (msg : List UInt8)
  | check
  | send
  /-- The first one gets the lock and closes the two channels. -/
  | close
  | closeClosed
  | closeIn
  /-- The three cases of `Recv`. -/
  | recvIn
  | recvClosed
  | recvDone

def answer (c : DataChannel) (r : ChannelRecv) : DataChannel := { c with results := c.results ++ [r] }

def step (c : DataChannel) : Label → Option (Except ChanFault DataChannel)
  | .deliver msg =>
    if c.holder = .free then
      some (.ok { c with holder := .checking msg, delivered := c.delivered ++ [msg] })
    else none
  | .check =>
    match c.holder with
    | .checking msg =>
      some (.ok { c with holder := if c.closed.closed then .free else .sending msg })
    | _ => none
  | .send =>
    match c.holder with
    | .sending msg =>
      -- a full queue drops the message
      some ((c.inCh.selectSend msg).map (fun r => { c with inCh := r.getD c.inCh, holder := .free }))
    | _ => none
  | .close =>
    if c.once = false ∧ c.holder = .free then some (.ok { c with once := true, holder := .closing })
    else none
  | .closeClosed =>
    match c.holder with
    | .closing => some (c.closed.closeOnce.map (fun ch => { c with closed := ch, holder := .closingIn }))
    | _ => none
  | .closeIn =>
    match c.holder with
    | .closingIn => some (c.inCh.closeOnce.map (fun ch => { c with inCh := ch, holder := .free }))
    | _ => none
  | .recvIn =>
    match c.inCh.tryRecv with
    | some (msg, ch) => some (.ok ({ c with inCh := ch }.answer (.message msg)))
    | none => if c.inCh.closed then some (.ok (c.answer .eof)) else none
  | .recvClosed => if c.closed.closed then some (.ok (c.answer .eof)) else none
  | .recvDone => some (.ok (c.answer .ctxErr))

def next : Except ChanFault DataChannel → Label → Option (Except ChanFault DataChannel)
  | .ok c, l => c.step l
  | .error _, _ => none

def returned (c : DataChannel) : List (List UInt8) := c.results.filterMap ChannelRecv.message?

def CloseEmpty : Except ChanFault DataChannel → Label → Prop
  | .ok c, .closeClosed => c.inCh.buf = []
  | _, _ => True

/-! ## The invariant -/

/-- `closed` is closed by the one `Close`, and `in` right after it. -/
def Stage (c : DataChannel) : Prop :=
  match c.holder with
  | .closing => c.once = true ∧ c.closed.closed = false ∧ c.inCh.closed = false
  | .closingIn => c.once = true ∧ c.closed.closed = true ∧ c.inCh.closed = false
  | .sending _ => c.once = false ∧ c.closed.closed = false ∧ c.inCh.closed = false
  | _ => c.closed.closed = c.once ∧ c.inCh.closed = c.once

structure Ok (c : DataChannel) : Prop where
  stage : c.Stage
  order : (c.returned ++ c.inCh.buf ++ c.holder.msg).Sublist c.delivered
  drained : c.closed.closed = true → c.inCh.buf = []
  ended : .eof ∈ c.results → c.closed.closed = true
  final : c.results.Pairwise (fun a b => a = .eof → b.message? = none)

namespace Ok

variable {c : DataChannel}

theorem answer (h : c.Ok) {r : ChannelRecv} (hr : r.message? = none)
    (heof : r = .eof → c.closed.closed = true) : (c.answer r).Ok where
  stage := h.stage
  order := by
    have hsame : (c.answer r).returned = c.returned := by
      simp [returned, DataChannel.answer, filterMap_append, hr]
    rw [hsame]
    exact h.order
  drained := h.drained
  ended := by
    intro hm
    rcases mem_snoc hm with hold | hnew
    · exact h.ended hold
    · exact heof hnew.symm
  final := pairwise_snoc h.final (fun _ _ _ => hr)

theorem recvIn (h : c.Ok) {msg ch} (hrecv : c.inCh.tryRecv = some (msg, ch)) :
    ({ c with inCh := ch }.answer (.message msg)).Ok := by
  obtain ⟨hbuf, -⟩ := Chan.tryRecv_some hrecv
  have hclosed := Chan.tryRecv_closed hrecv
  -- the queue is not empty, so the channel is not closed
  have hopen : c.closed.closed = false := by
    rw [← Bool.not_eq_true]
    intro hc
    rw [h.drained hc] at hbuf
    cases hbuf
  refine ⟨?_, ?_, fun hc => absurd (hopen.symm.trans hc) Bool.false_ne_true, ?_, ?_⟩
  · have hstage := h.stage
    simp only [Stage, DataChannel.answer, hclosed] at hstage ⊢
    exact hstage
  · have horder := h.order
    rw [hbuf] at horder
    simpa [returned, DataChannel.answer, filterMap_append, ChannelRecv.message?] using horder
  · intro hm
    rcases mem_snoc hm with hold | hnew
    · exact h.ended hold
    · cases hnew
  · refine pairwise_snoc h.final (fun a ha heof => ?_)
    exact absurd (h.ended (heof ▸ ha)) (by rw [hopen]; exact Bool.false_ne_true)

/-- The message on its way is dropped. -/
theorem order_dropped (h : c.Ok) : (c.returned ++ c.inCh.buf ++ []).Sublist c.delivered :=
  ((nil_sublist c.holder.msg).append_left _).trans h.order

/-- **The step lemma.** -/
theorem step (h : c.Ok) {l} (hok : CloseEmpty (.ok c) l) {x} :
    c.step l = some x → ∃ c', x = .ok c' ∧ c'.Ok := by
  have hstage := h.stage
  have horder := h.order
  fun_cases c.step l <;> intro hstep <;> cases hstep
  · next msg hfree =>
    simp only [Stage, hfree, Holder.msg, append_nil] at hstage horder
    exact ⟨_, rfl, { h with stage := hstage, order := horder.append (.refl [msg]) }⟩
  · next msg hholder =>
    refine ⟨_, rfl, { h with stage := ?_, order := ?_ }⟩
    · simp only [Stage, hholder] at hstage ⊢
      cases hc : c.closed.closed
      · rw [hc] at hstage
        exact ⟨hstage.1.symm, rfl, hstage.2.trans hstage.1.symm⟩
      · rw [hc] at hstage
        exact hstage
    · simp only [hholder] at horder ⊢
      split
      · exact h.order_dropped
      · exact horder
  · next msg hholder =>
    simp only [Stage, hholder, Holder.msg] at hstage horder
    have hopen : c.inCh.closed = c.once := hstage.2.2.trans hstage.1.symm
    refine ⟨_, congrArg _ (Chan.selectSend_of_open hstage.2.2 msg), ?_⟩
    cases hsend : c.inCh.trySend msg with
    | none => exact { h with stage := ⟨hstage.2.1.trans hstage.1.symm, hopen⟩, order := h.order_dropped }
    | some ch =>
      refine { h with
        stage := ⟨hstage.2.1.trans hstage.1.symm, (Chan.trySend_closed hsend).trans hopen⟩
        order := ?_
        drained := fun hc => absurd (hstage.2.1.symm.trans hc) Bool.false_ne_true }
      show (c.returned ++ ch.buf ++ []).Sublist c.delivered
      rw [(Chan.trySend_some hsend).2.1, append_nil, ← append_assoc]
      exact horder
  · next hidle =>
    simp only [Stage, hidle.1, hidle.2] at hstage horder
    exact ⟨_, rfl, { h with stage := ⟨rfl, hstage⟩, order := horder }⟩
  · next hholder =>
    simp only [Stage, hholder] at hstage horder
    exact ⟨_, congrArg _ (Chan.closeOnce_of_open hstage.2.1), { h with
      stage := ⟨hstage.1, rfl, hstage.2.2⟩
      order := horder
      drained := fun _ => hok
      ended := fun _ => rfl }⟩
  · next hholder =>
    simp only [Stage, hholder] at hstage horder
    exact ⟨_, congrArg _ (Chan.closeOnce_of_open hstage.2.2), { h with
      stage := ⟨hstage.2.1.trans hstage.1.symm, hstage.1.symm⟩
      order := horder }⟩
  · next hrecv => exact ⟨_, rfl, h.recvIn hrecv⟩
  · next hin =>
    refine ⟨_, rfl, h.answer rfl (fun _ => ?_)⟩
    -- `in` is closed after `closed`
    cases hholder : c.holder <;> simp_all [Stage]
  · next hc => exact ⟨_, rfl, h.answer rfl (fun _ => hc)⟩
  · exact ⟨_, rfl, h.answer rfl nofun⟩

end Ok

/-- **Delivery.** If the channel is closed with an empty queue, no operation faults,
    messages are returned in the order of delivery, and none after an EOF. -/
theorem delivery_final (inboundBuffer : Int) :
    ∀ x, Reachable ((ofFun (.ok (new inboundBuffer)) next).restrict CloseEmpty) x →
      ∃ c, x = .ok c ∧ c.returned.Sublist c.delivered ∧
        c.results.Pairwise (fun a b => a = .eof → b.message? = none) := by
  have hinv : ∀ x, Reachable ((ofFun (.ok (new inboundBuffer)) next).restrict CloseEmpty) x →
      ∃ c, x = .ok c ∧ c.Ok := by
    refine invariant_restrict _ ⟨_, rfl, ⟨rfl, rfl⟩, .refl _, nofun, nofun, .nil⟩ ?_
    rintro _ l x - ⟨c, rfl, h⟩ hok hstep
    exact h.step hok hstep
  intro x hx
  obtain ⟨c, rfl, h⟩ := hinv x hx
  exact ⟨c, rfl, ((sublist_append_left _ _).trans (sublist_append_left _ _)).trans h.order, h.final⟩

theorem delivery_final_closed :
    ∃ c, Reachable ((ofFun (.ok (new 1)) next).restrict CloseEmpty) (.ok c) ∧
      c.results = [.message [7], .eof] ∧ c.returned.Sublist c.delivered ∧
      c.results.Pairwise (fun a b => a = .eof → b.message? = none) := by
  have hreach : Reachable ((ofFun (.ok (new 1)) next).restrict CloseEmpty) _ :=
    .step .recvClosed (.step .closeClosed (.step .close
      (.step .recvIn (.step .send (.step .check (.step (.deliver [7]) (.init rfl) ⟨trivial, rfl⟩)
      ⟨trivial, rfl⟩) ⟨trivial, rfl⟩) ⟨trivial, rfl⟩) ⟨trivial, rfl⟩) ⟨rfl, rfl⟩) ⟨trivial, rfl⟩
  obtain ⟨c, hc, h⟩ := delivery_final 1 _ hreach
  exact ⟨c, hc ▸ hreach, by cases hc; rfl, h⟩

/-- A queued message may be returned after an EOF. -/
theorem message_after_eof : ∃ x, Reachable (ofFun (.ok (new 1)) next) x ∧
    x.toOption.any (fun c => c.results = [.eof, .message [7]]) = true :=
  exists_run [.deliver [7], .check, .send, .close, .closeClosed, .closeIn, .recvClosed, .recvIn]
    (by decide +kernel)

end DataChannel

end QuicRTC

import QuicRTC.Sdk.Client

/-! # Closing and Reconnecting in the TypeScript Client

The connection side of `QuicRTCClient` with its tasks: `doConnect` calls, control readers, armed
timers and one `close` of the application, which may come at any `await`. The error path and the
timer use the same `closed` flag, and `doConnect` and the CLOSE path do not look at it again.
-/

namespace QuicRTC.Sdk

open LTS List Option AList

/-! ## The connection -/

/-- Tasks are counted by the `await` they are at. -/
structure Connection where
  closed : Bool
  connected : Bool
  /-- `doConnect` calls under way. -/
  connecting : Nat
  /-- Control readers in `readControlFrame`. -/
  reading : Nat
  /-- Control readers in `close` on the error path. -/
  closing : Nat
  /-- Control readers in `teardownTransport`. -/
  tearing : Nat
  /-- The armed timers, and the one in the field. -/
  timers : List Nat
  reconnectTimer : Option Nat
  nextTimer : Nat
  currentRetry : Nat
  appClosed : Bool
deriving DecidableEq

namespace Connection

def scheduleReconnect (maxRetries : Nat) (c : Connection) : Connection :=
  if maxRetries ≤ c.currentRetry then c
  else { c with
    currentRetry := c.currentRetry + 1
    timers := c.nextTimer :: c.timers
    -- A timer that is already armed stays armed.
    reconnectTimer := some c.nextTimer
    nextTimer := c.nextTimer + 1 }

/-- Up to its first `await`, with `cancelReconnect`. -/
def close (c : Connection) : Connection :=
  if c.closed then c
  else { c with
    closed := true
    timers := c.timers.filter (fun t => c.reconnectTimer ≠ some t)
    reconnectTimer := none
    currentRetry := 0
    connected := false }

inductive ConnStep where
  | connect
  | connected
  | connectFails
  /-- The control stream fails, or brings an ERROR frame. -/
  | readError
  /-- A CLOSE frame is read. -/
  | serverClose
  /-- On the error path. -/
  | closeDone
  | tornDown
  | timer (t : Nat)
  | appClose
deriving DecidableEq

def next (reconnect : Bool) (maxRetries : Nat) (c : Connection) : ConnStep → Option Connection
  | .connect =>
    if c.closed then none
    else some { c with connecting := c.connecting + 1, connected := false, currentRetry := 0 }
  | .connected =>
    if 0 < c.connecting then
      some { c with
        connecting := c.connecting - 1, reading := c.reading + 1, connected := true, currentRetry := 0 }
    else none
  | .connectFails =>
    if 0 < c.connecting then
      let c' := { c with connecting := c.connecting - 1, connected := false }
      some (if reconnect && !c.closed then c'.scheduleReconnect maxRetries else c')
    else none
  | .readError =>
    if 0 < c.reading then
      let c' := { c with reading := c.reading - 1 }
      some (if c.closed then c' else { c'.close with closing := c.closing + 1 })
    else none
  | .serverClose =>
    -- The flag was last looked at before the read.
    if 0 < c.reading then
      let c' := { c with reading := c.reading - 1 }
      some (if reconnect then { c' with tearing := c.tearing + 1 } else c'.close)
    else none
  | .closeDone =>
    if 0 < c.closing then
      let c' := { c with closing := c.closing - 1 }
      some (if reconnect then c'.scheduleReconnect maxRetries else c')
    else none
  | .tornDown =>
    if 0 < c.tearing then
      some ({ c with tearing := c.tearing - 1, connected := false }.scheduleReconnect maxRetries)
    else none
  | .timer t =>
    if t ∈ c.timers then
      some { c with
        timers := c.timers.erase t, closed := false, connected := false, connecting := c.connecting + 1 }
    else none
  | .appClose => if c.appClosed then none else some { c.close with appClosed := true }

def start : Connection := ⟨false, false, 0, 0, 0, 0, [], none, 0, 0, false⟩

def connectionSystem (reconnect : Bool) (maxRetries : Nat) : System Connection ConnStep :=
  ofFun start (next reconnect maxRetries)

/-! ## `close` is final -/

/-- `close` is called when nothing that connects is under way, and no CLOSE frame is read
    after it. -/
def calm (c : Connection) : ConnStep → Bool
  | .appClose =>
    !c.closed && c.connecting = 0 && c.closing = 0 && c.tearing = 0 &&
      c.timers.all (fun t => c.reconnectTimer = some t)
  | .serverClose => !c.appClosed
  | _ => true

structure Finished (c : Connection) : Prop where
  closed : c.closed = true
  connected : c.connected = false
  connecting : c.connecting = 0
  closing : c.closing = 0
  tearing : c.tearing = 0
  timers : c.timers = []

theorem Finished.step {reconnect maxRetries} {c : Connection} {c' l} (h : c.Finished)
    (happ : c.appClosed = true) (hok : c.calm l = true)
    (hstep : c.next reconnect maxRetries l = some c') : c'.Finished := by
  cases l with
  | readError =>
    simp only [next, h.closed, if_true] at hstep
    obtain ⟨-, rfl⟩ := of_guard hstep
    exact { h with closed := rfl }
  | connect => simp [next, h.closed] at hstep
  | serverClose => simp [calm, happ] at hok
  | closeDone => simp [next, h.closing] at hstep
  | tornDown => simp [next, h.tearing] at hstep
  | timer t => simp [next, h.timers] at hstep
  | appClose => simp [next, happ] at hstep
  | _ => simp [next, h.connecting] at hstep

theorem appClosed_next {reconnect maxRetries} {c : Connection} {c' l} (hl : l ≠ .appClose)
    (hstep : c.next reconnect maxRetries l = some c') : c'.appClosed = c.appClosed := by
  cases l with
  | appClose => exact absurd rfl hl
  | _ =>
    simp only [next, scheduleReconnect, close] at hstep
    repeat' split at hstep
    all_goals cases hstep
    all_goals rfl

/-- **Close.** If nothing that connects is under way at `close`, the client is not connected
    again and no timer is armed. -/
theorem close_is_final (reconnect : Bool) (maxRetries : Nat) {c : Connection}
    (h : Reachable ((connectionSystem reconnect maxRetries).restrict (fun c l => c.calm l = true)) c) :
    c.appClosed = true → c.connected = false ∧ c.timers = [] := by
  have hinv : c.appClosed = true → c.Finished := by
    refine invariant_restrict (fun c : Connection => c.appClosed = true → c.Finished)
      (fun happ => Bool.noConfusion happ) ?_ c h
    intro c l c' _ ih hok hstep happ
    by_cases hl : l = .appClose
    · subst hl
      simp only [calm, Bool.and_eq_true, Bool.not_eq_true', decide_eq_true_eq, List.all_eq_true] at hok
      obtain ⟨⟨⟨⟨hopen, hconn⟩, hclosing⟩, htearing⟩, htimers⟩ := hok
      obtain ⟨-, hstep⟩ := Option.ite_none_left_eq_some.mp hstep
      cases hstep
      simp only [close, hopen, Bool.false_eq_true, if_false]
      refine ⟨rfl, rfl, hconn, hclosing, htearing, ?_⟩
      refine List.filter_eq_nil_iff.mpr (fun t ht => ?_)
      simp [htimers t ht]
    · have hsame := appClosed_next hl hstep
      exact (ih (hsame ▸ happ)).step (hsame ▸ happ) hok hstep
  exact fun happ => ⟨(hinv happ).connected, (hinv happ).timers⟩

theorem close_is_final_connected : ∃ c : Connection, c.appClosed = true ∧
    (c.appClosed = true → c.connected = false ∧ c.timers = []) := by
  obtain ⟨c, hc, hp⟩ := exists_reachable start (next true 5) calm (fun c => c.appClosed)
    [.connect, .connected, .appClose, .readError] (by decide +kernel)
  exact ⟨c, hp, close_is_final true 5 hc⟩

/-- A `close` during `doConnect` does not keep it from connecting. -/
theorem connected_after_close : ∃ c, Reachable (connectionSystem true 5) c ∧
    c.appClosed = true ∧ c.connected = true := by
  exact exists_run [.connect, .appClose, .connected] (by decide +kernel)

end Connection

end QuicRTC.Sdk

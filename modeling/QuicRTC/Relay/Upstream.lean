import QuicRTC.Relay.Relay

/-! # The Reconnect Loop of the Relay

`runUpstream` of `relay/relay.go`: dial one upstream, run `sessionLoop` until the session dies, keep
its session ID and the cursor of its client, sleep and dial again.

`sessionLoop` cancels its pumps and does not wait for them, and a `select` may prefer an access unit
to a cancelled context. So the steps of every session the loop has ever run interleave.
-/

namespace QuicRTC

open Wire Client List Option

/-! ## Data -/

/-- What `runUpstream` reads of the configuration. -/
structure UpstreamConfig where
  sessionID : GoString
  lastSeenSeq : GoMap UInt32
  maxReconnectAttempts : Int
  maxTracksPerUpstream : Int

/-- No resume at the start, and no limits. -/
def UpstreamConfig.fresh : UpstreamConfig where
  sessionID := []
  lastSeenSeq := ∅
  maxReconnectAttempts := -1
  maxTracksPerUpstream := -1

/-- Where `runUpstream` is. -/
inductive UpstreamPhase where
  /-- At the head of its loop. -/
  | dialing
  /-- In `Dial`, which has sent the HELLO. -/
  | handshaking
  /-- In the `sessionLoop` of the last session. -/
  | running
  /-- `sessionLoop` has returned; its error is nil or not. -/
  | ended (failed : Bool)
  /-- It has read the cursor, before `Close`. -/
  | closing (failed : Bool)
  | sleeping
  | returned
deriving DecidableEq

/-- A unit that a `RecvOn` call received. -/
structure Receipt where
  session : Nat
  track : GoString
  seq : UInt32
deriving DecidableEq

/-- With what had been received when it was sent. -/
structure SentHello where
  sessionID : GoString
  lastSeenSeq : GoMap UInt32
  before : List Receipt

/-- A run of `runUpstream`. -/
structure Upstream where
  cfg : UpstreamConfig
  phase : UpstreamPhase
  sessionID : GoString
  /-- Of the last client that was closed. -/
  lastSeenSeq : GoMap UInt32
  attempts : Int
  /-- The last is the current one. -/
  sessions : List Relay
  hellos : List SentHello
  received : List Receipt
  /-- By all sessions. -/
  published : List (GoString × AccessUnit)

/-! ## The loop -/

def Client.receipt (c : Client) : Client.Step → Option (GoString × UInt32)
  | .observe i =>
    match c.calls[i]? with
    | some call =>
      match call.phase with
      | .taken au => some (call.track, au.seq)
      | _ => none
    | none => none
  | _ => none

def Relay.receipt (r : Relay) : Relay.Action → Option (GoString × UInt32)
  | .client st => r.client.receipt st
  | _ => none

namespace Upstream

def current (u : Upstream) : Option Relay := u.sessions.getLast?

def options (u : Upstream) : GoString × GoMap UInt32 :=
  -- `SessionID` and `LastSeenSeq` are overridden together.
  if u.sessionID ≠ [] then (u.sessionID, u.lastSeenSeq) else (u.cfg.sessionID, u.cfg.lastSeenSeq)

/-- `Dial` up to its HELLO. -/
def dial (u : Upstream) : Upstream :=
  { u with
    phase := .handshaking
    hellos := u.hellos ++ [⟨u.options.1, u.options.2, u.received⟩] }

def dialFailed (u : Upstream) : Upstream :=
  { u with
    attempts := u.attempts + 1
    phase := if 0 ≤ u.cfg.maxReconnectAttempts ∧ u.cfg.maxReconnectAttempts < u.attempts + 1
                then .returned else .sleeping }

/-- The client's cursor is empty; its pump for `primary` starts. -/
def dialed (u : Upstream) (sessionID : GoString) (claimed : Bool) : Upstream :=
  { u with
    phase := .running
    attempts := 0
    sessionID := sessionID
    sessions := u.sessions ++ [Relay.start u.cfg.maxTracksPerUpstream claimed] }

def receipts (i : Nat) (r : Relay) (a : Relay.Action) : List Receipt :=
  match r.receipt a with
  | some (track, seq) => [⟨i, track, seq⟩]
  | none => []

def advance (u : Upstream) (i : Nat) (r : Relay) (a : Relay.Action) (r' : Relay) : Upstream :=
  { u with
    sessions := u.sessions.set i r'
    received := u.received ++ receipts i r a
    published := u.published ++ r'.published.drop r.published.length }

/-- `lastSeenSeq = c.LastSeenSeq()`. -/
def snapshot (u : Upstream) (failed : Bool) (r : Relay) : Upstream :=
  { u with lastSeenSeq := r.client.lastSeenSeq, phase := .closing failed }

/-- Without an error the loop is over. -/
def closeClient (u : Upstream) (failed : Bool) (r : Relay) : Upstream :=
  { u with
    sessions := u.sessions.set (u.sessions.length - 1) { r with client := { r.client with closed := true } }
    phase := if failed then .sleeping else .returned }

/-- The poll belongs to `sessionLoop`; pumps and clients go on after it. -/
def allows (u : Upstream) (i : Nat) : Relay.Action → Bool
  | .poll _ _ => decide (u.phase = .running) && decide (i + 1 = u.sessions.length)
  | _ => true

/-! ## The system -/

inductive Label where
  | dial
  | dialFailed
  /-- `claimed` is for the pump of `primary`. -/
  | dialed (sessionID : GoString) (claimed : Bool)
  | session (i : Nat) (a : Relay.Action)
  /-- The client is done, or the relay is. -/
  | loopEnds (failed : Bool)
  | snapshot
  | closeClient
  | wake
  /-- The context ends the sleep. -/
  | cancelled

def next (u : Upstream) : Label → Option Upstream
  | .dial => if u.phase = .dialing then some u.dial else none
  | .dialFailed => if u.phase = .handshaking then some u.dialFailed else none
  | .dialed sessionID claimed =>
    if u.phase = .handshaking then some (u.dialed sessionID claimed) else none
  | .session i a =>
    match u.sessions[i]? with
    | some r => if u.allows i a then (Relay.next r a).map (u.advance i r a) else none
    | none => none
  | .loopEnds failed =>
    match u.phase, u.current with
    | .running, some r =>
      if failed && !r.client.closed then none else some { u with phase := .ended failed }
    | _, _ => none
  | .snapshot =>
    match u.phase, u.current with
    | .ended failed, some r => some (u.snapshot failed r)
    | _, _ => none
  | .closeClient =>
    match u.phase, u.current with
    | .closing failed, some r => some (u.closeClient failed r)
    | _, _ => none
  | .wake => if u.phase = .sleeping then some { u with phase := .dialing } else none
  | .cancelled => if u.phase = .sleeping then some { u with phase := .returned } else none

def start (cfg : UpstreamConfig) : Upstream where
  cfg := cfg
  phase := .dialing
  sessionID := []
  lastSeenSeq := ∅
  attempts := 0
  sessions := []
  hellos := []
  received := []
  published := []

def upstreamSystem (cfg : UpstreamConfig) : LTS.System Upstream Label := LTS.ofFun (start cfg) next

inductive Effect (u : Upstream) : Label → Upstream → Prop where
  | dial (phase : u.phase = .dialing) : Effect u .dial u.dial
  | dialFailed (phase : u.phase = .handshaking) : Effect u .dialFailed u.dialFailed
  | dialed {sessionID claimed} (phase : u.phase = .handshaking) :
      Effect u (.dialed sessionID claimed) (u.dialed sessionID claimed)
  | session {i a r r'} (get : u.sessions[i]? = some r) (allowed : u.allows i a = true)
      (next : Relay.next r a = some r') : Effect u (.session i a) (u.advance i r a r')
  | loopEnds {failed} (phase : u.phase = .running) :
      Effect u (.loopEnds failed) { u with phase := .ended failed }
  | snapshot {failed r} (phase : u.phase = .ended failed) (current : u.current = some r) :
      Effect u .snapshot (u.snapshot failed r)
  | closeClient {failed r} (phase : u.phase = .closing failed) (current : u.current = some r) :
      Effect u .closeClient (u.closeClient failed r)
  | wake (phase : u.phase = .sleeping) : Effect u .wake { u with phase := .dialing }
  | cancelled (phase : u.phase = .sleeping) : Effect u .cancelled { u with phase := .returned }

theorem effect_of_next {u u' : Upstream} {l : Label} : next u l = some u' → Effect u l u' := by
  fun_cases next u l <;> intro h <;> try cases h
  · next hphase => exact .dial hphase
  · next hphase => exact .dialFailed hphase
  · next hphase => exact .dialed hphase
  · next hget hallowed =>
    obtain ⟨r', hnext, rfl⟩ := map_eq_some_iff.mp h
    exact .session hget hallowed hnext
  · next hphase _ => exact .loopEnds hphase
  · next hcurrent hphase => exact .snapshot hphase hcurrent
  · next hcurrent hphase => exact .closeClient hphase hcurrent
  · next hphase => exact .wake hphase
  · next hphase => exact .cancelled hphase

/-! ## The retry budget -/

inductive Turn where
  | dialFailed
  /-- This long after its dial. -/
  | died (lived : Int)

/-- On `attempts`; `none` if the loop returns its error. -/
def Turn.apply (maxReconnectAttempts reconnectInterval attempts : Int) : Turn → Option Int
  | .dialFailed =>
    if 0 ≤ maxReconnectAttempts ∧ maxReconnectAttempts < attempts + 1 then none
    else some (attempts + 1)
  | .died lived =>
    -- The dial has already set it to zero.
    let attempts := 0
    some (if 10 * reconnectInterval < lived then 0 else attempts)

/-- Without cancellation. -/
def runUpstream (maxReconnectAttempts reconnectInterval : Int) (turns : List Turn) : Option Int :=
  turns.foldlM (Turn.apply maxReconnectAttempts reconnectInterval) 0

theorem dialFailed_apply (u : Upstream) (reconnectInterval : Int) :
    Turn.apply u.cfg.maxReconnectAttempts reconnectInterval u.attempts .dialFailed =
      if u.dialFailed.phase = .returned then none else some u.dialFailed.attempts := by
  simp only [Turn.apply, dialFailed]
  split <;> rfl

theorem died_apply (u : Upstream) (maxReconnectAttempts reconnectInterval lived : Int)
    (sessionID : GoString) (claimed : Bool) :
    Turn.apply maxReconnectAttempts reconnectInterval u.attempts (.died lived) =
      some (u.dialed sessionID claimed).attempts := by
  simp [Turn.apply, dialed]

/-- The budget is for such turns. -/
def Turn.wasted (reconnectInterval : Int) : Turn → Bool
  | .dialFailed => true
  | .died lived => lived ≤ 10 * reconnectInterval

/-- Of wasted turns, at the end. -/
def streak (reconnectInterval : Int) (turns : List Turn) : Nat :=
  turns.foldl (fun n t => if t.wasted reconnectInterval then n + 1 else 0) 0

/-- No session died that soon. -/
def Turn.steady (reconnectInterval : Int) : Turn → Prop
  | .dialFailed => True
  | .died lived => 10 * reconnectInterval < lived

section budget

variable {budget : Nat} {reconnectInterval : Int}

theorem Turn.apply_steady {t : Turn} {n : Nat} (ht : t.steady reconnectInterval) :
    t.apply budget reconnectInterval n =
      if t.wasted reconnectInterval then if budget < n + 1 then none else some ((n : Int) + 1)
      else some 0 := by
  cases t with
  | dialFailed =>
    simp only [apply, wasted, if_true]
    split <;> split <;> first | rfl | omega
  | died lived =>
    have hlong : ¬ lived ≤ 10 * reconnectInterval := Int.not_le.mpr ht
    simp [apply, wasted, hlong]

/-- **The budget**: if no session dies soon after its dial, the loop gives up exactly when
    more turns than allowed are wasted in a row; until then it has counted them. -/
theorem gives_up_when_exhausted {turns : List Turn} (h : ∀ t ∈ turns, t.steady reconnectInterval) :
    (runUpstream budget reconnectInterval turns = none ↔
      ∃ early, early <+: turns ∧ budget < streak reconnectInterval early) ∧
    ∀ attempts, runUpstream budget reconnectInterval turns = some attempts →
      attempts = streak reconnectInterval turns := by
  induction turns using reverseRecOn with
  | nil => simp [runUpstream, streak]
  | append_singleton turns t ih =>
    obtain ⟨hnone, hsome⟩ := ih (fun x hx => h x (mem_append_left _ hx))
    have ht : t.steady reconnectInterval := h t (by simp)
    have hrun : runUpstream budget reconnectInterval (turns ++ [t]) =
        (runUpstream budget reconnectInterval turns).bind
          (fun n => t.apply budget reconnectInterval n) := by
      simp [runUpstream, foldlM_append]
    have hstreak : streak reconnectInterval (turns ++ [t]) =
        if t.wasted reconnectInterval then streak reconnectInterval turns + 1 else 0 := by
      simp [streak]
    cases hturns : runUpstream budget reconnectInterval turns with
    | none =>
      rw [hturns, bind_none] at hrun
      obtain ⟨early, hearly, hlong⟩ := hnone.mp hturns
      rw [hrun]
      exact ⟨iff_of_true rfl ⟨early, hearly.trans (prefix_append _ _), hlong⟩, nofun⟩
    | some n =>
      cases hsome n hturns
      rw [hturns, bind_some, Turn.apply_steady ht] at hrun
      have hwithin : ¬ ∃ early, early <+: turns ∧ budget < streak reconnectInterval early :=
        fun h => by simp [hnone.mpr h] at hturns
      have hexceeds : (∃ early, early <+: turns ++ [t] ∧ budget < streak reconnectInterval early) ↔
          budget < streak reconnectInterval (turns ++ [t]) := by
        simp only [prefix_concat_iff, or_and_right, exists_or, exists_eq_left]
        exact or_iff_left hwithin
      rw [hexceeds, hrun, hstreak]
      split
      · split
        · next hover => exact ⟨iff_of_true rfl hover, nofun⟩
        · next hover => exact ⟨iff_of_false nofun hover, fun a ha => (some.inj ha).symm⟩
      · exact ⟨iff_of_false nofun (Nat.not_lt_zero _), fun a ha => (some.inj ha).symm⟩

end budget

theorem gives_up_after_two :
    runUpstream 1 1 [.dialFailed, .died 11, .dialFailed] = some 1 ∧
    runUpstream 1 1 [.dialFailed, .died 11, .dialFailed, .dialFailed] = none := by
  have hsteady : ∀ t ∈ [Turn.dialFailed, .died 11, .dialFailed, .dialFailed], t.steady 1 := by
    simp [Turn.steady]
  exact ⟨by decide, (gives_up_when_exhausted hsteady).1.mpr ⟨_, prefix_rfl, by decide⟩⟩

/-- Sessions that die at once are wasted, but not counted. -/
theorem short_sessions_not_counted :
    streak 1 [.died 0, .died 0, .died 0] = 3 ∧
    runUpstream 1 1 [.died 0, .died 0, .died 0] = some 0 := by decide

end Upstream

end QuicRTC

import QuicRTC.Framework.System
import QuicRTC.Server.Ownership

/-! # The Concurrent Server

`addSession` makes a session visible to `AddTrackSpec`, `RemoveTrack` and `Shutdown` before its
handshake has run. A step is what one goroutine does under a lock or in one write.

The goroutine of a session is at a `Phase` of `runSession`. Those of the application are the `Call`s
in flight; each holds the copy of the session set that it made under the lock.
-/

namespace QuicRTC

open Wire

/-! ## What leaves the sessions alone -/

namespace Server

structure SameSessions (s s' : Server) : Prop where
  sessionAt : s'.sessionAt = s.sessionAt
  sessions : s'.sessions = s.sessions
  nextSession : s'.nextSession = s.nextSession

theorem SameSessions.trans {s s' s''} (h : SameSessions s s') (h' : SameSessions s' s'') :
    SameSessions s s'' where
  sessionAt := h'.sessionAt.trans h.sessionAt
  sessions := h'.sessions.trans h.sessions
  nextSession := h'.nextSession.trans h.nextSession

theorem sameSessions_unsubscribeAll (s : Server) (pairs : List (BroadcasterId × ReceiverId)) :
    SameSessions s (s.unsubscribeAll pairs) :=
  unsubscribeAll_induction (P := fun s' => SameSessions s s')
    (fun _ _ _ h => { h with }) ⟨rfl, rfl, rfl⟩

theorem SameSessions.evict {s s'} (h : SameSessions s s') (store : MemorySessionStore)
    (pairs : List (BroadcasterId × ReceiverId)) :
    SameSessions s ({ s' with store := store }.unsubscribeAll pairs) :=
  SameSessions.trans
    (show SameSessions s { s' with store := store } from { h with })
    (sameSessions_unsubscribeAll _ _)

theorem sameSessions_onResume (s : Server) (now : Int) (tenant id : GoString)
    (lastSeen : GoMap UInt32) : SameSessions s (onResume now tenant id lastSeen s).2 := by
  have hevict := SameSessions.evict (s := s) ⟨rfl, rfl, rfl⟩ (s.store.resume now tenant id).2.1
    (s.store.resume now tenant id).2.2.flatten
  unfold onResume
  simp only
  split
  · exact hevict
  · refine GoMap.fold_induction (P := fun s' => SameSessions s s') hevict ?_
    intro s' name fromSeq hs'
    unfold resumeTrack
    split
    · exact ⟨hs'.sessionAt, hs'.sessions, hs'.nextSession⟩
    · exact hs'

theorem sameSessions_onFreshSession (s : Server) : SameSessions s s.onFreshSession.2 :=
  GoMap.fold_induction (P := fun acc : GoMap ReceiverId × Server => SameSessions s acc.2)
    ⟨rfl, rfl, rfl⟩ (fun _ _ _ h => { h with })

theorem sameSessions_registerTrack (s : Server) (name : GoString) (kind : Kind)
    (priority trackID : UInt8) : SameSessions s (s.registerTrack name kind priority trackID).1 := by
  unfold registerTrack
  split <;> exact ⟨rfl, rfl, rfl⟩

theorem sameSessions_tryResume (s : Server) (sess : Session) (now : Int) (newID : GoString)
    (hello : Hello) : SameSessions s (sess.tryResume (callbacks now newID) hello s).2 := by
  have hres := s.sameSessions_onResume now sess.tenant hello.sessionID hello.lastSeenSeq
  unfold Session.tryResume callbacks
  simp only
  split
  · exact ⟨rfl, rfl, rfl⟩
  · split
    · next heq => rw [heq] at hres; exact hres
    · next heq => rw [heq] at hres; exact hres

end Server

/-! ## The goroutine of a session -/

/-- From `left` on, the flag tells whether the handshake succeeded. -/
inductive Phase where
  | idle
  /-- Registered; the HELLO is awaited. -/
  | waiting
  /-- The ERROR frame is not written yet. -/
  | refused (err : HandshakeError)
  | accepted (hello : Hello)
  /-- There is no session to resume. -/
  | allocating (hello : Hello)
  | subscribing (hello : Hello)
  /-- The loop over the receivers. -/
  | attaching (hello : Hello) (acquired : Session.Acquired)
      (todo : List ((_ : GoString) × ReceiverId))
  | replying (sdp : SDP)
  /-- The SDP is written. -/
  | answered
  | running
  /-- `Run` returned. -/
  | left (ok : Bool)
  /-- The deferred park has copied the track table. -/
  | leaving (ok : Bool) (tracks : List TrackEntry)
  /-- It subscribes the receivers to park. -/
  | holding (ok : Bool) (tracks todo : List TrackEntry) (parked : GoMap ReceiverId)
      (onEvict : OnEvict)
  /-- It unsubscribes the active ones, with what will be parked. -/
  | releasing (ok : Bool) (todo : List TrackEntry) (entry : Option (GoMap ReceiverId × OnEvict))
  | parked (ok : Bool)
  | gone (ok : Bool)

/-- With what comes from outside. -/
inductive SessionStep where
  | hello (io : ControlIO)
  | reject (accepted : Bool)
  | resume (now : Int)
  | allocate (newID : GoString)
  | subscribe
  | attach
  | offer
  | reply (accepted : Bool)
  | start
  | leave
  | snapshot
  | decide (ctxDone : Bool)
  | hold
  | release
  | park (now later : Int)
  | remove

def attachOne (s : Server) : Session.Acquired → Session → GoString → ReceiverId → Session
  | .resumed _ => Session.attachResumed (Server.callbacks 0 []) s
  | .fresh _ => Session.attachFresh (Server.callbacks 0 []) s

/-- If the step is the phase's. -/
@[simp]
def sessionStep (codec : Codec) (s : Server) (ref : SessionRef) (phase : Phase) :
    SessionStep → Option (Server × Phase)
  | .hello io =>
    match phase with
    | .waiting =>
      match (s.sessionAt ref).receiveHello codec io with
      | (sess, .ok hello) => some (s.onSession ref (fun _ => sess), .accepted hello)
      | (sess, .error err) => some (s.onSession ref (fun _ => sess), .refused err)
    | _ => none
  | .reject accepted =>
    match phase with
    | .refused err =>
      some (s.onSession ref (fun sess => sess.bestEffortError accepted err), .left false)
    | _ => none
  | .resume now =>
    match phase with
    | .accepted hello =>
      -- The store's lock is held for the lookup; evicted entries run their callbacks.
      match (s.sessionAt ref).tryResume (Server.callbacks now []) hello s with
      | (some (sess, receivers), s) =>
        some (s.onSession ref (fun _ => sess), .attaching hello (.resumed receivers) receivers.entries)
      | (none, s) => some (s, .allocating hello)
    | _ => none
  | .allocate newID =>
    match phase with
    | .allocating hello =>
      match (s.sessionAt ref).allocateID (Server.callbacks 0 newID) s with
      | (sess, s) => some (s.onSession ref (fun _ => sess), .subscribing hello)
    | _ => none
  | .subscribe =>
    match phase with
    | .subscribing hello =>
      -- `trackSnapshot`: every track of the table, under the server's `trackMu`.
      match Session.freshReceivers (Server.callbacks 0 []) s with
      | (receivers, s) => some (s, .attaching hello (.fresh receivers) receivers.entries)
    | _ => none
  | .attach =>
    match phase with
    | .attaching hello acquired (e :: todo) =>
      -- Under the session's own `trackMu`. A name that is taken stays as it is.
      some (s.onSession ref (fun sess => attachOne s acquired sess e.1 e.2),
        .attaching hello acquired todo)
    | _ => none
  | .offer =>
    match phase with
    | .attaching hello _ [] =>
      -- The loop over the receivers is done.
      some (s.onSession ref (fun sess => (sess.offerSDP hello).1),
        .replying ((s.sessionAt ref).offerSDP hello).2)
    | _ => none
  | .reply accepted =>
    match phase with
    | .replying sdp =>
      match (s.sessionAt ref).writeSDP codec accepted sdp with
      | (sess, .ok ()) => some (s.onSession ref (fun _ => sess), .answered)
      -- The stream does not take the SDP: `Run` returns the error.
      | (sess, .error _) => some (s.onSession ref (fun _ => sess), .left false)
    | _ => none
  | .start =>
    match phase with
    | .answered => some (s.onSession ref Session.startPumps, .running)
    | _ => none
  | .leave =>
    match phase with
    | .running => some (s, .left true)
    | _ => none
  | .snapshot =>
    match phase with
    -- The deferred function runs however `Run` returned.
    | .left ok => some (s, .leaving ok (s.tracks.entries.map (fun e => e.2)))
    | _ => none
  | .decide ctxDone =>
    match phase with
    | .leaving ok tracks =>
      -- The handshake never completed, the context is done, or the server drains.
      if (s.sessionAt ref).sessionID = [] || ctxDone || s.draining then
        some (s, .releasing ok tracks none)
      else some (s, .holding ok tracks tracks ∅ [])
    | _ => none
  | .hold =>
    match phase with
    | .holding ok tracks (t :: todo) parked onEvict =>
      some (s.onBroadcaster t.bc (fun ps => ps.subscribeWithCapacity parkedChanCap),
        .holding ok tracks todo (parked.insert t.name s.nextReceiver)
          (onEvict ++ [(t.bc, s.nextReceiver)]))
    -- The active receivers go only after the last parked one is there.
    | .holding ok tracks [] parked onEvict => some (s, .releasing ok tracks (some (parked, onEvict)))
    | _ => none
  | .release =>
    match phase with
    | .releasing ok (t :: todo) entry =>
      some (s.unsubscribeAll (s.activeReceivers ref [t]), .releasing ok todo entry)
    | _ => none
  | .park now later =>
    match phase with
    | .releasing ok [] none => some (s, .parked ok)
    | .releasing ok [] (some (parked, onEvict)) =>
      -- An entry under the same key is overwritten.
      match s.store.park now later (s.sessionAt ref).tenant (s.sessionAt ref).sessionID parked
          onEvict with
      | (store, evicted) => some ({ s with store := store }.unsubscribeAll evicted.flatten, .parked ok)
    | _ => none
  | .remove =>
    match phase with
    | .parked ok => some (s.removeSession ref, .gone ok)
    | _ => none

theorem ne_idle_of_sessionStep {codec s ref phase step x} :
    sessionStep codec s ref phase step = some x → phase ≠ .idle := by
  fun_cases sessionStep codec s ref phase step <;> intro h <;> cases h <;> simp

/-- It works through the sessions it copied. -/
inductive Call where
  /-- About to subscribe the first session. -/
  | adding (b : BroadcasterId) (name : GoString) (kind : Kind) (priority trackID : UInt8)
      (refs : List SessionRef)
  | attaching (b : BroadcasterId) (name : GoString) (kind : Kind) (priority trackID : UInt8)
      (r : ReceiverId) (refs : List SessionRef)
  /-- About to announce to it. -/
  | announcing (b : BroadcasterId) (name : GoString) (kind : Kind) (priority trackID : UInt8)
      (refs : List SessionRef)
  /-- About to detach the first session. -/
  | removing (t : TrackEntry) (refs : List SessionRef)
  | unannouncing (t : TrackEntry) (refs : List SessionRef)
  /-- Before it copies the sessions. -/
  | draining
  | closing (refs : List SessionRef)
  /-- `Run` announces the tracks of its session. -/
  | replay (ref : SessionRef)
  | replaying (ref : SessionRef) (names : List GoString)

def Call.refs : Call → List SessionRef
  | .adding _ _ _ _ _ refs => refs
  | .attaching _ _ _ _ _ _ refs => refs
  | .announcing _ _ _ _ _ refs => refs
  | .removing _ refs => refs
  | .unannouncing _ refs => refs
  | .draining => []
  | .closing refs => refs
  | .replay ref => [ref]
  | .replaying ref _ => [ref]

def Call.turn (codec : Codec) (accepted : Bool) (s : Server) : Call → Server × Option Call
  -- Every session of the copy was served.
  | .adding _ _ _ _ _ [] => (s, none)
  | .adding b name kind priority trackID (ref :: refs) =>
    (s.onBroadcaster b PubSub.subscribe,
      some (.attaching b name kind priority trackID s.nextReceiver (ref :: refs)))
  | .attaching _ _ _ _ _ _ [] => (s, none)
  | .attaching b name kind priority trackID r (ref :: refs) =>
    -- The session may have ended, or have the name from its handshake.
    (s.onSession ref (fun sess => sess.attachTrackWithKind name kind r priority trackID),
      some (.announcing b name kind priority trackID (ref :: refs)))
  | .announcing _ _ _ _ _ [] => (s, none)
  | .announcing b name kind priority trackID (ref :: refs) =>
    (s.onSession ref (fun sess => sess.sendAnnounce codec accepted name kind.toGoString []),
      some (.adding b name kind priority trackID refs))
  -- `Close` comes after the last session.
  | .removing t [] => (s.onBroadcaster t.bc PubSub.close, none)
  | .removing t (ref :: refs) =>
    -- By name: whatever is attached under it by now.
    (s.onSession ref (fun sess => sess.detachTrack t.name), some (.unannouncing t (ref :: refs)))
  | .unannouncing _ [] => (s, none)
  | .unannouncing t (ref :: refs) =>
    (s.onSession ref (fun sess => sess.sendUnannounce codec accepted t.name), some (.removing t refs))
  -- The flag is set before the sessions are copied.
  | .draining => (s, some (.closing s.sessions))
  | .closing [] => (s, none)
  | .closing (ref :: refs) =>
    (s.onSession ref (fun sess => sess.sendClose accepted (str "server-shutdown")),
      some (.closing refs))
  | .replay ref => (s, some (.replaying ref (s.sessionAt ref).tracks.keys))
  | .replaying _ [] => (s, none)
  | .replaying ref (name :: names) =>
    (s.onSession ref (fun sess =>
      sess.sendAnnounce codec accepted name (s.kindFor name).toGoString []),
      some (.replaying ref names))

/-! ## The system -/

/-- `hello` keeps the HELLO a session accepted. -/
structure Concurrent where
  server : Server
  phase : SessionRef → Phase
  hello : SessionRef → Option Hello
  calls : List Call

inductive Event where
  /-- A connection is up: `addSession`. -/
  | connect
  | session (ref : SessionRef) (step : SessionStep)
  | addTrackSpec (spec : TrackSpec)
  | removeTrack (name : GoString)
  | shutdown
  /-- A call takes its next turn. -/
  | turn (i : Nat) (accepted : Bool)
  /-- The server's background loop. -/
  | evictExpired (now : Int)
  | publish (b : BroadcasterId) (au : AccessUnit)

def Phase.greeting : Phase → Option Hello
  | .accepted hello => some hello
  | _ => none

/-- Started on the way into a phase. -/
def Phase.spawn (ref : SessionRef) : Phase → List Call
  | .answered => [.replay ref]
  | _ => []

namespace Concurrent

def next (codec : Codec) (s : Concurrent) : Event → Option Concurrent
  | .connect =>
    some { s with
      server := s.server.addSession
      phase := Function.update s.phase s.server.nextSession .waiting }
  | .session ref step =>
    match sessionStep codec s.server ref (s.phase ref) step with
    | none => none
    | some (server, phase) =>
      some { server := server
             phase := Function.update s.phase ref phase
             hello := Function.update s.hello ref (phase.greeting <|> s.hello ref)
             calls := s.calls ++ phase.spawn ref }
  | .addTrackSpec spec =>
    match s.server.registerTrack spec.name (Server.specKind spec) (Server.specPriority spec)
        spec.trackID with
    | (server, none) => some { s with server := server }
    | (server, some (b, refs)) =>
      some { s with
        server := server
        calls := s.calls ++ [.adding b spec.name (Server.specKind spec) (Server.specPriority spec)
          spec.trackID refs] }
  | .removeTrack name =>
    match s.server.unregisterTrack name with
    | (server, none) => some { s with server := server }
    | (server, some (t, refs)) =>
      some { s with server := server, calls := s.calls ++ [.removing t refs] }
  | .shutdown =>
    some { s with
      server := { s.server with draining := true }
      calls := s.calls ++ [.draining] }
  | .turn i accepted =>
    match s.calls[i]? with
    | none => none
    | some c =>
      match c.turn codec accepted s.server with
      | (server, none) => some { s with server := server, calls := s.calls.eraseIdx i }
      | (server, some c) => some { s with server := server, calls := s.calls.set i c }
  | .evictExpired now => some { s with server := s.server.evictExpired now }
  | .publish b au => some { s with server := s.server.publish b au }

def start (codec : Codec) (cfg : ServerConfig) (resumeWindow : Int) : Concurrent where
  server := newServer codec cfg resumeWindow
  phase := fun _ => .idle
  hello := fun _ => none
  calls := []

end Concurrent

/-- In every interleaving. -/
def concurrentSystem (codec : Codec) (cfg : ServerConfig) (resumeWindow : Int) :
    LTS.System Concurrent Event :=
  LTS.ofFun (Concurrent.start codec cfg resumeWindow) (Concurrent.next codec)

end QuicRTC

import QuicRTC.Framework.System
import QuicRTC.Framework.Registry
import QuicRTC.Pubsub.Receiver
import QuicRTC.Wire.Frame
import QuicRTC.Wire.Hello

/-! # The Receiving Client

`client/client.go` from the end of its handshake: the control reader, a goroutine that drains each
accepted stream into the queue of its track, and `RecvOn`.

Each track has a queue in `tracks` and a done channel in `trackDone`, made on first use and dropped
by an UNANNOUNCE, so a goroutine may hold one that is no longer in the map. Failures go through
`feedErr`, one slot that all tracks share; an `error` in it may be nil.
-/

namespace QuicRTC

open Wire List Option

/-! ## Data -/

inductive RecvError where
  /-- `server error: %s`, from an ERROR frame. -/
  | server (payload : List UInt8)
  /-- The error of `AcceptUniStream`. -/
  | transport (reason : GoString)
  | eof
  | ctx
  /-- `quicrtc/client: closed`. -/
  | closed
deriving DecidableEq

def AccessUnit.zero : AccessUnit where
  bytes := []
  keyframe := false
  ptsMicro := 0
  seq := 0
  discontinuity := false
  pubWallMicro := 0

structure TrackQueue where
  name : GoString
  ch : LoggedChan AccessUnit

def TrackQueue.fresh (name : GoString) : TrackQueue := ⟨name, LoggedChan.make 16⟩

/-- Between frames, or between the critical sections of `handleRemoteAnnounce`. -/
inductive ControlReader where
  | idle
  | announcing (a : Announce)
  | stopped
deriving DecidableEq

inductive FeedDrain where
  /-- The header has been read. -/
  | opened (track : GoString)
  /-- In the loop, with the queue it holds. -/
  | reading (track : GoString) (q : Nat)
  /-- It has decoded `au`. -/
  | holding (track : GoString) (q : Nat) (au : AccessUnit)
  | stopped
deriving DecidableEq

inductive RecvOnPhase where
  /-- It has its queue, not its done channel. -/
  | looked
  /-- In the `select`. -/
  | waiting (done : Nat)
  /-- Before `observeSeq`. -/
  | taken (au : AccessUnit)
  /-- Before `endError`. -/
  | ending
  | returned (au : AccessUnit) (err : Option RecvError)
deriving DecidableEq

def RecvOnPhase.isReturned : RecvOnPhase → Bool
  | .returned _ _ => true
  | _ => false

structure RecvOnCall where
  track : GoString
  q : Nat
  phase : RecvOnPhase
deriving DecidableEq

structure Client where
  tracks : Registry TrackQueue
  /-- The done channels: whether each is closed. -/
  trackDone : Registry Bool
  remoteTracks : GoMap Announce
  /-- An `error` is `none` when it is nil. -/
  feedErr : Option (Option RecvError)
  closed : Bool
  lastSeenSeq : GoMap UInt32
  reader : ControlReader
  /-- `feedAcceptor` has not returned. -/
  accepting : Bool
  drains : List FeedDrain
  calls : List RecvOnCall
  /-- With the track of the stream. -/
  decoded : List (GoString × AccessUnit)
  /-- Unannounced and not announced since. -/
  retired : GoString → Bool

namespace Client

/-! ## Critical sections and channel operations -/

def trackChan (c : Client) (name : GoString) : Nat × Client :=
  ((c.tracks.getOrAdd name (.fresh name)).1,
    { c with tracks := (c.tracks.getOrAdd name (.fresh name)).2 })

def trackDoneChan (c : Client) (name : GoString) : Nat × Client :=
  ((c.trackDone.getOrAdd name false).1,
    { c with trackDone := (c.trackDone.getOrAdd name false).2 })

def feedUnit (f : FeedFrame) : AccessUnit where
  bytes := f.payload
  keyframe := f.isKeyframe
  ptsMicro := f.ptsMicro
  seq := f.seq
  discontinuity := (f.flags &&& flagDiscontinuity) != 0
  pubWallMicro := f.pubWallMicro

def streamTrack (header : GoString) : GoString :=
  if header = [] then str "primary" else header

def fail (c : Client) (err : Option RecvError) : Client :=
  -- The send has a `default`: an error that finds the slot taken is dropped.
  { c with feedErr := some (c.feedErr.getD err), closed := true }

def handleRemoteAnnounce (c : Client) (a : Announce) : Client :=
  { (c.trackChan a.name).2 with
    reader := .announcing a
    retired := Function.update c.retired a.name false }

def registerAnnounce (c : Client) (a : Announce) : Client :=
  { c with remoteTracks := c.remoteTracks.insert a.name a, reader := .idle }

def closeDone (c : Client) (name : GoString) : Registry Bool :=
  match c.trackDone.lookup name with
  | none => c.trackDone
  -- Calls that hold the channel see it closed; the next lookup makes a new one.
  | some d => (c.trackDone.modify d (fun _ => true)).remove name

def handleRemoteUnannounce (c : Client) (u : Unannounce) : Client :=
  { c with
    -- The queue itself is not closed: who holds it keeps it.
    tracks := c.tracks.remove u.name
    trackDone := c.closeDone u.name
    remoteTracks := c.remoteTracks.erase u.name
    retired := Function.update c.retired u.name true }

def observeSeq (c : Client) (track : GoString) (seq : UInt32) : Client :=
  match c.lastSeenSeq.lookup track with
  | none => { c with lastSeenSeq := c.lastSeenSeq.insert track seq }
  | some prev =>
    if prev < seq then { c with lastSeenSeq := c.lastSeenSeq.insert track seq } else c

def setDrain (c : Client) (i : Nat) (d : FeedDrain) : Client := { c with drains := c.drains.set i d }

def setPhase (c : Client) (i : Nat) (call : RecvOnCall) (phase : RecvOnPhase) : Client :=
  { c with calls := c.calls.set i { call with phase := phase } }

def lookupQueue (c : Client) (i : Nat) (track : GoString) : Client :=
  (c.trackChan track).2.setDrain i (.reading track (c.trackChan track).1)

def decode (c : Client) (i : Nat) (track : GoString) (q : Nat) (f : FeedFrame) : Client :=
  { c.setDrain i (.holding track q (feedUnit f)) with
    decoded := c.decoded ++ [(track, feedUnit f)] }

def setQueue (c : Client) (q : Nat) (ch : LoggedChan AccessUnit) : Client :=
  { c with tracks := c.tracks.modify q (fun t => { t with ch := ch }) }

def deliver (c : Client) (i : Nat) (track : GoString) (q : Nat) (au : AccessUnit) : Option Client :=
  match (c.tracks.cell q).ch.trySend au with
  -- The queue is full: the drain waits.
  | none => none
  | some ch => some ((c.setQueue q ch).setDrain i (.reading track q))

/-- Up to the lookup of its queue. -/
def recvOn (c : Client) (track : GoString) : Client :=
  { (c.trackChan track).2 with
    calls := c.calls ++ [⟨track, (c.trackChan track).1, .looked⟩] }

def findDone (c : Client) (i : Nat) (call : RecvOnCall) : Client :=
  (c.trackDoneChan call.track).2.setPhase i call (.waiting (c.trackDoneChan call.track).1)

/-- The case `au := <-ch`. -/
def take (c : Client) (i : Nat) (call : RecvOnCall) : Option Client :=
  match (c.tracks.cell call.q).ch.tryRecv with
  | none => none
  | some (au, ch) => some ((c.setQueue call.q ch).setPhase i call (.taken au))

def takeErr (c : Client) (i : Nat) (call : RecvOnCall) (err : Option RecvError) : Client :=
  { c.setPhase i call (.returned .zero err) with feedErr := none }

def endError (c : Client) (i : Nat) (call : RecvOnCall) : Client :=
  match c.feedErr with
  -- Whatever is in the slot, a nil error too.
  | some err => c.takeErr i call err
  | none => c.setPhase i call (.returned .zero (some .closed))

/-! ## The system -/

inductive Step where
  | announce (a : Announce)
  | register
  | unannounce (u : Unannounce)
  | errorFrame (payload : List UInt8)
  | closeFrame
  /-- The control stream ends. -/
  | readError
  /-- `AcceptUniStream` fails. -/
  | acceptError (reason : GoString)
  | close
  /-- A stream is accepted and its header read. -/
  | stream (header : GoString)
  | lookup (i : Nat)
  | decode (i : Nat) (f : FeedFrame)
  | deliver (i : Nat)
  /-- The stream or the client has ended. -/
  | stop (i : Nat)
  | recvOn (track : GoString)
  | findDone (i : Nat)
  | take (i : Nat)
  | observe (i : Nat)
  | takeErr (i : Nat)
  | takeDone (i : Nat)
  | cancel (i : Nat)
  | seeClosed (i : Nat)
  | endError (i : Nat)
deriving DecidableEq

/-- `none`: the step is not enabled. -/
def next (c : Client) : Step → Option Client
  | .announce a =>
    match c.reader with
    | .idle => some (c.handleRemoteAnnounce a)
    | _ => none
  | .register =>
    match c.reader with
    | .announcing a => some (c.registerAnnounce a)
    | _ => none
  | .unannounce u =>
    match c.reader with
    | .idle => some (c.handleRemoteUnannounce u)
    | _ => none
  | .errorFrame payload =>
    match c.reader with
    | .idle => some { c.fail (some (.server payload)) with reader := .stopped }
    | _ => none
  | .closeFrame =>
    match c.reader with
    -- `fail` with a nil error.
    | .idle => some { c.fail none with reader := .stopped }
    | _ => none
  | .readError =>
    match c.reader with
    -- The reader returns without a word to `RecvOn`.
    | .idle => some { c with reader := .stopped }
    | _ => none
  | .acceptError reason =>
    if c.accepting then some { c.fail (some (.transport reason)) with accepting := false } else none
  | .close => some { c with closed := true }
  | .stream header => some { c with drains := c.drains ++ [.opened (streamTrack header)] }
  | .lookup i =>
    match c.drains[i]? with
    | some (.opened track) => some (c.lookupQueue i track)
    | _ => none
  | .decode i f =>
    match c.drains[i]? with
    | some (.reading track q) => some (c.decode i track q f)
    | _ => none
  | .deliver i =>
    match c.drains[i]? with
    | some (.holding track q au) => c.deliver i track q au
    | _ => none
  | .stop i =>
    match c.drains[i]? with
    | some (.reading _ _) => some (c.setDrain i .stopped)
    -- A drain that waits to send also watches `c.closed`.
    | some (.holding _ _ _) => if c.closed then some (c.setDrain i .stopped) else none
    | _ => none
  | .recvOn track => some (c.recvOn track)
  | .findDone i =>
    match c.calls[i]? with
    | some call => if call.phase = .looked then some (c.findDone i call) else none
    | none => none
  | .take i =>
    match c.calls[i]? with
    | some call =>
      match call.phase with
      | .waiting _ => c.take i call
      | _ => none
    | none => none
  | .observe i =>
    match c.calls[i]? with
    | some call =>
      match call.phase with
      | .taken au => some ((c.observeSeq call.track au.seq).setPhase i call (.returned au none))
      | _ => none
    | none => none
  | .takeErr i =>
    match c.calls[i]? with
    | some call =>
      match call.phase, c.feedErr with
      | .waiting _, some err => some (c.takeErr i call err)
      | _, _ => none
    | none => none
  | .takeDone i =>
    match c.calls[i]? with
    | some call =>
      match call.phase with
      | .waiting d =>
        if c.trackDone.cell d then some (c.setPhase i call (.returned .zero (some .eof))) else none
      | _ => none
    | none => none
  | .cancel i =>
    match c.calls[i]? with
    | some call =>
      match call.phase with
      | .waiting _ => some (c.setPhase i call (.returned .zero (some .ctx)))
      | _ => none
    | none => none
  | .seeClosed i =>
    match c.calls[i]? with
    | some call =>
      match call.phase with
      | .waiting _ => if c.closed then some (c.setPhase i call .ending) else none
      | _ => none
    | none => none
  | .endError i =>
    match c.calls[i]? with
    | some call => if call.phase = .ending then some (c.endError i call) else none
    | none => none

/-- The handshake has succeeded. -/
def start : Client where
  tracks := (Registry.empty (.fresh [])).add (str "primary") (.fresh (str "primary"))
  trackDone := Registry.empty false
  remoteTracks := ∅
  feedErr := none
  closed := false
  lastSeenSeq := ∅
  reader := .idle
  accepting := true
  drains := []
  calls := []
  decoded := []
  retired := fun _ => false

def clientSystem : LTS.System Client Step := LTS.ofFun start next

/-! ## What a step does -/

inductive Effect (c : Client) : Step → Client → Prop where
  | announce {a} (idle : c.reader = .idle) :
      Effect c (.announce a) (c.handleRemoteAnnounce a)
  | register {a} (reader : c.reader = .announcing a) :
      Effect c .register (c.registerAnnounce a)
  | unannounce {u} (idle : c.reader = .idle) :
      Effect c (.unannounce u) (c.handleRemoteUnannounce u)
  | errorFrame {payload} :
      Effect c (.errorFrame payload) { c.fail (some (.server payload)) with reader := .stopped }
  | closeFrame :
      Effect c .closeFrame { c.fail none with reader := .stopped }
  | readError :
      Effect c .readError { c with reader := .stopped }
  | acceptError {reason} :
      Effect c (.acceptError reason)
        { c.fail (some (.transport reason)) with accepting := false }
  | close :
      Effect c .close { c with closed := true }
  | stream {header} :
      Effect c (.stream header) { c with drains := c.drains ++ [.opened (streamTrack header)] }
  | lookup {i track} :
      Effect c (.lookup i) (c.lookupQueue i track)
  | decode {i track q f} (drain : FeedDrain.reading track q ∈ c.drains) :
      Effect c (.decode i f) (c.decode i track q f)
  | deliver {i track q au ch} (drain : c.drains[i]? = some (.holding track q au))
      (sent : (c.tracks.cell q).ch.trySend au = some ch) :
      Effect c (.deliver i) ((c.setQueue q ch).setDrain i (.reading track q))
  | stop {i} :
      Effect c (.stop i) (c.setDrain i .stopped)
  | recvOn {track} :
      Effect c (.recvOn track) (c.recvOn track)
  | findDone {i call} (get : c.calls[i]? = some call) (looked : call.phase = .looked) :
      Effect c (.findDone i) (c.findDone i call)
  | take {i call d au ch} (get : c.calls[i]? = some call) (waiting : call.phase = .waiting d)
      (received : (c.tracks.cell call.q).ch.tryRecv = some (au, ch)) :
      Effect c (.take i) ((c.setQueue call.q ch).setPhase i call (.taken au))
  | observe {i call au} (get : c.calls[i]? = some call) (taken : call.phase = .taken au) :
      Effect c (.observe i)
        ((c.observeSeq call.track au.seq).setPhase i call (.returned au none))
  | takeErr {i call d err} (get : c.calls[i]? = some call) (waiting : call.phase = .waiting d)
      (slot : c.feedErr = some err) :
      Effect c (.takeErr i) (c.takeErr i call err)
  | takeDone {i call d} (get : c.calls[i]? = some call) (waiting : call.phase = .waiting d)
      (done : c.trackDone.cell d = true) :
      Effect c (.takeDone i) (c.setPhase i call (.returned .zero (some .eof)))
  | cancel {i call d} (get : c.calls[i]? = some call) (waiting : call.phase = .waiting d) :
      Effect c (.cancel i) (c.setPhase i call (.returned .zero (some .ctx)))
  | seeClosed {i call d} (get : c.calls[i]? = some call) (waiting : call.phase = .waiting d)
      (closed : c.closed = true) :
      Effect c (.seeClosed i) (c.setPhase i call .ending)
  | endErr {i call err} (get : c.calls[i]? = some call) (ending : call.phase = .ending)
      (slot : c.feedErr = some err) :
      Effect c (.endError i) (c.takeErr i call err)
  | endClosed {i call} (get : c.calls[i]? = some call) (ending : call.phase = .ending) :
      Effect c (.endError i) (c.setPhase i call (.returned .zero (some .closed)))

variable {c' c : Client}

theorem effect_of_next {st} : next c st = some c' → Effect c st c' := by
  fun_cases next c st <;> intro h <;> try cases h
  · next hidle => exact .announce hidle
  · next hreader => exact .register hreader
  · next hidle => exact .unannounce hidle
  · exact .errorFrame
  · exact .closeFrame
  · exact .readError
  · exact .acceptError
  · exact .close
  · exact .stream
  · exact .lookup
  · next hget => exact .decode (mem_of_getElem? hget)
  · next hget =>
    unfold deliver at h
    split at h
    · cases h
    · next hsend => exact some.inj h ▸ .deliver hget hsend
  · exact .stop
  · exact .stop
  · exact .recvOn
  · next hget hlooked => exact .findDone hget hlooked
  · next hget _ hwait =>
    unfold take at h
    split at h
    · cases h
    · next hrecv => exact some.inj h ▸ .take hget hwait hrecv
  · next hget _ htaken => exact .observe hget htaken
  · next hget _ _ hslot hwait => exact .takeErr hget hwait hslot
  · next hget _ hwait hdone => exact .takeDone hget hwait hdone
  · next hget _ hwait => exact .cancel hget hwait
  · next hget _ hwait hclosed => exact .seeClosed hget hwait hclosed
  · next hget hending =>
    unfold endError
    split
    · next hslot => exact .endErr hget hending hslot
    · exact .endClosed hget hending

theorem name_setQueue (c : Client) (q r : Nat) (ch : LoggedChan AccessUnit) :
    ((c.setQueue q ch).tracks.cell r).name = (c.tracks.cell r).name := by
  simp only [setQueue, Registry.cell_modify]
  split
  · next heq => rw [heq]
  · rfl

theorem ch_setQueue (c : Client) (q r : Nat) (ch : LoggedChan AccessUnit) :
    ((c.setQueue q ch).tracks.cell r).ch = if r = q then ch else (c.tracks.cell r).ch := by
  simp only [setQueue, Registry.cell_modify]
  split <;> rfl

def Grows (c c' : Client) : Prop :=
  c.calls.map RecvOnCall.track <+: c'.calls.map RecvOnCall.track ∧ c.decoded <+: c'.decoded

theorem Grows.of_eq (hcalls : c'.calls = c.calls) (hdecoded : c'.decoded = c.decoded) :
    Grows c c' := by
  unfold Grows
  rw [hcalls, hdecoded]
  exact ⟨prefix_rfl, prefix_rfl⟩

theorem Grows.of_set {i call phase} (hget : c.calls[i]? = some call)
    (hcalls : c'.calls = c.calls.set i { call with phase := phase })
    (hdecoded : c'.decoded = c.decoded) : Grows c c' := by
  have htracks : c'.calls.map RecvOnCall.track = c.calls.map RecvOnCall.track := by
    rw [hcalls]
    exact Slots.map_set_eq hget rfl
  unfold Grows
  rw [htracks, hdecoded]
  exact ⟨prefix_rfl, prefix_rfl⟩

theorem observeSeq_calls (c : Client) (track : GoString) (seq : UInt32) :
    (c.observeSeq track seq).calls = c.calls := by
  unfold observeSeq
  split
  · rfl
  · split <;> rfl

theorem observeSeq_decoded (c : Client) (track : GoString) (seq : UInt32) :
    (c.observeSeq track seq).decoded = c.decoded := by
  unfold observeSeq
  split
  · rfl
  · split <;> rfl

theorem observeSeq_tracks (c : Client) (track : GoString) (seq : UInt32) :
    (c.observeSeq track seq).tracks = c.tracks := by
  unfold observeSeq
  split
  · rfl
  · split <;> rfl

theorem observeSeq_drains (c : Client) (track : GoString) (seq : UInt32) :
    (c.observeSeq track seq).drains = c.drains := by
  unfold observeSeq
  split
  · rfl
  · split <;> rfl

theorem grows_of_effect {st} (h : Effect c st c') : Grows c c' := by
  cases h with
  | decode => exact ⟨prefix_rfl, prefix_append _ _⟩
  | recvOn =>
    refine ⟨?_, prefix_rfl⟩
    show c.calls.map RecvOnCall.track <+: (c.calls ++ [_]).map RecvOnCall.track
    rw [map_append]
    exact prefix_append _ _
  | findDone hget | take hget | takeErr hget | takeDone hget | cancel hget | seeClosed hget
  | endErr hget | endClosed hget => exact .of_set hget rfl rfl
  | @observe i call au hget =>
    have hcalls : ((c.observeSeq call.track au.seq).setPhase i call (.returned au none)).calls =
        c.calls.set i { call with phase := .returned au none } := by
      simp only [setPhase, observeSeq_calls]
    exact .of_set hget hcalls (observeSeq_decoded _ _ _)
  | _ => exact .of_eq rfl rfl

end Client

end QuicRTC

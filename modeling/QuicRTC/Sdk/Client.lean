import QuicRTC.Framework.System
import QuicRTC.Framework.Slots
import QuicRTC.Sdk.TrackReceiver
import QuicRTC.Wire.Frame

/-! # The TypeScript Client

`QuicRTCClient` of `ts-sdk/src/client.ts`, its receiving side and the life of the connection with
the automatic reconnect.

The program has one thread. A step is the code between two `await`s, and every drain is somewhere in
its own loop while the rest goes on. A drain holds on to the receiver it started with, whatever
happens to the map.
-/

namespace QuicRTC.Sdk

open Wire

/-! ## Data -/

structure AccessUnit where
  bytes : List UInt8
  keyframe : Bool
  ptsMicro : UInt64
  seq : UInt32
  discontinuity : Bool
  pubWallMicro : Option UInt64
deriving DecidableEq

def accessUnit (f : FeedFrame) : AccessUnit where
  bytes := f.payload
  keyframe := f.typ == typeKeyframe || (f.flags &&& flagKeyframe) != 0
  ptsMicro := f.ptsMicro
  seq := f.seq
  discontinuity := (f.flags &&& flagDiscontinuity) != 0
  -- Undefined without the flag.
  pubWallMicro := if (f.flags &&& flagPublishWall) != 0 then some f.pubWallMicro else none

/-- With the names the two validators let pass. -/
structure Options where
  maxQueueSize : Option Int
  reconnect : Option Bool
  maxRetries : Option Int
  validateLocalTrackName : GoString → Bool
  validateRemoteTrackName : GoString → Bool

def Options.reconnectEnabled (o : Options) : Bool := o.reconnect.getD true

/-- No name is refused. -/
def Options.defaults : Options where
  maxQueueSize := none
  reconnect := none
  maxRetries := none
  validateLocalTrackName := fun _ => true
  validateRemoteTrackName := fun _ => true

/-- Where `drainFeedStream` waits. -/
inductive Drain where
  | peeking
  /-- With the name and the receiver it looked up. -/
  | reading (track : GoString) (receiver : Nat)
  | exited
deriving DecidableEq

inductive Phase where
  /-- Before the HELLO. -/
  | connecting
  /-- The HELLO is out. -/
  | handshaking
  | connected
  | closing
  /-- In the rest of `close`. -/
  | closed
  /-- In `teardownTransport`. -/
  | tearing
  /-- The timer of the reconnect is armed. -/
  | backoff
  | stopped
deriving DecidableEq

structure Drained where
  track : GoString
  receiver : Nat
  au : AccessUnit
deriving DecidableEq

/-- With what had happened when it was sent; `droppedAUs` has the counters of the receivers
    then. `afterError`: the connection before was lost to an error on its control stream. -/
structure SentHello where
  session : Option GoString
  lastSeen : GoMap UInt32
  afterError : Bool
  drained : List Drained
  events : List (Nat × Event AccessUnit)
  droppedAUs : List Nat

/-- `receivers` has every receiver ever created, `tracks` the current ones. `sessionId` is
    the one in `connectOptions`. -/
structure QuicRTCClient where
  opts : Options
  phase : Phase
  afterError : Bool
  tracks : GoMap Nat
  receivers : List (TrackReceiver AccessUnit)
  lastSeqByTrack : GoMap UInt32
  sessionIdValue : Option GoString
  sessionId : Option GoString
  closed : Bool
  /-- The signal of the current `abortController`. -/
  isAborted : Bool
  currentRetry : Nat
  accepting : Bool
  drains : List Drain
  /-- The number of `recv` calls. -/
  calls : Nat
  drained : List Drained
  events : List (Nat × Event AccessUnit)
  hellos : List SentHello

namespace QuicRTCClient

/-! ## Receivers -/

def onReceiver (c : QuicRTCClient) (i : Nat)
    (res : TrackReceiver AccessUnit × List (Event AccessUnit)) : QuicRTCClient :=
  { c with receivers := c.receivers.set i res.1, events := c.events ++ res.2.map (fun e => (i, e)) }

def createTrack (c : QuicRTCClient) (name : GoString) : QuicRTCClient :=
  { c with
    tracks := c.tracks.insert name c.receivers.length
    receivers := c.receivers ++ [.new name (c.opts.maxQueueSize.getD 100)] }

def getOrCreateTrack (c : QuicRTCClient) (name : GoString) : QuicRTCClient × Nat :=
  match c.tracks.lookup name with
  | some i => (c, i)
  | none => (c.createTrack name, c.receivers.length)

def onTrackOf (c : QuicRTCClient) (name : GoString)
    (f : TrackReceiver AccessUnit → TrackReceiver AccessUnit × List (Event AccessUnit)) : QuicRTCClient :=
  let (c', i) := c.getOrCreateTrack name
  match c'.receivers[i]? with
  | some r => c'.onReceiver i (f r)
  | none => c'

def recvOn (c : QuicRTCClient) (name : GoString) (timed abortable isAborted : Bool) : QuicRTCClient :=
  if c.opts.validateLocalTrackName name then
    { c.onTrackOf name (fun r => r.recv ⟨c.calls, timed, abortable⟩ isAborted) with calls := c.calls + 1 }
  else { c with calls := c.calls + 1 }

def onTrack (c : QuicRTCClient) (name : GoString) (callback : Nat) : QuicRTCClient :=
  if c.opts.validateLocalTrackName name then c.onTrackOf name (fun r => r.onAU callback) else c

def closeReceiver (c : QuicRTCClient) (i : Nat) : QuicRTCClient :=
  match c.receivers[i]? with
  | some r => c.onReceiver i r.close
  | none => c

def closeTracks (c : QuicRTCClient) : QuicRTCClient :=
  { (c.tracks.entries.map Sigma.snd).foldl closeReceiver c with tracks := ∅ }

def handleUnannounce (c : QuicRTCClient) (name : GoString) : QuicRTCClient :=
  match c.tracks.lookup name with
  | some i => closeReceiver { c with tracks := c.tracks.erase name } i
  | none => c

def handleAnnounce (c : QuicRTCClient) (name : GoString) : QuicRTCClient :=
  if c.opts.validateRemoteTrackName name then (c.getOrCreateTrack name).1 else c

/-! ## Drains -/

def setDrain (c : QuicRTCClient) (d : Nat) (drain : Drain) : QuicRTCClient :=
  { c with drains := c.drains.set d drain }

def loopHead (c : QuicRTCClient) (d : Nat) (track : GoString) (i : Nat) : QuicRTCClient :=
  c.setDrain d (if !c.closed && !c.isAborted then .reading track i else .exited)

def gotHeader (c : QuicRTCClient) (d : Nat) (name : GoString) : QuicRTCClient :=
  let finalName := if name = [] then str "primary" else name
  if c.opts.validateRemoteTrackName finalName then
    let (c', i) := c.getOrCreateTrack finalName
    c'.loopHead d finalName i
  else c.setDrain d .exited

/-- The cursor moves, and the receiver gets the unit. -/
def gotFrame (c : QuicRTCClient) (d : Nat) (track : GoString) (i : Nat)
    (r : TrackReceiver AccessUnit) (f : FeedFrame) : QuicRTCClient :=
  loopHead
    { c.onReceiver i (r.deliver (accessUnit f)) with
      -- `set`, not a maximum.
      lastSeqByTrack := c.lastSeqByTrack.insert track f.seq
      drained := c.drained ++ [⟨track, i, accessUnit f⟩] } d track i

/-! ## The connection -/

def scheduleReconnect (c : QuicRTCClient) : QuicRTCClient :=
  if c.opts.maxRetries.getD 5 ≤ c.currentRetry then { c with phase := .stopped }
  else { c with currentRetry := c.currentRetry + 1, phase := .backoff }

/-- Its first part. -/
def startClose (c : QuicRTCClient) : QuicRTCClient :=
  { c with phase := .closing, closed := true, currentRetry := 0, isAborted := true }

def timerFires (c : QuicRTCClient) : QuicRTCClient :=
  { c with
    phase := .connecting
    closed := false
    isAborted := false
    sessionId := match c.sessionIdValue with
      | some s => if s = [] then c.sessionId else some s
      | none => c.sessionId }

def lastSeen (c : QuicRTCClient) : GoMap UInt32 :=
  match c.sessionId with
  | some s => if s = [] then ∅ else c.lastSeqByTrack
  | none => ∅

/-- `handshake` up to its HELLO. -/
def sendHello (c : QuicRTCClient) : QuicRTCClient :=
  { c with
    phase := .handshaking
    hellos := c.hellos ++ [⟨c.sessionId, c.lastSeen, c.afterError, c.drained, c.events,
      c.receivers.map TrackReceiver.droppedAUs⟩] }

/-- The loops start. -/
def gotSDP (c : QuicRTCClient) (session : Option GoString) : QuicRTCClient :=
  { c with
    phase := .connected
    afterError := false
    sessionIdValue := session
    currentRetry := 0
    accepting := true }

/-! ## The system -/

inductive Label where
  | recvOn (name : GoString) (timed abortable isAborted : Bool)
  /-- The timer of a pending `recv` fires. -/
  | timeout (i : Nat) (w : Waiter)
  | abort (i : Nat) (w : Waiter)
  | onTrack (name : GoString) (callback : Nat)
  | accept
  | header (d : Nat) (name : GoString)
  | frame (d : Nat) (f : FeedFrame)
  | streamEnds (d : Nat)
  | announce (name : GoString)
  | unannounce (name : GoString)
  | controlError
  /-- A CLOSE frame. -/
  | serverClose
  | closeTracks
  | closeDone
  | tornDown
  | timer
  | hello
  | connectFails
  | sdp (session : Option GoString)

def waiterStep (c : QuicRTCClient) (i : Nat)
    (f : TrackReceiver AccessUnit → Option (TrackReceiver AccessUnit × List (Event AccessUnit))) :
    Option QuicRTCClient := do
  let r ← c.receivers[i]?
  let res ← f r
  some (c.onReceiver i res)

/-- `none`: the label is not enabled. -/
def next (c : QuicRTCClient) : Label → Option QuicRTCClient
  | .recvOn name timed abortable isAborted => some (c.recvOn name timed abortable isAborted)
  | .timeout i w => c.waiterStep i (fun r => r.timeout w)
  | .abort i w => c.waiterStep i (fun r => r.abort w)
  | .onTrack name callback => some (c.onTrack name callback)
  | .accept => if c.accepting then some { c with drains := c.drains ++ [.peeking] } else none
  | .header d name => if c.drains[d]? = some .peeking then some (c.gotHeader d name) else none
  | .frame d f =>
    match c.drains[d]? with
    | some (.reading track i) => (c.receivers[i]?).map (fun r => c.gotFrame d track i r f)
    | _ => none
  | .streamEnds d => if d < c.drains.length then some (c.setDrain d .exited) else none
  | .announce name => if c.phase = .connected then some (c.handleAnnounce name) else none
  | .unannounce name => if c.phase = .connected then some (c.handleUnannounce name) else none
  | .controlError =>
    if c.phase = .connected then some { c.startClose with afterError := true } else none
  | .serverClose =>
    if c.phase = .connected then
      if c.opts.reconnectEnabled then some { c with phase := .tearing, isAborted := true }
      else some c.startClose
    else none
  | .closeTracks => if c.phase = .closing then some { c.closeTracks with phase := .closed } else none
  | .closeDone =>
    if c.phase = .closed then
      some (if c.opts.reconnectEnabled then c.scheduleReconnect else { c with phase := .stopped })
    else none
  | .tornDown =>
    if c.phase = .tearing then some { c with isAborted := false, afterError := false }.scheduleReconnect
    else none
  | .timer => if c.phase = .backoff then some c.timerFires else none
  | .hello => if c.phase = .connecting then some c.sendHello else none
  | .connectFails =>
    if c.phase = .connecting ∨ c.phase = .handshaking then
      some (if c.opts.reconnectEnabled && !c.closed then c.scheduleReconnect
            else { c with phase := .stopped })
    else none
  | .sdp session => if c.phase = .handshaking then some (c.gotSDP session) else none

/-- `connect` has been called. -/
def start (opts : Options) (sessionId : Option GoString) : QuicRTCClient where
  opts := opts
  phase := .connecting
  afterError := false
  tracks := ∅
  receivers := []
  lastSeqByTrack := ∅
  sessionIdValue := none
  sessionId := sessionId
  closed := false
  isAborted := false
  currentRetry := 0
  accepting := false
  drains := []
  calls := 0
  drained := []
  events := []
  hellos := []

def clientSystem (opts : Options) (sessionId : Option GoString) : LTS.System QuicRTCClient Label :=
  LTS.ofFun (start opts sessionId) next

end QuicRTCClient

end QuicRTC.Sdk

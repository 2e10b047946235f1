import QuicRTC.Resume.Replay
import QuicRTC.Server.Store
import QuicRTC.Session.Handshake

/-! # The Server

`server/server.go`: the track table, the sessions, and the functions that connect the two.
Broadcasters, receivers and sessions are shared objects and live in heaps indexed by their identity.
A function that holds a lock only for parts of its work has a definition for each part
(`registerTrack`, `attachAdded`, ...).
-/

namespace QuicRTC

open Wire Function

/-! ## State -/

structure TrackEntry where
  name : GoString
  kind : Kind
  priority : UInt8
  trackID : UInt8
  bc : BroadcasterId
  deriving DecidableEq

/-- Zero values pick defaults. -/
structure TrackSpec where
  name : GoString
  kind : Kind
  priority : UInt8
  trackID : UInt8
  deriving DecidableEq

/-- `none` once detached; with what its detach functions remove. -/
structure RecorderEntry where
  recorder : Option Nat
  detachers : GoMap (BroadcasterId × UInt64)

/-- `feedConfig` is the one inside the session configuration, `scheduler` the answer of
    `schedulerEnabled`. -/
structure ServerConfig where
  slug : GoString
  authValidator : Option (GoString → Option GoString)
  sdp : SDP
  supportedFeatures : Option (List GoString)
  feedConfig : FeedConfig
  perSubscriberBuffer : Int
  scheduler : Bool

abbrev SessionRef := Nat

structure Server where
  cfg : ServerConfig
  tracks : GoMap TrackEntry
  sessions : List SessionRef
  store : MemorySessionStore
  draining : Bool
  recorders : List RecorderEntry
  broadcasters : BroadcasterId → Broadcaster
  nextBroadcaster : BroadcasterId
  heap : ReceiverId → Receiver
  nextReceiver : ReceiverId
  sessionAt : SessionRef → Session
  nextSession : SessionRef

def defaultSupportedFeatures : List GoString :=
  [str "resume", str "backpressure", str "publishback", str "stream-header", str "kind-stats"]

/-- Every transport hook of the feed is wired. -/
def ServerConfig.sessionConfig (cfg : ServerConfig) : SessionConfig where
  expectSlug := cfg.slug
  authValidator := cfg.authValidator
  supportedFeatures := cfg.supportedFeatures.getD defaultSupportedFeatures
  sdp := cfg.sdp
  feedConfig := { cfg.feedConfig with
    datagramSender := true
    bidiOpener := true
    fallbackOpener := true
    scheduler := if cfg.scheduler then true else cfg.feedConfig.scheduler }

namespace Server

/-! ## Objects -/

def pubsub (s : Server) (b : BroadcasterId) : PubSub where
  bc := s.broadcasters b
  heap := s.heap
  fresh := s.nextReceiver

def onBroadcaster (s : Server) (b : BroadcasterId) (f : PubSub → PubSub) : Server :=
  { s with
    broadcasters := update s.broadcasters b (f (s.pubsub b)).bc
    heap := (f (s.pubsub b)).heap
    nextReceiver := (f (s.pubsub b)).fresh }

def onSession (s : Server) (ref : SessionRef) (f : Session → Session) : Server :=
  { s with sessionAt := update s.sessionAt ref (f (s.sessionAt ref)) }

def unsubscribeAll (s : Server) (pairs : List (BroadcasterId × ReceiverId)) : Server :=
  pairs.foldl (fun s p => s.onBroadcaster p.1 (fun ps => ps.unsubscribe p.2)) s

/-! ## `AddTrackSpec` -/

/-- One turn of `attachRecordersToTrack`. -/
def attachRecorder (name : GoString) (b : BroadcasterId) (bc : Broadcaster) (e : RecorderEntry) :
    Broadcaster × RecorderEntry :=
  match e.recorder with
  | none => (bc, e)
  | some _ =>
    -- The recording interceptor passes the unit on.
    match bc.addInterceptor (some (fun au => some au)) with
    | (bc, none) => (bc, e)
    | (bc, some id) => (bc, { e with detachers := e.detachers.insert name (b, id) })

def attachRecordersToTrack (name : GoString) (b : BroadcasterId) :
    Broadcaster → List RecorderEntry → Broadcaster × List RecorderEntry
  | bc, [] => (bc, [])
  | bc, e :: es =>
    let (bc, e) := attachRecorder name b bc e
    let (bc, es) := attachRecordersToTrack name b bc es
    (bc, e :: es)

def trackBroadcaster (s : Server) (kind : Kind) : Broadcaster :=
  let bc := newBroadcaster s.cfg.perSubscriberBuffer
  if kind ≠ .video ∧ kind ≠ .unset then bc.setSelfContained true else bc

/-- The `trackMu` section of `addTrackInternal`: the new broadcaster and the sessions to
    notify. -/
def registerTrack (s : Server) (name : GoString) (kind : Kind) (priority trackID : UInt8) :
    Server × Option (BroadcasterId × List SessionRef) :=
  match s.tracks.lookup name with
  -- The caller gets the publisher of the track that is there.
  | some _ => (s, none)
  | none =>
    let b := s.nextBroadcaster
    -- Recorders are attached while `trackMu` is held.
    let (bc, recorders) := attachRecordersToTrack name b (s.trackBroadcaster kind) s.recorders
    ({ s with
        tracks := s.tracks.insert name
          { name := name, kind := kind, priority := priority, trackID := trackID, bc := b }
        broadcasters := update s.broadcasters b bc
        nextBroadcaster := b + 1
        recorders := recorders }, some (b, s.sessions))

def attachAdded (s : Server) (b : BroadcasterId) (name : GoString) (kind : Kind)
    (priority trackID : UInt8) (ref : SessionRef) : Server :=
  let r := s.nextReceiver
  (s.onBroadcaster b PubSub.subscribe).onSession ref
    (fun sess => sess.attachTrackWithKind name kind r priority trackID)

/-- `accepted` tells whose control stream takes the announcement. -/
def addTrackInternal (codec : Codec) (accepted : SessionRef → Bool) (s : Server) (name : GoString)
    (kind : Kind) (priority trackID : UInt8) : Server :=
  match s.registerTrack name kind priority trackID with
  | (s, none) => s
  | (s, some (b, refs)) =>
    refs.foldl (fun s ref =>
      (s.attachAdded b name kind priority trackID ref).onSession ref
        (fun sess => sess.sendAnnounce codec (accepted ref) name kind.toGoString [])) s

def specKind (spec : TrackSpec) : Kind := if spec.kind = .unset then .video else spec.kind

def specPriority (spec : TrackSpec) : UInt8 :=
  if spec.priority = 0 then defaultPriority (specKind spec) else spec.priority

def addTrackSpec (codec : Codec) (accepted : SessionRef → Bool) (s : Server) (spec : TrackSpec) :
    Server :=
  s.addTrackInternal codec accepted spec.name (specKind spec) (specPriority spec) spec.trackID

/-- The `trackMu` section of `RemoveTrack`. -/
def unregisterTrack (s : Server) (name : GoString) :
    Server × Option (TrackEntry × List SessionRef) :=
  match s.tracks.lookup name with
  | none => (s, none)
  | some t => ({ s with tracks := s.tracks.erase name }, some (t, s.sessions))

def removeTrack (codec : Codec) (accepted : SessionRef → Bool) (s : Server) (name : GoString) :
    Server :=
  match s.unregisterTrack name with
  | (s, none) => s
  | (s, some (t, refs)) =>
    (refs.foldl (fun s ref => s.onSession ref (fun sess =>
      (sess.detachTrack name).sendUnannounce codec (accepted ref) name)) s).onBroadcaster
      t.bc PubSub.close

/-! ## The callbacks of a session -/

def priorityFor (s : Server) (name : GoString) : UInt8 :=
  match s.tracks.lookup name with
  | some t => t.priority
  | none => 4

def trackIDFor (s : Server) (name : GoString) : UInt8 :=
  match s.tracks.lookup name with
  | some t => t.trackID
  | none => 0

def kindFor (s : Server) (name : GoString) : Kind :=
  match s.tracks.lookup name with
  | some t => if t.kind ≠ .unset then t.kind else .video
  -- A track that is gone by now counts as video.
  | none => .video

/-- Through `trackSnapshot`: a new receiver on every track. -/
def onFreshSession (s : Server) : GoMap ReceiverId × Server :=
  s.tracks.fold (fun acc _ t =>
    (acc.1.insert t.name acc.2.nextReceiver, acc.2.onBroadcaster t.bc PubSub.subscribe)) (∅, s)

/-- The turn of `OnResume` for one cursor. -/
def resumeTrack (receivers : GoMap ReceiverId) (s : Server) (name : GoString) (fromSeq : UInt32) :
    Server :=
  match receivers.lookup name, s.tracks.lookup name with
  | some r, some te =>
    { s with
      heap := update s.heap r
        (resumeReceiver (s.broadcasters te.bc) (te.kind = .video || te.kind = .unset) fromSeq
          (s.heap r)) }
  | _, _ => s

def onResume (now : Int) (tenant id : GoString) (lastSeen : GoMap UInt32) (s : Server) :
    Option (GoMap ReceiverId) × Server :=
  let (found, store, evicted) := s.store.resume now tenant id
  -- `evictExpiredLocked` runs the callbacks of expired entries under the store's lock.
  let s := { s with store := store }.unsubscribeAll evicted.flatten
  match found with
  | none => (none, s)
  | some receivers => (some receivers, lastSeen.fold (resumeTrack receivers) s)

/-- `newID` is what `AllocateID` mints, `now` the clock `Resume` reads. -/
def callbacks (now : Int) (newID : GoString) : Callbacks Server where
  onAllocateID := some (fun s => (newID, s))
  onResume := some (onResume now)
  onFreshSession := some onFreshSession
  onLookupPriority := some priorityFor
  onLookupTrackID := some trackIDFor
  onLookupKind := some kindFor

/-! ## The life of a session -/

/-- The new session is `s.nextSession`. -/
def addSession (s : Server) : Server :=
  { s with
    sessionAt := update s.sessionAt s.nextSession (Session.new s.cfg.sessionConfig)
    nextSession := s.nextSession + 1
    sessions := s.sessions ++ [s.nextSession] }

def runSession (codec : Codec) (now : Int) (newID : GoString) (io : ControlIO) (s : Server)
    (ref : SessionRef) : Server × Except HandshakeError Unit :=
  match (s.sessionAt ref).run codec (callbacks now newID) io s with
  | (sess, s, result) => ({ s with sessionAt := update s.sessionAt ref sess }, result)

def activeReceivers (s : Server) (ref : SessionRef) (tracks : List TrackEntry) :
    List (BroadcasterId × ReceiverId) :=
  tracks.flatMap (fun t => ((s.sessionAt ref).receivers t.name).map (fun r => (t.bc, r)))

/-- By name, and as pairs for the eviction. -/
def subscribeParked (s : Server) (tracks : List TrackEntry) : GoMap ReceiverId × OnEvict × Server :=
  tracks.foldl (fun acc t =>
    (acc.1.insert t.name acc.2.2.nextReceiver,
     acc.2.1 ++ [(t.bc, acc.2.2.nextReceiver)],
     acc.2.2.onBroadcaster t.bc (fun ps => ps.subscribeWithCapacity parkedChanCap))) (∅, [], s)

/-- `ctxDone` tells that the server's context ended; `now` and `later` are the store's clock
    readings. -/
def parkSession (s : Server) (ref : SessionRef) (ctxDone : Bool) (now later : Int) : Server :=
  let sess := s.sessionAt ref
  let tracks := s.tracks.entries.map (fun e => e.2)
  if sess.sessionID = [] || ctxDone || s.draining then
    s.unsubscribeAll (s.activeReceivers ref tracks)
  else
    -- First the new receivers, then the old ones go: no unit falls between.
    let (parked, onEvict, s) := s.subscribeParked tracks
    let s := s.unsubscribeAll (s.activeReceivers ref tracks)
    let (store, evicted) := s.store.park now later sess.tenant sess.sessionID parked onEvict
    { s with store := store }.unsubscribeAll evicted.flatten

def removeSession (s : Server) (ref : SessionRef) : Server :=
  { s with sessions := s.sessions.filter (fun r => r ≠ ref) }

def endSession (s : Server) (ref : SessionRef) (ctxDone : Bool) (now later : Int) : Server :=
  (s.parkSession ref ctxDone now later).removeSession ref

def evictExpired (s : Server) (now : Int) : Server :=
  let (_, store, evicted) := s.store.evictExpired now
  { s with store := store }.unsubscribeAll evicted.flatten

def publish (s : Server) (b : BroadcasterId) (au : AccessUnit) : Server :=
  s.onBroadcaster b (fun ps => ps.publish au)

/-- Up to its wait. -/
def shutdown (accepted : SessionRef → Bool) (s : Server) : Server :=
  s.sessions.foldl (fun s ref => s.onSession ref (fun sess =>
    sess.sendClose (accepted ref) (str "server-shutdown"))) { s with draining := true }

end Server

def emptyServer (cfg : ServerConfig) (resumeWindow : Int) : Server where
  cfg := cfg
  tracks := ∅
  sessions := []
  store := newMemorySessionStore resumeWindow
  draining := false
  recorders := []
  broadcasters := fun _ => newBroadcaster cfg.perSubscriberBuffer
  nextBroadcaster := 0
  heap := fun _ => Receiver.absent
  nextReceiver := 0
  sessionAt := fun _ => Session.new cfg.sessionConfig
  nextSession := 0

/-- `primary` exists by default. -/
def newServer (codec : Codec) (cfg : ServerConfig) (resumeWindow : Int) : Server :=
  (emptyServer cfg resumeWindow).addTrackSpec codec (fun _ => true)
    { name := str "primary", kind := .unset, priority := 0, trackID := 0 }

/-- Everything at its zero value. -/
def plainConfig : ServerConfig where
  slug := []
  authValidator := none
  sdp :=
    { codec := [], width := 0, height := 0, fps := 0, screenW := 0, screenH := 0
      sessionID := [], features := [], negotiatedVersion := [] }
  supportedFeatures := none
  feedConfig := FeedConfig.zero
  perSubscriberBuffer := 0
  scheduler := false

/-- It sends `payload` as its HELLO, over a stream that takes everything. -/
def plainClient (payload : List UInt8) : ControlIO where
  deadlineSet := true
  read := some (typeHello, payload)
  errorAccepted := true
  sdpAccepted := true

end QuicRTC

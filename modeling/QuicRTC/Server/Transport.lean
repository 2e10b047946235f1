import QuicRTC.Server.PumpConfig

/-! # The Publisher's Transport

`server/transport.go`: the adapter that makes a server a transport of a `PeerConnection`, and the
legacy entry points of `server/server.go` that it and the relay go through. What a track should
become follows from the kind of its source (`TrackAs`); through the legacy entry points a track is
always video.
-/

namespace QuicRTC

open Wire Function

namespace Server

def addTrack (codec : Codec) (accepted : SessionRef → Bool) (s : Server) (name : GoString) :
    Server :=
  s.addTrackSpec codec accepted { name := name, kind := .unset, priority := 0, trackID := 0 }

def addTrackWithPriority (codec : Codec) (accepted : SessionRef → Bool) (s : Server)
    (name : GoString) (priority : UInt8) : Server :=
  s.addTrackSpec codec accepted
    { name := name, kind := .unset, priority := priority, trackID := 0 }

/-- The track that is there, or the new one. -/
def publisherFor (s : Server) (name : GoString) : BroadcasterId :=
  match s.tracks.lookup name with
  | some t => t.bc
  | none => s.nextBroadcaster

end Server

/-! ## What a track becomes -/

def Kind.orVideo (kind : Kind) : Kind := if kind = .unset then .video else kind

/-- All but video. -/
def Kind.independent (kind : Kind) : Bool := decide (kind.orVideo ≠ .video)

/-- Its own kind, the delivery class of its pumps and the overflow policy of its
    broadcaster. -/
structure TrackAs (source : Kind) (s : Server) (e : TrackEntry) : Prop where
  kind : e.kind = source.orVideo
  delivery : defaultDeliveryClass e.kind = defaultDeliveryClass source
  policy : (s.broadcasters e.bc).selfContained = source.independent

theorem defaultDeliveryClass_orVideo (kind : Kind) :
    defaultDeliveryClass kind.orVideo = defaultDeliveryClass kind := by
  cases kind <;> rfl

theorem attachRecordersToTrack_selfContained (name : GoString) (b : BroadcasterId)
    (bc : Broadcaster) (es : List RecorderEntry) :
    (Server.attachRecordersToTrack name b bc es).1.selfContained = bc.selfContained := by
  induction es generalizing bc with
  | nil => rfl
  | cons e es ih =>
    show (Server.attachRecordersToTrack name b (Server.attachRecorder name b bc e).1 es).1.selfContained
      = _
    rw [ih]
    unfold Server.attachRecorder
    cases e.recorder <;> rfl

theorem added_policy (codec : Codec) (accepted : SessionRef → Bool) {s : Server} {name}
    (hnew : s.tracks.lookup name = none) (kind : Kind) (priority trackID : UInt8) :
    ((s.addTrackInternal codec accepted name kind priority trackID).broadcasters
      s.nextBroadcaster).selfContained = decide (kind ≠ .video ∧ kind ≠ .unset) := by
  refine Server.addTrackInternal_induction (P := fun s' =>
      (s'.broadcasters s.nextBroadcaster).selfContained = decide (kind ≠ .video ∧ kind ≠ .unset))
    codec accepted name kind priority trackID ?_ ?_ (fun _ _ h => h)
  · simp only [Server.registerTrack, hnew, update_self]
    rw [attachRecordersToTrack_selfContained]
    unfold Server.trackBroadcaster
    split
    · next h => exact (decide_eq_true h).symm
    · next h => exact (decide_eq_false h).symm
  · intro s' b ref h
    show ((update s'.broadcasters b _) s.nextBroadcaster).selfContained = _
    by_cases hb : s.nextBroadcaster = b
    · subst hb
      rw [update_self]
      exact h
    · rw [update_of_ne hb]
      exact h

theorem trackAs_addTrackSpec (codec : Codec) (accepted : SessionRef → Bool) {s : Server}
    (spec : TrackSpec) (hnew : s.tracks.lookup spec.name = none) :
    ∃ e, (s.addTrackSpec codec accepted spec).tracks.lookup spec.name = some e ∧
      e.bc = s.nextBroadcaster ∧ TrackAs spec.kind (s.addTrackSpec codec accepted spec) e := by
  have hentry := Server.added_tracks codec accepted hnew (Server.specKind spec)
    (Server.specPriority spec) spec.trackID
  have hpolicy := added_policy codec accepted hnew (Server.specKind spec)
    (Server.specPriority spec) spec.trackID
  refine ⟨_, hentry, rfl, rfl, defaultDeliveryClass_orVideo spec.kind, hpolicy.trans ?_⟩
  show decide (spec.kind.orVideo ≠ .video ∧ spec.kind.orVideo ≠ .unset) = spec.kind.independent
  cases spec.kind <;> rfl

/-! ## The adapter -/

inductive TransportError where
  | notConnected
  deriving DecidableEq

structure TransportAdapter where
  srv : Server
  started : Bool
  senders : GoMap BroadcasterId

namespace TransportAdapter

def new (srv : Server) : TransportAdapter where
  srv := srv
  started := false
  senders := ∅

def trackName (name : GoString) : GoString := if name = [] then str "primary" else name

/-- The sender and the new state. -/
def publish (codec : Codec) (accepted : SessionRef → Bool) (t : TransportAdapter)
    (lt : LocalTrack) : Except TransportError (BroadcasterId × TransportAdapter) :=
  if !t.started then .error .notConnected
  else
    let name := trackName lt.name
    match t.senders.lookup name with
    | some existing => .ok (existing, t)
    | none =>
      let sender := t.srv.publisherFor name
      .ok (sender,
        { t with
          srv := t.srv.addTrackWithPriority codec accepted name lt.priority
          senders := t.senders.insert name sender })

theorem publish_new (codec : Codec) (accepted : SessionRef → Bool) {t : TransportAdapter}
    {lt : LocalTrack} (hstarted : t.started = true)
    (hsender : t.senders.lookup (trackName lt.name) = none) :
    t.publish codec accepted lt = .ok (t.srv.publisherFor (trackName lt.name),
      { t with
        srv := t.srv.addTrackWithPriority codec accepted (trackName lt.name) lt.priority
        senders := t.senders.insert (trackName lt.name) (t.srv.publisherFor (trackName lt.name)) }) := by
  unfold publish
  rw [hstarted]
  simp only [Bool.not_true, Bool.false_eq_true, if_false, hsender]

end TransportAdapter

end QuicRTC

import QuicRTC.Feed.Frame
import QuicRTC.Wire.Hello

/-! # Sessions

`session/session.go`: the state of one subscriber's connection, the functions that attach a track to
it, and the control frames. A function that calls back into the server takes the callback as an
argument.
-/

namespace QuicRTC

open Wire List GoMap

/-! ## State -/

/-- An `AuthValidator` returns the tenant, or `none` for any error. -/
structure SessionConfig where
  expectSlug : GoString
  authValidator : Option (GoString → Option GoString)
  supportedFeatures : List GoString
  sdp : SDP
  feedConfig : FeedConfig

/-- `id` is the identity of the record. -/
structure TrackPump where
  id : Nat
  name : GoString
  recv : ReceiverId
  cfg : FeedConfig
  deriving DecidableEq

structure ControlFrame where
  typ : UInt8
  payload : List UInt8
  deriving DecidableEq

structure Session where
  cfg : SessionConfig
  sessionID : GoString
  negotiatedFeatures : List GoString
  negotiatedVersion : GoString
  tenant : GoString
  helloSessionID : GoString
  helloLastSeenSeq : GoMap UInt32
  tracks : GoMap TrackPump
  runStarted : Bool
  resumedLeading : List GoString
  nextPump : Nat
  /-- A goroutine was started for them. -/
  pumps : List TrackPump
  /-- By identity. -/
  stopped : List Nat
  /-- Written so far. -/
  control : List ControlFrame

namespace Session

def new (cfg : SessionConfig) : Session where
  cfg := cfg
  sessionID := []
  negotiatedFeatures := []
  negotiatedVersion := []
  tenant := []
  helloSessionID := []
  helloLastSeenSeq := ∅
  tracks := ∅
  runStarted := false
  resumedLeading := []
  nextPump := 0
  pumps := []
  stopped := []
  control := []

/-! ## Features -/

def featureKindStats : GoString := str "kind-stats"

def hasNegotiatedFeature (s : Session) (feat : GoString) : Bool :=
  s.negotiatedFeatures.any (fun f => f == feat)

def intersectFeatures (a b : List GoString) : List GoString :=
  if a.length = 0 || b.length = 0 then []
  else a.filter (fun x => b.contains x)

theorem hasNegotiatedFeature_iff (s : Session) (feat : GoString) :
    s.hasNegotiatedFeature feat = true ↔ feat ∈ s.negotiatedFeatures := by
  simp [hasNegotiatedFeature]

/-! ## Attaching tracks -/

def pumpConfig (s : Session) (name : GoString) (kind : Kind) (priority trackID : UInt8) :
    FeedConfig :=
  { s.cfg.feedConfig with
    trackName := name
    priority := priority
    trackID := trackID
    -- An empty kind keeps what the session's configuration says.
    delivery := if kind ≠ .unset then defaultDeliveryClass kind
                           else s.cfg.feedConfig.delivery
    allowLeadingPFrames := if s.resumedLeading.contains name then true
                           else s.cfg.feedConfig.allowLeadingPFrames
    stampPublishWall := if s.hasNegotiatedFeature featureKindStats then true
                           else s.cfg.feedConfig.stampPublishWall }

/-- An attached name stays as it is; the pump starts at once if `Run` has reached its start
    section. -/
def attachTrackWithKind (s : Session) (name : GoString) (kind : Kind) (recv : ReceiverId)
    (priority trackID : UInt8) : Session :=
  match s.tracks.lookup name with
  | some _ => s
  | none =>
    let tp : TrackPump :=
      { id := s.nextPump, name := name, recv := recv, cfg := s.pumpConfig name kind priority trackID }
    { s with
      tracks := s.tracks.insert name tp
      nextPump := s.nextPump + 1
      pumps := if s.runStarted then s.pumps ++ [tp] else s.pumps }

def attachTrackWithTrackID (s : Session) (onLookupKind : Option (GoString → Kind))
    (name : GoString) (recv : ReceiverId) (priority trackID : UInt8) : Session :=
  let kind := match onLookupKind with
    | some lookup => lookup name
    | none => .unset
  s.attachTrackWithKind name kind recv priority trackID

def attachTrackWithPriority (s : Session) (onLookupKind : Option (GoString → Kind))
    (name : GoString) (recv : ReceiverId) (priority : UInt8) : Session :=
  s.attachTrackWithTrackID onLookupKind name recv priority 0

def attachTrack (s : Session) (onLookupKind : Option (GoString → Kind)) (name : GoString)
    (recv : ReceiverId) : Session :=
  s.attachTrackWithPriority onLookupKind name recv 4

def receivers (s : Session) (name : GoString) : List ReceiverId :=
  match s.tracks.lookup name with
  | some tp => [tp.recv]
  | none => []

def detachTrack (s : Session) (name : GoString) : Session :=
  match s.tracks.lookup name with
  | some tp => { s with tracks := s.tracks.erase name, stopped := s.stopped ++ [tp.id] }
  | none => s

/-- The receiver and the configuration of its pump. -/
def attachment (s : Session) (name : GoString) : Option (ReceiverId × FeedConfig) :=
  (s.tracks.lookup name).map (fun tp => (tp.recv, tp.cfg))

theorem recv_of_attachment {s : Session} {name} {o : Option ReceiverId}
    {cfg : ReceiverId → FeedConfig} (h : s.attachment name = o.map (fun r => (r, cfg r))) :
    (s.tracks.lookup name).map TrackPump.recv = o := by
  have hfst := congrArg (Option.map Prod.fst) h
  simpa [attachment, Option.map_map, Function.comp_def] using hfst

/-! ## What attaching changes -/

section Attach

variable (s : Session) (name : GoString) (kind : Kind) (recv : ReceiverId) (priority trackID : UInt8)

@[simp] theorem attachTrackWithKind_cfg :
    (s.attachTrackWithKind name kind recv priority trackID).cfg = s.cfg := by
  unfold attachTrackWithKind; split <;> rfl

@[simp] theorem attachTrackWithKind_negotiatedFeatures :
    (s.attachTrackWithKind name kind recv priority trackID).negotiatedFeatures =
      s.negotiatedFeatures := by
  unfold attachTrackWithKind; split <;> rfl

@[simp] theorem attachTrackWithKind_resumedLeading :
    (s.attachTrackWithKind name kind recv priority trackID).resumedLeading =
      s.resumedLeading := by
  unfold attachTrackWithKind; split <;> rfl

@[simp] theorem attachTrackWithKind_control :
    (s.attachTrackWithKind name kind recv priority trackID).control = s.control := by
  unfold attachTrackWithKind; split <;> rfl

@[simp] theorem attachTrackWithKind_pumpConfig (n : GoString) (k : Kind) (p t : UInt8) :
    (s.attachTrackWithKind name kind recv priority trackID).pumpConfig n k p t =
      s.pumpConfig n k p t := by
  simp [pumpConfig, hasNegotiatedFeature]

theorem attachTrackWithKind_attachment (n : GoString) :
    (s.attachTrackWithKind name kind recv priority trackID).attachment n =
      if n = name then s.attachment name <|> some (recv, s.pumpConfig name kind priority trackID)
      else s.attachment n := by
  unfold attachTrackWithKind
  by_cases h : n = name
  · subst h
    cases hl : s.tracks.lookup n with
    | some tp => simp [attachment, hl]
    | none => simp [attachment, hl, AList.lookup_insert]
  · rw [if_neg h]
    cases hl : s.tracks.lookup name with
    | some tp => rfl
    | none => simp [attachment, AList.lookup_insert_ne h]

theorem attachTrackWithKind_tracks {n tp}
    (h : (s.attachTrackWithKind name kind recv priority trackID).tracks.lookup n = some tp) :
    s.tracks.lookup n = some tp ∨ tp.recv = recv := by
  unfold attachTrackWithKind at h
  split at h
  · exact .inl h
  · rcases lookup_insert_eq_some_iff.mp h with ⟨-, rfl⟩ | ⟨-, hold⟩
    · exact .inr rfl
    · exact .inl hold

end Attach

theorem detachTrack_tracks {s : Session} {name n tp}
    (h : (s.detachTrack name).tracks.lookup n = some tp) : s.tracks.lookup n = some tp := by
  unfold detachTrack at h
  split at h
  · exact (lookup_erase_eq_some_iff.mp h).2
  · exact h

/-- The other arguments depend on the name. -/
def attachAll (s : Session) (kind : GoString → Kind) (priority trackID : GoString → UInt8)
    (receivers : GoMap ReceiverId) : Session :=
  receivers.fold
    (fun s name r => s.attachTrackWithKind name (kind name) r (priority name) (trackID name)) s

theorem attachAll_attachment (s : Session) (kind : GoString → Kind)
    (priority trackID : GoString → UInt8) (receivers : GoMap ReceiverId) (n : GoString) :
    (s.attachAll kind priority trackID receivers).attachment n =
      (s.attachment n <|> (receivers.lookup n).map
        (fun r => (r, s.pumpConfig n (kind n) (priority n) (trackID n)))) := by
  unfold attachAll GoMap.fold AList.lookup
  -- On a name that is attached by the head, the head wins over the rest
  -- as it does in the lookup.
  induction receivers.entries generalizing s with
  | nil => simp
  | cons e l ih =>
    rw [foldl_cons, ih, attachTrackWithKind_attachment]
    obtain ⟨name, r⟩ := e
    by_cases h : n = name
    · subst h
      cases s.attachment n <;> simp
    · rw [if_neg h, dlookup_cons_ne _ _ h]
      simp

/-! ## Control frames -/

def maxControlPayload : Nat := 64 * 1024

/-- `accepted` is the transport's answer; a frame that is too large is refused before. -/
def write (s : Session) (accepted : Bool) (typ : UInt8) (payload : List UInt8) : Session × Bool :=
  if maxControlPayload < payload.length then (s, false)
  else if accepted then ({ s with control := s.control ++ [⟨typ, payload⟩] }, true)
  else (s, false)

theorem write_frame (s : Session) (accepted : Bool) (typ : UInt8) (payload : List UInt8) :
    ∃ c, (s.write accepted typ payload).1 = { s with control := c } := by
  unfold write
  repeat' split
  all_goals exact ⟨_, rfl⟩

def sendAnnounce (codec : Codec) (accepted : Bool) (s : Session) (name kind codecName : GoString) :
    Session :=
  match codec.marshalAnnounce { name := name, kind := kind, codec := codecName } with
  | none => s
  | some body => (s.write accepted typeAnnounce body).1

def sendUnannounce (codec : Codec) (accepted : Bool) (s : Session) (name : GoString) : Session :=
  match codec.marshalUnannounce { name := name } with
  | none => s
  | some body => (s.write accepted typeUnannounce body).1

theorem sendAnnounce_frame (codec : Codec) (accepted : Bool) (s : Session)
    (name kind codecName : GoString) :
    ∃ c, s.sendAnnounce codec accepted name kind codecName = { s with control := c } := by
  unfold sendAnnounce
  split
  · exact ⟨_, rfl⟩
  · exact s.write_frame accepted typeAnnounce _

theorem sendUnannounce_frame (codec : Codec) (accepted : Bool) (s : Session) (name : GoString) :
    ∃ c, s.sendUnannounce codec accepted name = { s with control := c } := by
  unfold sendUnannounce
  split
  · exact ⟨_, rfl⟩
  · exact s.write_frame accepted typeUnannounce _

def sendClose (accepted : Bool) (s : Session) (reason : GoString) : Session :=
  (s.write accepted typeClose reason).1

/-! ## Who the session is -/

/-- A park files the session under it. -/
def identity (s : Session) : GoString × GoString := (s.tenant, s.sessionID)

@[simp] theorem attachTrackWithKind_identity (s : Session) (name : GoString) (kind : Kind)
    (recv : ReceiverId) (priority trackID : UInt8) :
    (s.attachTrackWithKind name kind recv priority trackID).identity = s.identity := by
  unfold attachTrackWithKind
  split <;> rfl

theorem attachAll_identity (s : Session) (kind : GoString → Kind)
    (priority trackID : GoString → UInt8) (receivers : GoMap ReceiverId) :
    (s.attachAll kind priority trackID receivers).identity = s.identity := by
  refine fold_induction (P := fun s' : Session => s'.identity = s.identity) rfl ?_
  intro s' name r h
  rw [attachTrackWithKind_identity, h]

@[simp] theorem detachTrack_identity (s : Session) (name : GoString) :
    (s.detachTrack name).identity = s.identity := by
  unfold detachTrack
  split <;> rfl

@[simp] theorem sendAnnounce_identity (codec : Codec) (accepted : Bool) (s : Session)
    (name kind codecName : GoString) :
    (s.sendAnnounce codec accepted name kind codecName).identity = s.identity := by
  obtain ⟨c, hc⟩ := sendAnnounce_frame codec accepted s name kind codecName
  rw [hc]
  rfl

@[simp] theorem sendUnannounce_identity (codec : Codec) (accepted : Bool) (s : Session)
    (name : GoString) : (s.sendUnannounce codec accepted name).identity = s.identity := by
  obtain ⟨c, hc⟩ := sendUnannounce_frame codec accepted s name
  rw [hc]
  rfl

/-! ## What other goroutines change -/

/-- `AddTrackSpec`, `RemoveTrack` and `Shutdown` keep this. -/
structure Extends (s s' : Session) : Prop where
  cfg : s'.cfg = s.cfg
  features : s'.negotiatedFeatures = s.negotiatedFeatures
  started : s'.runStarted = s.runStarted
  control : s.control <+: s'.control

theorem Extends.refl (s : Session) : Extends s s := ⟨rfl, rfl, rfl, prefix_rfl⟩

theorem Extends.trans {s s' s''} (h : Extends s s') (h' : Extends s' s'') :
    Extends s s'' where
  cfg := h'.cfg.trans h.cfg
  features := h'.features.trans h.features
  started := h'.started.trans h.started
  control := h.control.trans h'.control

theorem extends_attach (s : Session) (name : GoString) (kind : Kind) (recv : ReceiverId)
    (priority trackID : UInt8) : s.Extends (s.attachTrackWithKind name kind recv priority trackID) := by
  unfold attachTrackWithKind
  split <;> exact ⟨rfl, rfl, rfl, prefix_rfl⟩

theorem extends_detach (s : Session) (name : GoString) : s.Extends (s.detachTrack name) := by
  unfold detachTrack
  split <;> exact ⟨rfl, rfl, rfl, prefix_rfl⟩

theorem extends_write (s : Session) (accepted : Bool) (typ : UInt8) (payload : List UInt8) :
    s.Extends (s.write accepted typ payload).1 := by
  unfold write
  split
  · exact Extends.refl s
  · split
    · exact ⟨rfl, rfl, rfl, prefix_append _ _⟩
    · exact Extends.refl s

theorem extends_sendAnnounce (codec : Codec) (accepted : Bool) (s : Session)
    (name kind codecName : GoString) :
    s.Extends (s.sendAnnounce codec accepted name kind codecName) := by
  unfold sendAnnounce
  split
  · exact Extends.refl s
  · exact s.extends_write accepted typeAnnounce _

theorem extends_sendUnannounce (codec : Codec) (accepted : Bool) (s : Session) (name : GoString) :
    s.Extends (s.sendUnannounce codec accepted name) := by
  unfold sendUnannounce
  split
  · exact Extends.refl s
  · exact s.extends_write accepted typeUnannounce _

end Session

end QuicRTC

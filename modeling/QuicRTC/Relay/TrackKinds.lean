import QuicRTC.Relay.Relay
import QuicRTC.Server.Transport

/-! # Track Kinds across the Relay and the Transport

The downstream side of `relay/relay.go`: who owns a track name, the publishers by name, and
`getOrCreatePublisher`.

The relay and the transport adapter create tracks through entry points of the server without a kind,
so the kind of the source arrives only if it is video.
-/

namespace QuicRTC

open Wire Client

/-! ## The downstream side -/

/-- What the upstream sessions share. -/
structure Downstream where
  srv : Server
  /-- Nil where `primary` was gone. -/
  pubs : GoMap (Option BroadcasterId)
  /-- The URL that claimed a name first. -/
  trackOwner : GoMap GoString

namespace Downstream

def claimTrack (d : Downstream) (name upstreamURL : GoString) : Downstream × Bool :=
  match d.trackOwner.lookup name with
  | some owner => (d, decide (owner = upstreamURL))
  | none => ({ d with trackOwner := d.trackOwner.insert name upstreamURL }, true)

/-- The publisher is left in `pubs`. -/
def getOrCreatePublisher (codec : Codec) (accepted : SessionRef → Bool) (d : Downstream)
    (name : GoString) : Downstream :=
  match d.pubs.lookup name with
  | some _ => d
  | none =>
    if name = str "primary" then
      -- `Publisher` creates nothing.
      { d with pubs := d.pubs.insert name ((d.srv.tracks.lookup name).map TrackEntry.bc) }
    else
      { d with
        srv := d.srv.addTrack codec accepted name
        pubs := d.pubs.insert name (some (d.srv.publisherFor name)) }

def startPump (codec : Codec) (accepted : SessionRef → Bool) (d : Downstream) (r : Relay)
    (upstreamURL name : GoString) : Downstream × Relay :=
  if name ∈ r.pumped then (d, r)
  else if 0 ≤ r.maxTracksPerUpstream ∧ r.maxTracksPerUpstream ≤ r.pumped.length then (d, r)
  else
    match d.claimTrack name upstreamURL with
    | (d, false) => (d, r)
    | (d, true) =>
      (d.getOrCreatePublisher codec accepted name, { r with pumps := r.pumps ++ [⟨name, .ready⟩] })

theorem claimTrack_srv (d : Downstream) (name upstreamURL : GoString) :
    (d.claimTrack name upstreamURL).1.srv = d.srv := by
  unfold claimTrack
  split <;> rfl

/-- The session's own part. -/
theorem startPump_relay (codec : Codec) (accepted : SessionRef → Bool) (d : Downstream) (r : Relay)
    (upstreamURL name : GoString) :
    (d.startPump codec accepted r upstreamURL name).2 =
      r.startPump name (d.claimTrack name upstreamURL).2 := by
  unfold startPump Relay.startPump
  split
  · rfl
  · split
    · rfl
    · split
      · next heq => rw [heq]; rfl
      · next heq => rw [heq]; rfl

theorem startPump_srv (codec : Codec) (accepted : SessionRef → Bool) (d : Downstream) (r : Relay)
    (upstreamURL name : GoString) :
    (d.startPump codec accepted r upstreamURL name).1.srv = d.srv ∨
      (d.startPump codec accepted r upstreamURL name).1.srv = d.srv.addTrack codec accepted name := by
  have hclaim := d.claimTrack_srv name upstreamURL
  unfold startPump
  split
  · exact Or.inl rfl
  · split
    · exact Or.inl rfl
    · split
      · next heq =>
        rw [heq] at hclaim
        exact Or.inl hclaim
      · next d' heq =>
        rw [heq] at hclaim
        have hclaim : d'.srv = d.srv := hclaim
        unfold getOrCreatePublisher
        split
        · exact Or.inl hclaim
        · split
          · exact Or.inl hclaim
          · exact Or.inr (by rw [← hclaim])

end Downstream

/-- The kind is kept, with what it asks for, exactly if it is video. -/
structure KeptIfVideo (source : Kind) (s : Server) (e : TrackEntry) : Prop where
  kind : e.kind = source.orVideo ↔ source.orVideo = .video
  track : TrackAs source s e ↔ source.orVideo = .video

theorem TrackAs.keptIfVideo {s e} (h : TrackAs .unset s e) (source : Kind) :
    KeptIfVideo source s e := by
  have hkind : e.kind = source.orVideo ↔ source.orVideo = .video := by
    rw [h.kind]
    exact eq_comm
  refine ⟨hkind, fun has => hkind.mp has.kind, fun hvideo => ?_⟩
  cases source with
  | unset => exact h
  | video => exact { h with }
  | _ => cases hvideo

/-- **Kinds.** Exactly the video sources keep their kind, delivery class and overflow
    policy, on the relay's tracks and on the transport's. -/
theorem kind_preserved_iff_video (codec : Codec) (accepted : SessionRef → Bool) :
    (∀ (d : Downstream) (r : Relay) (upstreamURL name : GoString) (a : Announce) (e : TrackEntry),
      r.client.remoteTracks.lookup name = some a → d.srv.tracks.lookup name = none →
      (d.startPump codec accepted r upstreamURL name).1.srv.tracks.lookup name = some e →
      KeptIfVideo (Kind.ofGoString a.kind)
        (d.startPump codec accepted r upstreamURL name).1.srv e) ∧
    (∀ (t : TransportAdapter) (lt : LocalTrack), t.started = true →
      t.senders.lookup (TransportAdapter.trackName lt.name) = none →
      t.srv.tracks.lookup (TransportAdapter.trackName lt.name) = none →
      ∃ sender t' e, t.publish codec accepted lt = .ok (sender, t') ∧
        t'.srv.tracks.lookup (TransportAdapter.trackName lt.name) = some e ∧ e.bc = sender ∧
        KeptIfVideo lt.kind t'.srv e) := by
  constructor
  · intro d r upstreamURL name a e _ hnew he
    rcases d.startPump_srv codec accepted r upstreamURL name with hsame | hadded
    · rw [hsame, hnew] at he
      cases he
    · obtain ⟨e', he', -, has⟩ := trackAs_addTrackSpec codec accepted
        { name := name, kind := .unset, priority := 0, trackID := 0 } hnew
      rw [hadded] at he ⊢
      obtain rfl : e' = e := Option.mem_unique he' he
      exact has.keptIfVideo _
  · intro t lt hstarted hsender hnew
    obtain ⟨e, he, hbc, has⟩ := trackAs_addTrackSpec codec accepted
      { name := TransportAdapter.trackName lt.name, kind := .unset, priority := lt.priority,
        trackID := 0 } hnew
    have hpub : t.srv.publisherFor (TransportAdapter.trackName lt.name) = t.srv.nextBroadcaster := by
      unfold Server.publisherFor
      rw [hnew]
    refine ⟨_, _, e, TransportAdapter.publish_new codec accepted hstarted hsender, he, ?_,
      has.keptIfVideo _⟩
    rw [hbc, hpub]

/-! ## Concrete tracks -/

/-- Over a server with `primary`. -/
def freshDownstream : Downstream where
  srv := newServer plainCodec plainConfig 0
  pubs := ∅
  trackOwner := ∅

def announcedSession (a : Announce) : Relay :=
  { Relay.start (-1) true with client := (Client.start.handleRemoteAnnounce a).registerAnnounce a }

def startedTransport : TransportAdapter :=
  { TransportAdapter.new (newServer plainCodec plainConfig 0) with started := true }

theorem kind_preserved_iff_video_screen :
    (∃ e, (freshDownstream.startPump plainCodec (fun _ => true)
        (announcedSession ⟨str "screen", str "video", []⟩) (str "up") (str "screen")).1.srv.tracks.lookup
          (str "screen") = some e ∧ e.kind = .video) ∧
    ∃ sender t' e, startedTransport.publish plainCodec (fun _ => true) ⟨str "screen", .video, 4⟩ =
      .ok (sender, t') ∧ t'.srv.tracks.lookup (str "screen") = some e ∧ e.kind = .video := by
  obtain ⟨hrelay, htransport⟩ := kind_preserved_iff_video plainCodec (fun _ => true)
  constructor
  · obtain ⟨e, he⟩ := Option.isSome_iff_exists.mp (by decide +kernel :
      ((freshDownstream.startPump plainCodec (fun _ => true)
        (announcedSession ⟨str "screen", str "video", []⟩) (str "up") (str "screen")).1.srv.tracks.lookup
          (str "screen")).isSome = true)
    refine ⟨e, he, ?_⟩
    exact (hrelay freshDownstream (announcedSession ⟨str "screen", str "video", []⟩) (str "up")
      (str "screen") ⟨str "screen", str "video", []⟩ e (by decide +kernel) (by decide +kernel)
      he).kind.mpr (by decide +kernel)
  · obtain ⟨sender, t', e, hpub, he, -, has⟩ := htransport startedTransport ⟨str "screen", .video, 4⟩
      rfl (by decide +kernel) (by decide +kernel)
    exact ⟨sender, t', e, hpub, he, has.kind.mpr rfl⟩

/-- Tokens and tool calls become video tracks, with the video pump and overflow policy. -/
theorem kind_lost :
    (∃ e, (announcedSession ⟨str "llm", str "tokens", []⟩).client.remoteTracks.lookup (str "llm") =
        some ⟨str "llm", str "tokens", []⟩ ∧
      freshDownstream.srv.tracks.lookup (str "llm") = none ∧
      (freshDownstream.startPump plainCodec (fun _ => true)
        (announcedSession ⟨str "llm", str "tokens", []⟩) (str "up") (str "llm")).1.srv.tracks.lookup
          (str "llm") = some e ∧
      e.kind = .video ∧ defaultDeliveryClass e.kind = .streamGOP ∧
      defaultDeliveryClass (Kind.ofGoString (str "tokens")) = .streamLowLatency ∧
      ((freshDownstream.startPump plainCodec (fun _ => true)
        (announcedSession ⟨str "llm", str "tokens", []⟩) (str "up") (str "llm")).1.srv.broadcasters
          e.bc).selfContained = false) ∧
    ∃ sender t' e, startedTransport.srv.tracks.lookup (str "calls") = none ∧
      startedTransport.publish plainCodec (fun _ => true) ⟨str "calls", .toolCalls, 2⟩ =
        .ok (sender, t') ∧
      t'.srv.tracks.lookup (str "calls") = some e ∧ e.kind = .video ∧
      defaultDeliveryClass e.kind = .streamGOP ∧ (t'.srv.broadcasters e.bc).selfContained = false := by
  constructor
  · exact ⟨⟨str "llm", .video, 4, 0, 1⟩, by decide +kernel, by decide +kernel, by decide +kernel, rfl,
      rfl, by decide +kernel, by decide +kernel⟩
  · exact ⟨_, _, ⟨str "calls", .video, 2, 0, 1⟩, by decide +kernel, rfl, by decide +kernel, rfl, rfl,
      by decide +kernel⟩

end QuicRTC

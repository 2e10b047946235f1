import QuicRTC.Server.PumpConfig

/-! # The Publish Wall and the Negotiated Features

A client that negotiated `kind-stats` expects every feed frame to carry the publish wall.
`AttachTrackWithKind` decides from the features the session has negotiated so far, and `handshake`
sets these only after it attached its tracks. Only tracks that are added later follow the
negotiation.
-/

namespace QuicRTC

open Wire

namespace Server

theorem Attached.advertised {codec cfg resumeWindow path e fc sess}
    (h : Attached codec cfg resumeWindow path e fc sess) : Session.Advertised codec sess := by
  -- Connecting is a step of the system, as the server is not draining.
  have hconnect : ∀ {s : Server} (now : Int) (newID : GoString) (io : ControlIO),
      LTS.Reachable (serverSystem codec cfg resumeWindow) s → s.draining = false →
      LTS.Reachable (serverSystem codec cfg resumeWindow) (s.connect codec now newID io) := by
    intro s now newID io hrun hserving
    refine LTS.Reachable.step (.connect now newID io) hrun ?_
    show (if s.draining then none else some (s.connect codec now newID io)) = _
    rw [hserving]
    rfl
  cases h with
  | fresh now newID n run serving _ _ _ started
  | resume now newID n run serving _ _ _ _ started =>
    exact ((configured_of_reachable (hconnect now newID _ run serving)).session _).advertised started
  | added ref accepted spec run _ started =>
    exact ((configured_of_reachable run).session ref).advertised started

/-- Every frame carries the publish wall, or none does. -/
def StampsWall (fc : FeedConfig) (wanted : Prop) : Prop :=
  ∀ (now : WallClock) (au : AccessUnit) (frame : List UInt8),
    pumpFrame fc now au = some frame → (CarriesWall frame ↔ wanted)

theorem stampsWall_iff {fc : FeedConfig} (hfall : fc.fallbackOpener = true) (wanted : Prop) :
    StampsWall fc wanted ↔ (fc.stampPublishWall = true ↔ wanted) := by
  constructor
  · intro h
    obtain ⟨frame, hframe⟩ := exists_pumpFrame fc ⟨1, by decide⟩ (fun _ => hfall) false 0
    exact (pumpFrame_carriesWall_iff (fun _ => hfall) hframe).symm.trans (h _ _ _ hframe)
  · intro h now au frame hframe
    exact (pumpFrame_carriesWall_iff (fun _ => hfall) hframe).trans h

/-- The server's own `StampPublishWall` gives what was negotiated; for an added track the
    session's features count, too. -/
def WallSettled (path : AttachPath) (stamp : Bool) (negotiated : Prop) : Prop :=
  match path with
  | .added => stamp = true → negotiated
  | _ => stamp = true ↔ negotiated

/-- **Publish wall.** The frames of a pump carry it iff `kind-stats` was in the SDP of its
    session, exactly when the server's configuration settles it. -/
theorem publishWall_negotiated_iff {codec : Codec} {cfg : ServerConfig} {resumeWindow : Int}
    {path : AttachPath} {e : TrackEntry} {fc : FeedConfig} {sess : Session}
    (h : Attached codec cfg resumeWindow path e fc sess) :
    ∃ sdp body, codec.marshalSDP sdp = some body ∧ ⟨typeSDP, body⟩ ∈ sess.control ∧
      sdp.features = sess.negotiatedFeatures ∧
      (StampsWall fc (Session.featureKindStats ∈ sdp.features) ↔
        WallSettled path cfg.feedConfig.stampPublishWall
          (Session.featureKindStats ∈ sdp.features)) := by
  obtain ⟨sdp, body, hbody, hsent, hfeat⟩ := h.advertised
  have hspec := h.spec
  refine ⟨sdp, body, hbody, hsent, hfeat, ?_⟩
  rw [stampsWall_iff hspec.fallback, hspec.wall, ← hfeat]
  by_cases hpath : path = .added
  · rw [hpath]
    by_cases hneg : Session.featureKindStats ∈ sdp.features
    · rw [if_pos ⟨rfl, hneg⟩]
      exact iff_of_true (iff_of_true rfl hneg) (fun _ => hneg)
    · rw [if_neg (fun hc => hneg hc.2)]
      exact ⟨fun hiff => hiff.mp, fun himp => ⟨himp, fun hc => absurd hc hneg⟩⟩
  · cases path with
    | added => exact absurd rfl hpath
    | _ => rfl

theorem publishWall_negotiated_iff_added :
    ∃ e fc sess sdp body, Attached plainCodec plainConfig 0 .added e fc sess ∧
      plainCodec.marshalSDP sdp = some body ∧ ⟨typeSDP, body⟩ ∈ sess.control ∧
      StampsWall fc (Session.featureKindStats ∈ sdp.features) := by
  obtain ⟨e, fc, sess, h⟩ := attached_added
  obtain ⟨sdp, body, hbody, hsent, -, hiff⟩ := publishWall_negotiated_iff h
  exact ⟨e, fc, sess, sdp, body, h, hbody, hsent, hiff.mpr nofun⟩

/-- `kind-stats` is negotiated, but the handshake attached `primary` without the publish
    wall. -/
theorem handshake_track_without_wall :
    ∃ e fc sess sdp body, Attached plainCodec plainConfig 0 .fresh e fc sess ∧
      plainCodec.marshalSDP sdp = some body ∧ ⟨typeSDP, body⟩ ∈ sess.control ∧
      Session.featureKindStats ∈ sdp.features ∧
      ¬ StampsWall fc (Session.featureKindStats ∈ sdp.features) := by
  obtain ⟨e, fc, h⟩ := attached_fresh
  obtain ⟨sdp, body, hbody, hsent, hfeat⟩ := h.advertised
  have hneg : Session.featureKindStats ∈ sdp.features := by
    rw [hfeat]
    decide
  refine ⟨e, fc, _, sdp, body, h, hbody, hsent, hneg, fun hstamps => ?_⟩
  have hwall := h.spec.wall
  rw [((stampsWall_iff h.spec.fallback _).mp hstamps).mpr hneg] at hwall
  exact absurd hwall (by decide)

end Server

end QuicRTC

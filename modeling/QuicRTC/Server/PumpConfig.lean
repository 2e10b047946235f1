import QuicRTC.Server.Parked

/-! # The Configuration of a Pump

A track reaches a session by a fresh handshake, by a resume handshake, or by `AddTrackSpec`. Each
way ends in `AttachTrackWithKind`, with arguments it gets from different places.
-/

namespace QuicRTC

open Wire LTS Option

namespace Server

/-! ## The sessions of a server -/

/-- It has the server's configuration, and once it runs its client has the SDP. -/
structure Sound (codec : Codec) (cfg : ServerConfig) (sess : Session) : Prop where
  cfg : sess.cfg = cfg.sessionConfig
  advertised : sess.runStarted = true → Session.Advertised codec sess

variable {cfg : ServerConfig} {codec : Codec}

theorem Sound.extend {sess sess'} (h : Sound codec cfg sess) (hext : sess.Extends sess') :
    Sound codec cfg sess' := by
  refine ⟨hext.cfg.trans h.cfg, fun hst => ?_⟩
  obtain ⟨sdp, body, hbody, hsent, hfeat⟩ := h.advertised (hext.started ▸ hst)
  exact ⟨sdp, body, hbody, hext.control.subset hsent, hfeat.trans hext.features.symm⟩

structure Configured (codec : Codec) (cfg : ServerConfig) (s : Server) : Prop where
  server : s.cfg = cfg
  session : ∀ ref, Sound codec cfg (s.sessionAt ref)

section Configured

variable {codec : Codec} {cfg : ServerConfig} {s : Server}

theorem Configured.onSession (h : Configured codec cfg s) (ref : SessionRef) {f : Session → Session}
    (hf : ∀ sess : Session, sess.Extends (f sess)) : Configured codec cfg (s.onSession ref f) := by
  refine ⟨h.server, fun ref' => ?_⟩
  by_cases href : ref' = ref
  · rw [href, onSession_self]
    exact (h.session ref).extend (hf _)
  · rw [onSession_of_ne s href]
    exact h.session ref'

theorem Configured.exec (h : Configured codec cfg s) (op : TrackOp) :
    Configured codec cfg (s.exec codec op) := by
  cases op with
  | add accepted spec =>
    refine addTrackInternal_induction (P := Configured codec cfg) codec accepted _ _ _ _ ?_ ?_ ?_
    · unfold registerTrack
      split <;> exact { h with }
    · intro s' b ref hs'
      exact Configured.onSession (s := s'.onBroadcaster b PubSub.subscribe) ⟨hs'.server, hs'.session⟩
        ref (fun sess => sess.extends_attach ..)
    · exact fun s' ref hs' => hs'.onSession ref (fun sess => sess.extends_sendAnnounce ..)
  | remove accepted name =>
    refine removeTrack_induction (P := Configured codec cfg) codec accepted name ?_ ?_ ?_
    · unfold unregisterTrack
      split <;> exact { h with }
    · exact fun s' ref hs' => hs'.onSession ref
        (fun sess => (sess.extends_detach name).trans (Session.extends_sendUnannounce ..))
    · exact fun t _ s' hs' => ⟨hs'.server, hs'.session⟩
  | publish b au => exact { h with }

theorem Configured.shutdown (h : Configured codec cfg s) (accepted : SessionRef → Bool) :
    Configured codec cfg (s.shutdown accepted) := by
  apply shutdown_induction accepted
  · exact { h with }
  · exact fun s' ref hs' => hs'.onSession ref (fun sess => sess.extends_write ..)

theorem Configured.connect (h : Configured codec cfg s) (hwf : s.WF) (now : Int)
    (newID : GoString) (io : ControlIO) : Configured codec cfg (s.connect codec now newID io) := by
  obtain ⟨env, sess, heq, hc⟩ := connect_cases hwf codec now newID io
  rw [heq]
  refine ⟨hc.cfg.trans h.server, fun ref => ?_⟩
  by_cases href : ref = s.nextSession
  · rw [href, onSession_self]
    exact ⟨hc.session.trans (congrArg _ h.server), hc.advertised⟩
  · have hold : s.addSession.sessionAt ref = s.sessionAt ref := Function.update_of_ne href _ _
    rw [onSession_of_ne env href, hc.sessionAt, hold]
    exact h.session ref

end Configured

variable {s : Server}

theorem configured_of_reachable {resumeWindow}
    (h : Reachable (serverSystem codec cfg resumeWindow) s) : Configured codec cfg s := by
  induction h with
  | init hs =>
    obtain rfl := hs
    exact Configured.exec (s := emptyServer cfg resumeWindow)
      ⟨rfl, fun _ => ⟨rfl, nofun⟩⟩
      (.add (fun _ => true) { name := str "primary", kind := .unset, priority := 0, trackID := 0 })
  | @step s s' op hreach hstep ih =>
    have hwf := wf_of_reachable s hreach
    change s.next codec op = some s' at hstep
    cases op with
    | call op => cases hstep; exact ih.exec op
    | connect now newID io =>
      simp only [next] at hstep
      split at hstep
      · cases hstep
      · cases hstep
        exact ih.connect hwf now newID io
    | disconnect ref ctxDone now later =>
      cases hstep
      obtain ⟨-, hcfg, hsess⟩ := hwf.endSession ref ctxDone now later
      exact ⟨hcfg.trans ih.server, fun ref' => by rw [hsess]; exact ih.session ref'⟩
    | shutdown accepted => cases hstep; exact ih.shutdown accepted

/-! ## A track that is added -/

theorem addedTurn_sessionAt (codec : Codec) (accepted : Bool) (s : Server) (b : BroadcasterId)
    (name : GoString) (kind : Kind) (priority trackID : UInt8) (ref : SessionRef) :
    ∃ c, ((s.attachAdded b name kind priority trackID ref).onSession ref (fun sess =>
        sess.sendAnnounce codec accepted name kind.toGoString [])).sessionAt ref =
      { (s.sessionAt ref).attachTrackWithKind name kind s.nextReceiver priority trackID with
        control := c } := by
  obtain ⟨c, hc⟩ := Session.sendAnnounce_frame codec accepted
    ((s.sessionAt ref).attachTrackWithKind name kind s.nextReceiver priority trackID)
    name kind.toGoString []
  refine ⟨c, ?_⟩
  rw [onSession_self, attachAdded, onSession_self]
  exact hc

/-- The name is free, or its pump has `fc`; a pump attached now gets it. -/
structure PumpsAs (name : GoString) (kind : Kind) (priority trackID : UInt8) (fc : FeedConfig)
    (sess : Session) : Prop where
  next : sess.pumpConfig name kind priority trackID = fc
  free : ∀ r fc', sess.attachment name = some (r, fc') → fc' = fc

variable {fc : FeedConfig} {n name : GoString} {kind : Kind} {e : TrackEntry}

theorem PumpsAs.attach {priority trackID sess} (h : PumpsAs name kind priority trackID fc sess)
    (recv : ReceiverId) (c : List ControlFrame) :
    PumpsAs name kind priority trackID fc
        { sess.attachTrackWithKind name kind recv priority trackID with control := c } ∧
      ∃ r, ({ sess.attachTrackWithKind name kind recv priority trackID with control := c } :
        Session).attachment name = some (r, fc) := by
  have hatt : ({ sess.attachTrackWithKind name kind recv priority trackID with control := c } :
      Session).attachment name = (sess.attachment name <|> some (recv, fc)) := by
    rw [← h.next]
    exact (sess.attachTrackWithKind_attachment name kind recv priority trackID name).trans
      (if_pos rfl)
  have hex : ∃ r, (sess.attachment name <|> some (recv, fc)) = some (r, fc) := by
    cases hold : sess.attachment name with
    | none => exact ⟨recv, rfl⟩
    | some x => exact ⟨x.1, by rw [← h.free x.1 x.2 hold]; rfl⟩
  obtain ⟨r, hr⟩ := hex
  refine ⟨⟨?_, ?_⟩, r, hatt.trans hr⟩
  · rw [← h.next]
    exact sess.attachTrackWithKind_pumpConfig name kind recv priority trackID name kind priority trackID
  · intro r' fc' hr'
    rw [hatt, hr] at hr'
    exact (congrArg Prod.snd (some.inj hr')).symm

theorem addedTurns_attachment (codec : Codec) (accepted : SessionRef → Bool) (b : BroadcasterId)
    {priority trackID ref} (refs : List SessionRef) (s : Server)
    (h : PumpsAs name kind priority trackID fc (s.sessionAt ref))
    (hturn : ref ∈ refs ∨ ∃ r, (s.sessionAt ref).attachment name = some (r, fc)) :
    ∃ r, ((refs.foldl (fun s ref =>
      (s.attachAdded b name kind priority trackID ref).onSession ref (fun sess =>
        sess.sendAnnounce codec (accepted ref) name kind.toGoString [])) s).sessionAt ref).attachment
          name = some (r, fc) := by
  induction refs generalizing s with
  | nil => exact hturn.resolve_left List.not_mem_nil
  | cons ref' refs ih =>
    by_cases href : ref = ref'
    · subst href
      obtain ⟨c, hc⟩ := addedTurn_sessionAt codec (accepted ref) s b name kind priority trackID ref
      obtain ⟨hkeep, hdone⟩ := h.attach s.nextReceiver c
      rw [← hc] at hkeep hdone
      exact ih _ hkeep (.inr hdone)
    · have hsame : ((s.attachAdded b name kind priority trackID ref').onSession ref' (fun sess =>
          sess.sendAnnounce codec (accepted ref') name kind.toGoString [])).sessionAt ref =
            s.sessionAt ref := by
        rw [onSession_of_ne _ href, attachAdded, onSession_of_ne _ href]
        rfl
      refine ih _ (hsame ▸ h) ?_
      rcases hturn with hmem | hdone
      · exact .inl ((List.mem_cons.mp hmem).resolve_left href)
      · exact .inr (hsame ▸ hdone)

theorem added_attachment (codec : Codec) (accepted : SessionRef → Bool)
    (hnew : s.tracks.lookup name = none) (ref : SessionRef) (href : ref ∈ s.sessions)
    (hfree : (s.sessionAt ref).attachment name = none) (kind : Kind) (priority trackID : UInt8) :
    ∃ r, ((s.addTrackInternal codec accepted name kind priority trackID).sessionAt ref).attachment
      name = some (r, (s.sessionAt ref).pumpConfig name kind priority trackID) := by
  obtain ⟨bc, recorders, -, hreg⟩ := registerTrack_of_none hnew kind priority trackID
  unfold addTrackInternal
  rw [hreg]
  refine addedTurns_attachment codec accepted _ _ _ ⟨rfl, ?_⟩ (.inl href)
  intro r fc' hr
  exact absurd (hfree.symm.trans hr) (by simp)

theorem added_tracks (codec : Codec) (accepted : SessionRef → Bool)
    (hnew : s.tracks.lookup name = none) (kind : Kind) (priority trackID : UInt8) :
    (s.addTrackInternal codec accepted name kind priority trackID).tracks.lookup name =
      some { name := name, kind := kind, priority := priority, trackID := trackID,
             bc := s.nextBroadcaster } := by
  obtain ⟨bc, recorders, -, hreg⟩ := registerTrack_of_none hnew kind priority trackID
  refine addTrackInternal_induction (P := fun s' => s'.tracks.lookup name =
      some { name := name, kind := kind, priority := priority, trackID := trackID,
             bc := s.nextBroadcaster }) codec accepted name kind priority trackID ?_
    (fun _ _ _ h => h) (fun _ _ h => h)
  rw [hreg]
  exact AList.lookup_insert _

inductive AttachPath where
  | fresh
  | resume
  | added
  deriving DecidableEq

/-- The session `sess` pumps the track of `e`, attached by the path, with the configuration
    `fc`. -/
inductive Attached (codec : Codec) (cfg : ServerConfig) (resumeWindow : Int) :
    AttachPath → TrackEntry → FeedConfig → Session → Prop where
  | fresh {s : Server} {io : ControlIO} {hello : Hello} (now : Int) (newID n : GoString)
      {e : TrackEntry} {r : ReceiverId} {fc : FeedConfig}
      (run : Reachable (serverSystem codec cfg resumeWindow) s) (serving : s.draining = false)
      (deadline : io.deadlineSet = true)
      (hadm : Session.Admissible codec cfg.sessionConfig io hello)
      (unknown : s.Unknown now (s.greeted codec io).tenant hello.sessionID)
      (started : ((s.connect codec now newID io).sessionAt s.nextSession).runStarted = true)
      (entry : s.tracks.lookup n = some e)
      (pump : ((s.connect codec now newID io).sessionAt s.nextSession).attachment n = some (r, fc)) :
      Attached codec cfg resumeWindow .fresh e fc
        ((s.connect codec now newID io).sessionAt s.nextSession)
  | resume {s : Server} {io : ControlIO} {hello : Hello} (now : Int) (newID n : GoString)
      {receivers : GoMap ReceiverId} {e : TrackEntry} {r : ReceiverId} {fc : FeedConfig}
      (run : Reachable (serverSystem codec cfg resumeWindow) s) (serving : s.draining = false)
      (deadline : io.deadlineSet = true)
      (hadm : Session.Admissible codec cfg.sessionConfig io hello) (named : hello.sessionID ≠ [])
      (found : (s.store.resume now (s.greeted codec io).tenant hello.sessionID).1 = some receivers)
      (started : ((s.connect codec now newID io).sessionAt s.nextSession).runStarted = true)
      (entry : s.tracks.lookup n = some e)
      (pump : ((s.connect codec now newID io).sessionAt s.nextSession).attachment n = some (r, fc)) :
      Attached codec cfg resumeWindow .resume e fc
        ((s.connect codec now newID io).sessionAt s.nextSession)
  | added {s : Server} (ref : SessionRef) (accepted : SessionRef → Bool) (spec : TrackSpec)
      {e : TrackEntry} {r : ReceiverId} {fc : FeedConfig}
      (run : Reachable (serverSystem codec cfg resumeWindow) s) (live : ref ∈ s.sessions)
      (started : (s.sessionAt ref).runStarted = true) (new : s.tracks.lookup spec.name = none)
      (free : (s.sessionAt ref).attachment spec.name = none)
      (entry : (s.addTrackSpec codec accepted spec).tracks.lookup spec.name = some e)
      (pump : ((s.addTrackSpec codec accepted spec).sessionAt ref).attachment spec.name =
        some (r, fc)) :
      Attached codec cfg resumeWindow .added e fc (s.sessionAt ref)

/-! ## What the pump is configured with -/

structure PumpSpec (cfg : ServerConfig) (path : AttachPath) (e : TrackEntry) (fc : FeedConfig)
    (sess : Session) : Prop where
  delivery : fc.delivery = defaultDeliveryClass e.kind
  priority : fc.priority = if path = .resume then 4 else e.priority
  trackID : fc.trackID = if path = .resume then 0 else e.trackID
  wall : fc.stampPublishWall = if path = .added ∧ Session.featureKindStats ∈ sess.negotiatedFeatures
               then true else cfg.feedConfig.stampPublishWall
  fallback : fc.fallbackOpener = true

theorem pumpConfig_delivery (sess : Session) (name : GoString) (h : kind ≠ .unset)
    (priority trackID : UInt8) :
    (sess.pumpConfig name kind priority trackID).delivery = defaultDeliveryClass kind :=
  if_pos h

theorem kindFor_of_lookup (h : s.tracks.lookup n = some e) :
    s.kindFor n ≠ .unset ∧ defaultDeliveryClass (s.kindFor n) = defaultDeliveryClass e.kind := by
  simp only [kindFor, h]
  by_cases hk : e.kind = .unset
  · rw [if_neg (not_not.mpr hk), hk]
    exact ⟨by decide, rfl⟩
  · rw [if_pos hk]
    exact ⟨hk, rfl⟩

theorem pump_of_connect {env} {io : ControlIO} {hello now newID s₂ acquired r}
    (hconf : Configured codec cfg s) (hdl : io.deadlineSet = true)
    (hadm : Session.Admissible codec cfg.sessionConfig io hello)
    (hacq : (s.greeted codec io).acquire (callbacks now newID) hello s.addSession =
      (s₂, acquired, env)) (hentry : env.tracks.lookup n = some e)
    (hpump : ((s.connect codec now newID io).sessionAt s.nextSession).attachment n = some (r, fc)) :
    fc.delivery = defaultDeliveryClass e.kind ∧
      fc.priority = Session.attachPriority (callbacks now newID) env acquired n ∧
      fc.trackID = Session.attachTrackID (callbacks now newID) env acquired n ∧
      fc.stampPublishWall = cfg.feedConfig.stampPublishWall ∧ fc.fallbackOpener = true := by
  rw [← hconf.server] at hadm
  obtain ⟨sess, heq, -, -, -, hcfg, hnone, hatt⟩ := connect_spec hdl hadm hacq
  have hsess : (s.connect codec now newID io).sessionAt s.nextSession = sess := by
    rw [heq]
    exact Function.update_self ..
  rw [hsess, hatt] at hpump
  obtain ⟨r', -, hpair⟩ := map_eq_some_iff.mp hpump
  obtain rfl := congrArg Prod.snd hpair
  obtain ⟨hkind, hdel⟩ := kindFor_of_lookup hentry
  have hno : ¬ s₂.hasNegotiatedFeature Session.featureKindStats = true := by
    rw [Session.hasNegotiatedFeature_iff, hnone]
    exact List.not_mem_nil
  refine ⟨(pumpConfig_delivery s₂ n hkind _ _).trans hdel, rfl, rfl, ?_, ?_⟩
  · show (if _ then true else s₂.cfg.feedConfig.stampPublishWall) = _
    rw [if_neg hno, hcfg, hconf.server]
    rfl
  · show s₂.cfg.feedConfig.fallbackOpener = true
    rw [hcfg]
    rfl

theorem Attached.spec {resumeWindow path sess} (h : Attached codec cfg resumeWindow path e fc sess) :
    PumpSpec cfg path e fc sess := by
  cases h with
  | @fresh s io hello now newID n e r fc run serving deadline hadm unknown started entry pump =>
    obtain ⟨s₁, env, s₂, -, htab, hsub, hacq⟩ :=
      acquire_of_unknown (wf_of_reachable s run) newID unknown
    have hentry : env.tracks.lookup n = some e := by rw [hsub.tracks, htab, entry]
    obtain ⟨hdel, hprio, hid, hwall, hfall⟩ :=
      pump_of_connect (configured_of_reachable run) deadline hadm hacq hentry pump
    refine ⟨hdel, hprio.trans ?_, hid.trans ?_, hwall.trans ?_, hfall⟩
    · show env.priorityFor n = e.priority
      simp only [priorityFor, hentry]
    · show env.trackIDFor n = e.trackID
      simp only [trackIDFor, hentry]
    · exact (if_neg (fun hc => by cases hc.1)).symm
  | @resume s io hello now newID n receivers e r fc run serving deadline hadm named found started
      entry pump =>
    obtain ⟨s₂, env, htab, hacq⟩ := acquire_of_found (wf_of_reachable s run) newID named found
    obtain ⟨hdel, hprio, hid, hwall, hfall⟩ :=
      pump_of_connect (configured_of_reachable run) deadline hadm hacq (htab ▸ entry) pump
    exact ⟨hdel, hprio, hid, hwall.trans (if_neg (fun hc => by cases hc.1)).symm, hfall⟩
  | @added s ref accepted spec e r fc run live started new free entry pump =>
    have hcfg := ((configured_of_reachable run).session ref).cfg
    obtain rfl := some.inj ((added_tracks codec accepted new (specKind spec)
      (specPriority spec) spec.trackID).symm.trans entry)
    obtain ⟨r', hr'⟩ := added_attachment codec accepted new ref live free (specKind spec)
      (specPriority spec) spec.trackID
    obtain rfl := congrArg Prod.snd (mem_unique hr' pump)
    have hkind : specKind spec ≠ .unset := by
      unfold specKind
      split
      · decide
      · assumption
    refine ⟨pumpConfig_delivery _ _ hkind _ _, rfl, rfl, ?_, ?_⟩
    · show (if (s.sessionAt ref).hasNegotiatedFeature Session.featureKindStats = true then true
        else (s.sessionAt ref).cfg.feedConfig.stampPublishWall) = _
      simp only [Session.hasNegotiatedFeature_iff, true_and, hcfg]
      rfl
    · show (s.sessionAt ref).cfg.feedConfig.fallbackOpener = true
      rw [hcfg]
      rfl

/-! ## The configuration and the entry -/

structure AsEntered (e : TrackEntry) (fc : FeedConfig) : Prop where
  delivery : fc.delivery = defaultDeliveryClass e.kind
  priority : fc.priority = e.priority
  trackID : fc.trackID = e.trackID

/-- **Pump configuration.** However a track was attached, its pump is configured as the
    entry says, but a resume forgets priority and identifier, so these have to be the
    defaults. -/
theorem pumped_as_entered_iff {codec : Codec} {cfg : ServerConfig} {resumeWindow : Int}
    {path : AttachPath} {e : TrackEntry} {fc : FeedConfig} {sess : Session}
    (h : Attached codec cfg resumeWindow path e fc sess) :
    AsEntered e fc ↔ (path = .resume → e.priority = 4 ∧ e.trackID = 0) := by
  obtain ⟨hdel, hprio, hid, -, -⟩ := h.spec
  constructor
  · rintro ⟨-, hp, ht⟩ hpath
    rw [hprio, if_pos hpath] at hp
    rw [hid, if_pos hpath] at ht
    exact ⟨hp.symm, ht.symm⟩
  · intro hdef
    by_cases hpath : path = .resume
    · obtain ⟨hp, ht⟩ := hdef hpath
      exact ⟨hdel, hprio.trans ((if_pos hpath).trans hp.symm), hid.trans ((if_pos hpath).trans ht.symm)⟩
    · exact ⟨hdel, hprio.trans (if_neg hpath), hid.trans (if_neg hpath)⟩

theorem plainClient_admissible (payload : List UInt8) :
    ∃ hello, Session.Admissible plainCodec plainConfig.sessionConfig (plainClient payload) hello ∧
      hello.sessionID = payload :=
  ⟨_, ⟨⟨payload, rfl, rfl⟩, rfl, rfl, .inl rfl⟩, rfl⟩

theorem attached_fresh :
    ∃ e fc, Attached plainCodec plainConfig 0 .fresh e fc (oneClient.sessionAt 0) := by
  obtain ⟨hello, hadm, hid⟩ := plainClient_admissible []
  obtain ⟨e, he⟩ := isSome_iff_exists.mp (show ((newServer plainCodec plainConfig 0).tracks.lookup
    (str "primary")).isSome = true by decide)
  obtain ⟨⟨r, fc⟩, hpump⟩ := isSome_iff_exists.mp
    (show ((oneClient.sessionAt 0).attachment (str "primary")).isSome = true by decide)
  exact ⟨e, fc, .fresh 0 (str "s") (str "primary") (Reachable.init rfl) rfl rfl hadm
    (.inl hid) (by decide) he hpump⟩

theorem attached_added : ∃ e fc sess, Attached plainCodec plainConfig 0 .added e fc sess := by
  have hnew : oneClient.tracks.lookup (str "audio") = none := by decide
  obtain ⟨r, hpump⟩ := added_attachment plainCodec (fun _ => true) hnew 0 (by decide) (by decide)
    .audio 0 3
  exact ⟨_, _, _, .added 0 (fun _ => true) ⟨str "audio", .audio, 0, 3⟩ reachable_oneClient
    (by decide) (by decide) hnew (by decide) (added_tracks plainCodec _ hnew _ _ _) hpump⟩

/-- A client connects and leaves. -/
def tokensParked : Server :=
  (((newServer plainCodec plainConfig 0).exec plainCodec
    (.add (fun _ => true) ⟨str "tokens", .tokens, 0, 7⟩)).connect plainCodec 0 (str "s")
      (plainClient [])).endSession 0 false 10 20

theorem attached_resume {r} (he : tokensParked.tracks.lookup n = some e)
    (hpump : ((tokensParked.connect plainCodec 30 (str "t") (plainClient (str "s"))).sessionAt
      1).attachment n = some (r, fc)) :
    Attached plainCodec plainConfig 0 .resume e fc
      ((tokensParked.connect plainCodec 30 (str "t") (plainClient (str "s"))).sessionAt 1) := by
  obtain ⟨hello, hadm, hid⟩ := plainClient_admissible (str "s")
  have hreach : Reachable (serverSystem plainCodec plainConfig 0) tokensParked :=
    Reachable.step (.disconnect 0 false 10 20)
      (Reachable.step (.connect 0 (str "s") (plainClient []))
        (Reachable.step (.call (.add (fun _ => true) ⟨str "tokens", .tokens, 0, 7⟩))
          (Reachable.init rfl) rfl) rfl) rfl
  obtain ⟨receivers, hfound⟩ := isSome_iff_exists.mp
    (show (tokensParked.store.resume 30 (tokensParked.greeted plainCodec
      (plainClient (str "s"))).tenant (str "s")).1.isSome = true by decide)
  rw [← hid] at hfound
  exact .resume 30 (str "t") n hreach rfl rfl hadm (by rw [hid]; decide) hfound (by decide) he hpump

theorem pumped_as_entered_iff_primary :
    (∃ e fc sess, Attached plainCodec plainConfig 0 .fresh e fc sess ∧ AsEntered e fc) ∧
    (∃ e fc sess, Attached plainCodec plainConfig 0 .resume e fc sess ∧ AsEntered e fc) ∧
    (∃ e fc sess, Attached plainCodec plainConfig 0 .added e fc sess ∧ AsEntered e fc) := by
  refine ⟨?_, ?_, ?_⟩
  · obtain ⟨e, fc, h⟩ := attached_fresh
    exact ⟨e, fc, _, h, (pumped_as_entered_iff h).mpr nofun⟩
  · obtain ⟨e, he, hdef⟩ := (any_eq_true _ _).mp
      (show (tokensParked.tracks.lookup (str "primary")).any
        (fun e => e.priority == 4 && e.trackID == 0) = true by decide)
    obtain ⟨⟨r, fc⟩, hpump⟩ := isSome_iff_exists.mp
      (show (((tokensParked.connect plainCodec 30 (str "t") (plainClient (str "s"))).sessionAt
        1).attachment (str "primary")).isSome = true by decide)
    have h := attached_resume he hpump
    exact ⟨e, fc, _, h, (pumped_as_entered_iff h).mpr (fun _ => by simpa using hdef)⟩
  · obtain ⟨e, fc, sess, h⟩ := attached_added
    exact ⟨e, fc, sess, h, (pumped_as_entered_iff h).mpr nofun⟩

/-- Priority 4 for 2, and identifier 0 for 7. -/
theorem resumed_tokens_not_as_entered :
    ∃ e fc sess, Attached plainCodec plainConfig 0 .resume e fc sess ∧ e.priority = 2 ∧
      e.trackID = 7 ∧ fc.priority = 4 ∧ fc.trackID = 0 ∧ ¬ AsEntered e fc := by
  obtain ⟨e, he, hent⟩ := (any_eq_true _ _).mp
    (show (tokensParked.tracks.lookup (str "tokens")).any
      (fun e => e.priority == 2 && e.trackID == 7) = true by decide)
  obtain ⟨⟨r, fc⟩, hpump, hcfg⟩ := (any_eq_true _ _).mp
    (show (((tokensParked.connect plainCodec 30 (str "t") (plainClient (str "s"))).sessionAt
      1).attachment (str "tokens")).any (fun x => x.2.priority == 4 && x.2.trackID == 0) = true
      by decide)
  simp only [Bool.and_eq_true, beq_iff_eq] at hent hcfg
  refine ⟨e, fc, _, attached_resume he hpump, hent.1, hent.2, hcfg.1, hcfg.2, fun h => ?_⟩
  have hp := h.priority
  rw [hcfg.1, hent.1] at hp
  exact absurd hp (by decide)

end Server

end QuicRTC

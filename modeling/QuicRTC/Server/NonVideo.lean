import QuicRTC.Feed.Drain
import QuicRTC.Server.Ownership

/-! # Tracks That Are Not Video

`addTrackInternal` switches keyframe gating off in the broadcaster of such a track. Which loop
serves it is another decision: `Run` takes the one of the delivery class if the session has the hook
for it, and the loop for video otherwise, which starts a stream at a keyframe and drops what comes
before.
-/

namespace QuicRTC

open LTS Wire

/-! ## The broadcaster of a new track -/

namespace Server

/-- Recording interceptors leave these. -/
structure SeenThrough (bc bc' : Broadcaster) : Prop where
  selfContained : bc'.selfContained = bc.selfContained
  latestKeyframe : bc'.latestKeyframe = bc.latestKeyframe
  accept : bc'.accept = bc.accept

theorem seenThrough_attachRecorder (name : GoString) (b : BroadcasterId) (bc : Broadcaster)
    (e : RecorderEntry) : SeenThrough bc (attachRecorder name b bc e).1 := by
  unfold attachRecorder
  cases e.recorder with
  | none => exact ⟨rfl, rfl, rfl⟩
  | some _ =>
    refine ⟨rfl, rfl, ?_⟩
    funext au
    -- the chain ends in a function that returns its argument
    unfold Broadcaster.accept Broadcaster.intercept Broadcaster.addInterceptor
    rw [List.foldlM_append]
    cases List.foldlM (fun au fn => fn au) au bc.interceptors <;> rfl

theorem seenThrough_attachRecordersToTrack (name : GoString) (b : BroadcasterId)
    (bc : Broadcaster) (es : List RecorderEntry) :
    SeenThrough bc (attachRecordersToTrack name b bc es).1 := by
  induction es generalizing bc with
  | nil => exact ⟨rfl, rfl, rfl⟩
  | cons e es ih =>
    obtain ⟨hself, hcache, haccept⟩ := ih (attachRecorder name b bc e).1
    have hone := seenThrough_attachRecorder name b bc e
    exact ⟨hself.trans hone.selfContained, hcache.trans hone.latestKeyframe,
      haccept.trans hone.accept⟩

theorem specKind_ne_unset (spec : TrackSpec) : specKind spec ≠ .unset := by
  unfold specKind
  split
  · exact nofun
  · assumption

def newTrack (s : Server) (spec : TrackSpec) : Broadcaster :=
  (s.registerTrack spec.name (specKind spec) (specPriority spec) spec.trackID).1.broadcasters
    s.nextBroadcaster

theorem newTrack_passes {s : Server} {spec : TrackSpec} (hnew : s.tracks.lookup spec.name = none)
    (hkind : specKind spec ≠ .video) :
    ServedTrack.Passes (s.newTrack spec) ∧ (s.newTrack spec).latestKeyframe = none := by
  have heq : s.newTrack spec = (attachRecordersToTrack spec.name s.nextBroadcaster
      (s.trackBroadcaster (specKind spec)) s.recorders).1 := by
    unfold newTrack registerTrack
    rw [hnew]
    exact Function.update_self _ _ _
  have hbc : s.trackBroadcaster (specKind spec) =
      (newBroadcaster s.cfg.perSubscriberBuffer).setSelfContained true :=
    if_pos ⟨hkind, specKind_ne_unset spec⟩
  have hseen := seenThrough_attachRecordersToTrack spec.name s.nextBroadcaster
    (s.trackBroadcaster (specKind spec)) s.recorders
  rw [← heq, hbc] at hseen
  refine ⟨⟨hseen.selfContained, ?_⟩, hseen.latestKeyframe⟩
  intro au hau
  rw [hseen.accept]
  have hfits : ¬ ((0 : Int) < 16 * 1024 * 1024 ∧ (16 * 1024 * 1024 : Int) < au.size) := by
    rintro ⟨-, hlarge⟩
    unfold maxFeedPayload at hau
    omega
  exact if_neg hfits

end Server

/-! ## Subscribed from the start -/

namespace ServedTrack

/-- It subscribes before the first unit is published. -/
def early (s : ServedTrack) : ServedLabel → Bool
  | .attach _ => s.fan.published.isEmpty
  | _ => true

/-- All that was accepted was offered to the session. -/
structure FromTheStart (s : ServedTrack) : Prop where
  cached : s.fan.published = [] → s.fan.ps.bc.latestKeyframe = none
  seed : s.seed = []
  all : s.recv ≠ none → s.offered = s.fan.accepted

variable {bc : Broadcaster} {cfg : FeedConfig} {rest : List FeedConfig} {s s' : ServedTrack}

theorem FromTheStart.fanned (h : FromTheStart s) {l f} (hstep : s.fan.step l = some f) :
    FromTheStart (s.fanned f) where
  cached := by
    show f.published = [] → f.ps.bc.latestKeyframe = none
    cases Fan.step_cases hstep with
    | publish au hf =>
      unfold Fan.publish
      split <;> exact fun hnil => absurd hnil (by simp)
    | unsubscribe r =>
      unfold Fan.unsubscribe
      split <;> exact h.cached
    | _ => exact h.cached
  seed := h.seed
  all := by
    intro hrecv
    have hsome : s.recv.isSome = true := Option.isSome_iff_ne_none.mpr hrecv
    obtain ⟨more, hmore⟩ := Fan.accepted_prefix hstep
    show (if s.recv.isSome then s.offered ++ f.accepted.drop s.fan.accepted.length
      else s.offered) = f.accepted
    rw [if_pos hsome, h.all hrecv, ← hmore, List.drop_left]

theorem FromTheStart.step {l} (h : FromTheStart s) (hs : Smooth cfg s) (hthrough : Through s)
    (hl : s.early l = true) (he : Effect s l s') : FromTheStart s' := by
  cases he with
  | fan _ hf => exact h.fanned hf
  | attach want hnew =>
    have hnil : s.fan.published = [] := List.isEmpty_iff.mp hl
    refine ⟨h.cached, ?_, fun _ => ?_⟩
    · rw [s.attach_seed, h.cached hnil]
      rfl
    · show s.offered = s.fan.accepted
      rw [(hs.before hnew).2.2, hthrough.accepted, hnil]
  | _ => exact { h with }

theorem fromTheStart_of_reachable (hbc : Passes bc) (hcache : bc.latestKeyframe = none)
    (hname : cfg.trackName.length ≤ maxStreamHeader) :
    ∀ s, Reachable ((losslessSystem bc cfg rest).restrict (fun s l => s.early l = true)) s →
      FromTheStart s := by
  apply invariant_given (fun s => Smooth cfg s ∧ Through s)
  · intro s hs
    exact ⟨smooth_of_reachable hbc hcache hname s hs.of_restrict,
      through_of_reachable hbc hcache hname s hs.of_restrict⟩
  · intro s hs
    rw [hs]
    exact ⟨fun _ => hcache, rfl, fun _ => rfl⟩
  · intro s l s' hknown h hstep
    exact h.step hknown.1 hknown.2 hstep.1 (effect_of_next hstep.2.2)

end ServedTrack

/-! ## What the pump transmits -/

def Session.pumpFor (sess : Session) (spec : TrackSpec) (priority trackID : UInt8) : FeedConfig :=
  sess.pumpConfig spec.name (Server.specKind spec) priority trackID

section transmits

variable (srv : Server) (spec : TrackSpec) (sess : Session) (priority trackID : UInt8)
  (rest : List FeedConfig)

/-- **No keyframe gating.** On a new track that is not video, with a session that subscribes
    before the first publish, no failure and no overflow: if the loop refuses neither the
    first unit for not being a keyframe nor one for its size, what was published is on its
    way to the pump, in order, and the pump transmits all of it. -/
theorem published_is_transmitted (hnew : srv.tracks.lookup spec.name = none)
    (hkind : Server.specKind spec ≠ .video) (hname : spec.name.length ≤ maxStreamHeader)
    (s : ServedTrack) (r : ReceiverId)
    (hs : Reachable ((losslessSystem (srv.newTrack spec) (sess.pumpFor spec priority trackID)
      rest).restrict (fun s l => s.early l = true)) s) (hr : s.recv = some r) :
    s.taken ++ ((s.fan.recvAt r).queue ++ ServedTrack.onItsWay (turnOf s.fan.flight r)).map some =
        s.fan.published.map some ∧
      ∃ s', (servedWork (srv.newTrack spec) (sess.pumpFor spec priority trackID) rest).Steps s s' ∧
        s'.taken = s.fan.published.map some ∧ s'.mine.Nodup ∧
        ∀ n ∈ s'.mine, PumpSet.OnWire (sess.pumpFor spec priority trackID) s'.pumps n := by
  obtain ⟨hbc, hcache⟩ := Server.newTrack_passes hnew hkind
  have hreach := hs.of_restrict
  have hsmooth := ServedTrack.smooth_of_reachable hbc hcache hname s hreach
  have hthrough := ServedTrack.through_of_reachable hbc hcache hname s hreach
  have hstart := ServedTrack.fromTheStart_of_reachable hbc hcache hname s hs
  -- offered is what was published
  have hall : s.seed ++ s.offered = s.fan.published := by
    rw [hstart.seed, hstart.all (hr ▸ Option.some_ne_none r), hthrough.accepted]
    rfl
  obtain ⟨s', hsteps, htaken, hwire⟩ := ServedTrack.exists_sent hbc hcache hname hreach hr
  rw [hall] at htaken
  refine ⟨?_, s', hsteps, htaken, ?_, hwire⟩
  · rw [← hall]
    exact (hsmooth.order r hr).flow.order
  · exact (ServedTrack.smooth_of_reachable hbc hcache hname s'
      (hreach.steps (System.Steps.of_restrict hsteps))).nodup

/-- Neither datagrams nor bidi streams. -/
def plainServer : Server := newServer plainCodec plainConfig 0

def plainSession : Session :=
  Session.new { plainConfig.sessionConfig with feedConfig := FeedConfig.zero }

/-- No keyframes. -/
theorem published_is_transmitted_tokens :
    ∃ s s', s.fan.published = [AccessUnit.bare false 1, AccessUnit.bare false 2] ∧
      (servedWork (plainServer.newTrack ⟨str "llm", .tokens, 0, 0⟩)
        (plainSession.pumpFor ⟨str "llm", .tokens, 0, 0⟩ 2 0) []).Steps s s' ∧
      s'.taken = [some (AccessUnit.bare false 1), some (AccessUnit.bare false 2)] ∧
      ∀ n ∈ s'.mine,
        PumpSet.OnWire (plainSession.pumpFor ⟨str "llm", .tokens, 0, 0⟩ 2 0) s'.pumps n := by
  obtain ⟨s, hs, hp⟩ := exists_reachable
    (ServedTrack.start (plainServer.newTrack ⟨str "llm", .tokens, 0, 0⟩)
      [plainSession.pumpFor ⟨str "llm", .tokens, 0, 0⟩ 2 0]) ServedTrack.next
    (fun s l => s.lossless (plainSession.pumpFor ⟨str "llm", .tokens, 0, 0⟩ 2 0) l && s.early l)
    (fun s => s.recv == some 0 &&
      s.fan.published == [AccessUnit.bare false 1, AccessUnit.bare false 2])
    [.attach 0, .fan (.publish (AccessUnit.bare false 1)), .fan (.fanout 0),
      .fan (.publish (AccessUnit.bare false 2)), .pump (.opened 0 firstTick)]
    (by decide +kernel)
  obtain ⟨hr, hpub⟩ := Bool.and_eq_true_iff.mp hp
  have hpub := eq_of_beq hpub
  obtain ⟨-, s', hsteps, htaken, -, hwire⟩ := published_is_transmitted plainServer
    ⟨str "llm", .tokens, 0, 0⟩ plainSession 2 0 [] (by decide +kernel) (by decide) (by decide) s 0
    hs.restrict_and (eq_of_beq hr)
  rw [hpub] at htaken
  exact ⟨s, s', hpub, hsteps, htaken, hwire⟩

/-- The session cannot open bidi streams: the pump took the call, which is nowhere. -/
theorem call_without_keyframe_lost :
    ∃ s : ServedTrack,
      Reachable ((servedSystem (plainServer.newTrack ⟨str "calls", .toolCalls, 0, 0⟩)
        (plainSession.pumpFor ⟨str "calls", .toolCalls, 0, 0⟩ 2 0) []).restrict
          (fun s l => (s.unfailing l && s.roomy l && s.early l) = true)) s ∧
      s.recv = some 0 ∧ s.fan.published = [AccessUnit.bare false 1] ∧
      s.taken = [some (AccessUnit.bare false 1)] ∧ (∀ ln ∈ s.pumps.lanes, ln.hand = []) ∧
      s.pumps.streams.length = 0 ∧ s.pumps.sent = [] := by
  exact exists_run_given [.attach 0, .fan (.publish (AccessUnit.bare false 1)), .fan (.fanout 0), .take firstTick]
    (by decide +kernel)

/-- **Tool calls.** While nothing fails and the queue does not overflow, each unit published
    since the session subscribed is in the end alone on a bidi stream; so is the keyframe
    that was cached. -/
theorem calls_on_own_streams (hnew : srv.tracks.lookup spec.name = none)
    (hkind : Server.specKind spec = .toolCalls) (hname : spec.name.length ≤ maxStreamHeader)
    (hopener : sess.cfg.feedConfig.bidiOpener = true) (s : ServedTrack) (r : ReceiverId)
    (hs : Reachable ((servedSystem (srv.newTrack spec) (sess.pumpFor spec priority trackID)
      rest).restrict (fun s l => (s.unfailing l && s.roomy l) = true)) s) (hr : s.recv = some r) :
    s.fan.accepted = s.fan.published ∧ s.offered <:+ s.fan.published ∧
      ∃ s', (servedWork (srv.newTrack spec) (sess.pumpFor spec priority trackID) rest).Steps s s' ∧
        s'.taken = (s.seed ++ s.offered).map some ∧ s'.mine.Nodup ∧
        ∀ n ∈ s'.mine, PumpSet.OwnStream (sess.pumpFor spec priority trackID) s'.pumps n := by
  have hvideo : Server.specKind spec ≠ .video := by rw [hkind]; exact nofun
  obtain ⟨hbc, hcache⟩ := Server.newTrack_passes hnew hvideo
  have hloop : (sess.pumpFor spec priority trackID).loop = .bidiPerCall := by
    simp [Session.pumpFor, Session.pumpConfig, FeedConfig.loop, hkind, defaultDeliveryClass,
      hopener]
  -- this loop refuses nothing
  have hsame : (servedSystem (srv.newTrack spec) (sess.pumpFor spec priority trackID)
      rest).restrict (fun s l => (s.unfailing l && s.roomy l) = true) =
      losslessSystem (srv.newTrack spec) (sess.pumpFor spec priority trackID) rest := by
    congr 1
    funext s l
    rw [ServedTrack.lossless, ServedTrack.suits_of_bidi hloop, Bool.and_true]
  rw [hsame] at hs
  have hthrough := ServedTrack.through_of_reachable hbc hcache hname s hs
  obtain ⟨s', hsteps, htaken, hwire⟩ := ServedTrack.exists_sent hbc hcache hname hs hr
  have hreach' := hs.steps (System.Steps.of_restrict hsteps)
  refine ⟨hthrough.accepted, hthrough.accepted ▸ hthrough.offered, s', hsteps, htaken,
    (ServedTrack.smooth_of_reachable hbc hcache hname s' hreach').nodup, fun n hn => ?_⟩
  exact (ServedTrack.alone_of_reachable s' hreach').own hloop (hwire n hn)

def smallConfig : ServerConfig := { plainConfig with perSubscriberBuffer := 1 }

def smallServer : Server := newServer plainCodec smallConfig 0

def bidiSession : Session := Session.new smallConfig.sessionConfig

/-- The second comes once the pump took the first. -/
theorem calls_on_own_streams_two :
    ∃ s s', s.offered = [AccessUnit.bare false 1, AccessUnit.bare false 2] ∧
      (servedWork (smallServer.newTrack ⟨str "calls", .toolCalls, 0, 0⟩)
        (bidiSession.pumpFor ⟨str "calls", .toolCalls, 0, 0⟩ 2 0) []).Steps s s' ∧
      s'.taken = [some (AccessUnit.bare false 1), some (AccessUnit.bare false 2)] ∧
      ∀ n ∈ s'.mine,
        PumpSet.OwnStream (bidiSession.pumpFor ⟨str "calls", .toolCalls, 0, 0⟩ 2 0) s'.pumps n := by
  obtain ⟨s, hs, hp⟩ := exists_reachable
    (ServedTrack.start (smallServer.newTrack ⟨str "calls", .toolCalls, 0, 0⟩)
      [bidiSession.pumpFor ⟨str "calls", .toolCalls, 0, 0⟩ 2 0]) ServedTrack.next
    (fun s l => s.unfailing l && s.roomy l)
    (fun s => decide (s.recv = some 0 ∧ s.seed = [] ∧
      s.offered = [AccessUnit.bare false 1, AccessUnit.bare false 2]))
    [.attach 0, .fan (.publish (AccessUnit.bare false 1)), .fan (.fanout 0), .take firstTick,
      .fan (.publish (AccessUnit.bare false 2)), .fan (.fanout 0)]
    (by decide +kernel)
  obtain ⟨hr, hseed, hoffered⟩ := of_decide_eq_true hp
  obtain ⟨-, -, s', hsteps, htaken, -, hown⟩ := calls_on_own_streams smallServer
    ⟨str "calls", .toolCalls, 0, 0⟩ bidiSession 2 0 [] (by decide +kernel) rfl (by decide) rfl s 0
    hs hr
  rw [hseed, hoffered] at htaken
  exact ⟨s, s', hoffered, hsteps, htaken, hown⟩

/-- In a burst the second evicts the first. -/
theorem call_evicted :
    ∃ s : ServedTrack,
      Reachable ((servedSystem (smallServer.newTrack ⟨str "calls", .toolCalls, 0, 0⟩)
        (bidiSession.pumpFor ⟨str "calls", .toolCalls, 0, 0⟩ 2 0) []).restrict
          (fun s l => s.unfailing l = true)) s ∧
      s.recv = some 0 ∧ s.offered = [AccessUnit.bare false 1, AccessUnit.bare false 2] ∧
      s.mine = [] ∧ s.fan.flight.isNone = true ∧
      (s.fan.recvAt 0).queue = [AccessUnit.bare false 2] := by
  exact exists_run_given [.attach 0, .fan (.publish (AccessUnit.bare false 1)), .fan (.fanout 0),
      .fan (.publish (AccessUnit.bare false 2)), .fan (.fanout 0), .fan .evict, .fan .resend]
    (by decide +kernel)

end transmits

end QuicRTC

import QuicRTC.Server.Ownership

/-! # What a Connecting Session Gets

What is attached when `Run` starts the pumps depends on the callbacks of the server: the receivers
of a parked session if there is one, else a new receiver on every track (`connect_spec`).
-/

namespace QuicRTC

open Wire Function List Option GoMap AList

namespace Server

/-! ## Subscribing to a list of tracks -/

/-- From `s` to `s'` the receivers `m` were created on the tracks of `l`. -/
structure SubscribedTo (s : Server) (l : List TrackEntry) (m : GoMap ReceiverId) (s' : Server) :
    Prop where
  wf : s'.WF
  fresh : s.nextReceiver ≤ s'.nextReceiver
  tracks : s'.tracks = s.tracks
  store : s'.store = s.store
  cfg : s'.cfg = s.cfg
  sessionAt : s'.sessionAt = s.sessionAt
  all : ∀ t ∈ l, t.name ∈ m
  live : ∀ n r, m.lookup n = some r →
                s.nextReceiver ≤ r ∧ ∃ t ∈ l, t.name = n ∧ s'.Live t.bc r

variable {s : Server}

theorem SubscribedTo.nil (hs : s.WF) : SubscribedTo s [] ∅ s := by
  refine ⟨hs, le_rfl, rfl, rfl, rfl, rfl, ?_, ?_⟩
  · exact nofun
  · exact nofun

theorem SubscribedTo.snoc {s' l m} (h : SubscribedTo s l m s') (t : TrackEntry)
    (size : PubSub → Nat) (hpos : ∀ ps, 0 < size ps) :
    SubscribedTo s (l ++ [t]) (m.insert t.name s'.nextReceiver)
      (s'.onBroadcaster t.bc (fun ps => ps.subscribeWithCap (size ps))) := by
  have htame := PubSub.tame_subscribeWithCap (s'.pubsub t.bc) (size (s'.pubsub t.bc))
  refine { h with wf := h.wf.onBroadcaster htame, fresh := h.fresh.trans htame.fresh, all := ?_, live := ?_ }
  · intro t' ht'
    apply (mem_insert _).mpr
    rcases mem_append.mp ht' with ht' | ht'
    · exact .inr (h.all t' ht')
    · exact .inl (congrArg TrackEntry.name (mem_singleton.mp ht'))
  · intro n r hr
    rcases lookup_insert_eq_some_iff.mp hr with ⟨rfl, rfl⟩ | ⟨-, hold⟩
    · refine ⟨h.fresh, t, mem_concat_self, rfl, ?_⟩
      show ((s'.onBroadcaster t.bc _).pubsub t.bc).Live _
      rw [pubsub_onBroadcaster_self]
      exact PubSub.live_subscribeWithCap (s'.pubsub t.bc) (hpos _)
    · obtain ⟨hbase, t', ht', hn, hl⟩ := h.live n r hold
      refine ⟨hbase, t', mem_append_left _ ht', hn, hl.onBroadcaster h.wf htame ?_⟩
      exact fun _ hl' => hl'.subscribeWithCap (h.wf.born t'.bc r hl.listed) _

theorem subscribedTo_onFreshSession (hs : s.WF) :
    SubscribedTo s (s.tracks.entries.map (fun e => e.2)) s.onFreshSession.1 s.onFreshSession.2 := by
  unfold onFreshSession fold
  generalize s.tracks.entries = es
  induction es using reverseRecOn with
  | nil => exact SubscribedTo.nil hs
  | append_singleton es e ih =>
    rw [foldl_append, map_append]
    exact ih.snoc e.2 (fun ps => ps.bc.chanSize) (fun ps => ps.bc.chanSize_pos)

theorem subscribedTo_subscribeParked (hs : s.WF) (l : List TrackEntry) :
    SubscribedTo s l (s.subscribeParked l).1 (s.subscribeParked l).2.2 := by
  unfold subscribeParked
  induction l using reverseRecOn with
  | nil => exact SubscribedTo.nil hs
  | append_singleton l t ih =>
    rw [foldl_append]
    exact ih.snoc t (fun ps => ps.bc.capacityFor parkedChanCap)
      (fun ps => ps.bc.capacityFor_pos parkedChanCap)

theorem SubscribedTo.table {s' m} (hs : s.WF)
    (h : SubscribedTo s (s.tracks.entries.map (fun e => e.2)) m s') :
    (∀ n, n ∈ m ↔ n ∈ s.tracks) ∧
      ∀ n r, m.lookup n = some r → s.nextReceiver ≤ r ∧
        ∃ t, s.tracks.lookup n = some t ∧ s'.Live t.bc r := by
  have hmem : ∀ t ∈ s.tracks.entries.map (fun e => e.2), s.tracks.lookup t.name = some t := by
    intro t ht
    obtain ⟨e, he, rfl⟩ := mem_map.mp ht
    have hl := mem_entries_iff.mp he
    rwa [hs.named e.1 e.2 hl]
  have hlive : ∀ n r, m.lookup n = some r → s.nextReceiver ≤ r ∧
      ∃ t, s.tracks.lookup n = some t ∧ s'.Live t.bc r := by
    intro n r hr
    obtain ⟨hbase, t, ht, rfl, hl⟩ := h.live n r hr
    exact ⟨hbase, t, hmem t ht, hl⟩
  refine ⟨fun n => ⟨?_, ?_⟩, hlive⟩
  · intro hn
    obtain ⟨r, hr⟩ := mem_iff.mp hn
    obtain ⟨-, t, ht, -⟩ := hlive n r hr
    exact mem_iff.mpr ⟨t, ht⟩
  · intro hn
    obtain ⟨t, ht⟩ := mem_iff.mp hn
    have hall := h.all t (mem_map_of_mem (mem_entries_iff (e := ⟨n, t⟩).mpr ht))
    rwa [hs.named n t ht] at hall

/-! ## Connecting -/

def connect (codec : Codec) (now : Int) (newID : GoString) (io : ControlIO) (s : Server) : Server :=
  (s.addSession.runSession codec now newID io s.nextSession).1

def greeted (codec : Codec) (io : ControlIO) (s : Server) : Session :=
  ((Session.new s.cfg.sessionConfig).receiveHello codec io).1

theorem WF.addSession (h : s.WF) : s.addSession.WF := by
  refine { h with attached := ?_ }
  intro ref n tp htp
  by_cases href : ref = s.nextSession
  · subst href
    have hnew : s.addSession.sessionAt s.nextSession = Session.new s.cfg.sessionConfig :=
      update_self ..
    rw [hnew] at htp
    cases htp
  · have hold : s.addSession.sessionAt ref = s.sessionAt ref := update_of_ne href _ _
    rw [hold] at htp
    exact h.attached ref n tp htp

section Connect

variable {codec : Codec} {io : ControlIO} {s : Server} {hello : Hello}

theorem receiveHello_ok (hdl : io.deadlineSet = true)
    (hadm : Session.Admissible codec s.cfg.sessionConfig io hello) :
    ((Session.new s.cfg.sessionConfig).receiveHello codec io).2 = .ok hello :=
  (Session.receiveHello_ok_iff codec io _ hello).mpr ⟨hdl, hadm⟩

variable {now : Int}

theorem connect_spec (hdl : io.deadlineSet = true)
    (hadm : Session.Admissible codec s.cfg.sessionConfig io hello) {newID s₂ acquired env}
    (hacq : (s.greeted codec io).acquire (callbacks now newID) hello s.addSession =
      (s₂, acquired, env)) :
    ∃ sess, s.connect codec now newID io =
        { env with sessionAt := update env.sessionAt s.nextSession sess } ∧
      sess.cfg = s.cfg.sessionConfig ∧
      sess.negotiatedFeatures =
        Session.intersectFeatures hello.features s.cfg.sessionConfig.supportedFeatures ∧
      (sess.runStarted = true → Session.Advertised codec sess) ∧
      s₂.cfg = s.cfg.sessionConfig ∧ s₂.negotiatedFeatures = [] ∧
      ∀ n, sess.attachment n = (acquired.receivers.lookup n).map (fun r =>
        (r, s₂.pumpConfig n (env.kindFor n)
          (Session.attachPriority (callbacks now newID) env acquired n)
          (Session.attachTrackID (callbacks now newID) env acquired n))) := by
  have hnew : s.addSession.sessionAt s.nextSession = Session.new s.cfg.sessionConfig :=
    update_self ..
  have hrec := receiveHello_ok hdl hadm
  obtain ⟨henv, hcfg, hfeat, hcfg₂, hnone, hatt⟩ := Session.handshake_attachment codec
    (callbacks now newID) io (Session.new s.cfg.sessionConfig) s.addSession hrec hacq
  obtain ⟨hrunenv, hruncfg, hrunfeat, hrunatt⟩ := Session.run_frame codec (callbacks now newID) io
    (Session.new s.cfg.sessionConfig) s.addSession
  refine ⟨((Session.new s.cfg.sessionConfig).run codec (callbacks now newID) io s.addSession).1,
    ?_, hruncfg.trans hcfg, hrunfeat.trans hfeat,
    Session.run_advertised codec _ io _ _ rfl, hcfg₂, hnone, ?_⟩
  · unfold connect runSession
    rw [hnew]
    simp only [hrunenv, henv]
  · intro n
    rw [hrunatt, hatt]
    rfl

/-- It has exactly the tracks of the table, each through a live receiver of the broadcaster.
    -/
structure FollowsTable (s : Server) (ref : SessionRef) : Prop where
  names : ∀ n, n ∈ (s.sessionAt ref).tracks ↔ n ∈ s.tracks
  live : ∀ n tp, (s.sessionAt ref).tracks.lookup n = some tp →
            ∃ t, s.tracks.lookup n = some t ∧ s.Live t.bc tp.recv

theorem connect_followsTable_iff (hdl : io.deadlineSet = true)
    (hadm : Session.Admissible codec s.cfg.sessionConfig io hello) {newID s₂ acquired env}
    (hacq : (s.greeted codec io).acquire (callbacks now newID) hello s.addSession =
      (s₂, acquired, env)) :
    (s.connect codec now newID io).FollowsTable s.nextSession ↔
      (∀ n, n ∈ acquired.receivers ↔ n ∈ env.tracks) ∧
        ∀ n r, acquired.receivers.lookup n = some r →
          ∃ t, env.tracks.lookup n = some t ∧ env.Live t.bc r := by
  obtain ⟨sess, heq, -, -, -, -, -, hatt⟩ := connect_spec hdl hadm hacq
  have hsess : (s.connect codec now newID io).sessionAt s.nextSession = sess := by
    rw [heq]
    exact update_self ..
  have hrecv : ∀ n, (sess.tracks.lookup n).map TrackPump.recv = acquired.receivers.lookup n :=
    fun n => Session.recv_of_attachment (hatt n)
  have hnames : ∀ n, n ∈ sess.tracks ↔ n ∈ acquired.receivers := by
    intro n
    rw [← lookup_isSome, ← lookup_isSome, ← hrecv n, isSome_map]
  constructor
  · rintro ⟨hn, hl⟩
    rw [hsess] at hn hl
    rw [heq] at hn hl
    refine ⟨fun n => (hnames n).symm.trans (hn n), ?_⟩
    intro n r hr
    obtain ⟨tp, htp, rfl⟩ := map_eq_some_iff.mp ((hrecv n).trans hr)
    exact hl n tp htp
  · rintro ⟨hn, hl⟩
    refine ⟨?_, ?_⟩
    · rw [hsess, heq]
      exact fun n => (hnames n).trans (hn n)
    · rw [hsess, heq]
      intro n tp htp
      exact hl n tp.recv (by rw [← hrecv n, htp]; rfl)

/-! ## A fresh session -/

theorem greeted_tenant (hdl : io.deadlineSet = true)
    (hadm : Session.Admissible codec s.cfg.sessionConfig io hello) :
    (Session.new s.cfg.sessionConfig).authenticate hello.slug = some (s.greeted codec io).tenant := by
  obtain ⟨version, tenant, -, hauth, hs⟩ := Session.receiveHello_session (receiveHello_ok hdl hadm)
  unfold greeted
  rw [hs]
  exact hauth

/-- The expired sessions are unsubscribed. -/
def afterResume (s : Server) (now : Int) (tenant id : GoString) : Server :=
  { s with store := (s.store.resume now tenant id).2.1 }.unsubscribeAll
    (s.store.resume now tenant id).2.2.flatten

theorem WF.afterResume {s : Server} (h : s.WF) (now : Int) (tenant id : GoString) :
    (s.afterResume now tenant id).WF ∧ (s.afterResume now tenant id).tracks = s.tracks ∧
      (s.afterResume now tenant id).cfg = s.cfg := by
  have hset : ({ s with store := (s.store.resume now tenant id).2.1 } : Server).WF :=
    h.setStore (fun k p hk => h.stored k p (MemorySessionStore.resume_sub hk))
  exact ⟨hset.unsubscribeAll _, (unsubscribeAll_frame _ _).1, unsubscribeAll_cfg _ _⟩

/-- None is asked for, or the store has none under that name. -/
def Unknown (s : Server) (now : Int) (tenant id : GoString) : Prop :=
  id = [] ∨ (s.store.resume now tenant id).1 = none

theorem onResume_of_none {s : Server} {tenant id} (h : (s.store.resume now tenant id).1 = none)
    (lastSeen : GoMap UInt32) :
    onResume now tenant id lastSeen s = (none, s.afterResume now tenant id) := by
  obtain ⟨⟨found, store, evicted⟩, hres⟩ : ∃ x, s.store.resume now tenant id = x := ⟨_, rfl⟩
  rw [hres] at h
  obtain rfl := h
  simp only [onResume, afterResume, hres]

theorem onResume_of_some {s : Server} {tenant id receivers}
    (h : (s.store.resume now tenant id).1 = some receivers) (lastSeen : GoMap UInt32) :
    onResume now tenant id lastSeen s =
      (some receivers, lastSeen.fold (resumeTrack receivers) (s.afterResume now tenant id)) := by
  obtain ⟨⟨found, store, evicted⟩, hres⟩ : ∃ x, s.store.resume now tenant id = x := ⟨_, rfl⟩
  rw [hres] at h
  obtain rfl := h
  simp only [onResume, afterResume, hres]

theorem acquire_of_unknown (hs : s.WF) (newID : GoString)
    (hnone : s.Unknown now (s.greeted codec io).tenant hello.sessionID) :
    ∃ s₁ s₂ : Server, ∃ sess, s₁.WF ∧ s₁.tracks = s.tracks ∧
      SubscribedTo s₁ (s₁.tracks.entries.map (fun e => e.2)) s₁.onFreshSession.1 s₂ ∧
      (s.greeted codec io).acquire (callbacks now newID) hello s.addSession =
        (sess, .fresh s₁.onFreshSession.1, s₂) := by
  have htry : ∃ s₁ : Server, s₁.WF ∧ s₁.tracks = s.tracks ∧
      (s.greeted codec io).tryResume (callbacks now newID) hello s.addSession = (none, s₁) := by
    by_cases hid : hello.sessionID = []
    · exact ⟨s.addSession, hs.addSession, rfl, by simp only [Session.tryResume, if_pos hid]⟩
    · obtain ⟨hwf, htab, -⟩ :=
        hs.addSession.afterResume now (s.greeted codec io).tenant hello.sessionID
      refine ⟨s.addSession.afterResume now (s.greeted codec io).tenant hello.sessionID, hwf, htab, ?_⟩
      have hres := onResume_of_none (s := s.addSession) (hnone.resolve_left hid) hello.lastSeenSeq
      simp only [Session.tryResume, if_neg hid, callbacks, hres]
  obtain ⟨s₁, hwf, htab, htry⟩ := htry
  exact ⟨s₁, _, _, hwf, htab, subscribedTo_onFreshSession hwf, Session.acquire_fresh _ _ _ htry⟩

end Connect

/-! ## Connecting keeps the server well-formed -/

theorem WF.resumeTracks (h : s.WF) (receivers : GoMap ReceiverId) (lastSeen : GoMap UInt32) :
    (lastSeen.fold (resumeTrack receivers) s).WF ∧
      (lastSeen.fold (resumeTrack receivers) s).tracks = s.tracks ∧
      (lastSeen.fold (resumeTrack receivers) s).cfg = s.cfg ∧
      (lastSeen.fold (resumeTrack receivers) s).sessionAt = s.sessionAt ∧
      (lastSeen.fold (resumeTrack receivers) s).nextReceiver = s.nextReceiver := by
  refine fold_induction (P := fun s' : Server => s'.WF ∧ s'.tracks = s.tracks ∧
    s'.cfg = s.cfg ∧ s'.sessionAt = s.sessionAt ∧ s'.nextReceiver = s.nextReceiver)
    ⟨h, rfl, rfl, rfl, rfl⟩ ?_
  rintro s' name fromSeq ⟨hwf, hframe⟩
  unfold resumeTrack
  split
  · exact ⟨{ hwf with },
      hframe⟩
  · exact ⟨hwf, hframe⟩

structure Acquires (s : Server) (receivers : GoMap ReceiverId) (s' : Server) : Prop where
  wf : s'.WF
  tracks : s'.tracks = s.tracks
  cfg : s'.cfg = s.cfg
  sessionAt : s'.sessionAt = s.sessionAt
  born : ∀ n r, receivers.lookup n = some r → r < s'.nextReceiver

theorem WF.onResume (h : s.WF) (now : Int) (tenant id : GoString) (lastSeen : GoMap UInt32) :
    Acquires s ((Server.onResume now tenant id lastSeen s).1.getD ∅)
      (Server.onResume now tenant id lastSeen s).2 := by
  obtain ⟨hwf, htab, hcfg⟩ := h.afterResume now tenant id
  have hsess : (s.afterResume now tenant id).sessionAt = s.sessionAt :=
    (unsubscribeAll_frame _ _).2.2.1
  cases hfound : (s.store.resume now tenant id).1 with
  | none =>
    rw [onResume_of_none hfound]
    exact ⟨hwf, htab, hcfg, hsess, nofun⟩
  | some receivers =>
    rw [onResume_of_some hfound]
    obtain ⟨hwf', htab', hcfg', hsess', hnext⟩ := hwf.resumeTracks receivers lastSeen
    refine ⟨hwf', htab'.trans htab, hcfg'.trans hcfg, hsess'.trans hsess, fun n r hr => ?_⟩
    obtain ⟨p, hp, -, rfl⟩ := MemorySessionStore.resume_found hfound
    rw [hnext]
    show r < (Server.unsubscribeAll _ _).nextReceiver
    rw [(unsubscribeAll_frame _ _).2.2.2.1]
    exact (h.stored _ p hp).receivers n r hr

theorem WF.acquire (h : s.WF) (sess : Session) (now : Int) (newID : GoString) (hello : Hello) :
    Acquires s (sess.acquire (callbacks now newID) hello s).2.1.receivers
      (sess.acquire (callbacks now newID) hello s).2.2 := by
  have hfresh : ∀ s₁ : Server, s₁.WF → s₁.tracks = s.tracks → s₁.cfg = s.cfg →
      s₁.sessionAt = s.sessionAt →
      sess.tryResume (callbacks now newID) hello s = (none, s₁) →
      Acquires s (sess.acquire (callbacks now newID) hello s).2.1.receivers
        (sess.acquire (callbacks now newID) hello s).2.2 := by
    intro s₁ hwf htab hcfg hsess htry
    rw [Session.acquire_fresh _ _ _ htry]
    have hsub := subscribedTo_onFreshSession hwf
    refine ⟨hsub.wf, hsub.tracks.trans htab, hsub.cfg.trans hcfg, hsub.sessionAt.trans hsess,
      fun n r hr => ?_⟩
    obtain ⟨-, t, -, -, hl⟩ := hsub.live n r hr
    exact hsub.wf.born t.bc r hl.listed
  by_cases hid : hello.sessionID = []
  · exact hfresh s h rfl rfl rfl (by simp only [Session.tryResume, if_pos hid])
  · have hres := h.onResume now sess.tenant hello.sessionID hello.lastSeenSeq
    cases hon : Server.onResume now sess.tenant hello.sessionID hello.lastSeenSeq s with
    | mk found s₁ =>
      rw [hon] at hres
      cases found with
      | none =>
        refine hfresh s₁ hres.wf hres.tracks hres.cfg hres.sessionAt ?_
        simp only [Session.tryResume, if_neg hid, callbacks, hon]
      | some receivers =>
        obtain ⟨sess', htry⟩ := Session.tryResume_of_found (callbacks now newID) sess s hid rfl hon
        rw [Session.acquire_resumed _ _ _ htry]
        exact hres

theorem acquire_of_found {codec io} {hello : Hello} (hs : s.WF) {now} (newID : GoString)
    (hid : hello.sessionID ≠ []) {receivers}
    (hfound : (s.store.resume now (s.greeted codec io).tenant hello.sessionID).1 = some receivers) :
    ∃ sess env, env.tracks = s.tracks ∧
      (s.greeted codec io).acquire (callbacks now newID) hello s.addSession =
        (sess, .resumed receivers, env) := by
  have hres := onResume_of_some (s := s.addSession) hfound hello.lastSeenSeq
  obtain ⟨sess, htry⟩ := Session.tryResume_of_found (callbacks now newID) _ _ hid rfl hres
  obtain ⟨hwf, htab, -⟩ := hs.addSession.afterResume now (s.greeted codec io).tenant hello.sessionID
  exact ⟨sess, _, (hwf.resumeTracks receivers hello.lastSeenSeq).2.1.trans htab,
    Session.acquire_resumed _ _ _ htry⟩

/-- The callbacks leave some state, and the new session is put into it. -/
structure Connected (codec : Codec) (s env : Server) (sess : Session) : Prop where
  wf : env.WF
  cfg : env.cfg = s.cfg
  sessionAt : env.sessionAt = s.addSession.sessionAt
  session : sess.cfg = s.cfg.sessionConfig
  advertised : sess.runStarted = true → Session.Advertised codec sess
  born : ∀ n tp, sess.tracks.lookup n = some tp → tp.recv < env.nextReceiver

theorem connect_cases (h : s.WF) (codec : Codec) (now : Int) (newID : GoString) (io : ControlIO) :
    ∃ env sess, s.connect codec now newID io = env.onSession s.nextSession (fun _ => sess) ∧
      Connected codec s env sess := by
  have hnew : s.addSession.sessionAt s.nextSession = Session.new s.cfg.sessionConfig :=
    update_self ..
  cases hrec : ((Session.new s.cfg.sessionConfig).receiveHello codec io).2 with
  | error err =>
    obtain ⟨sess, hsess, hcfg, -, htracks, -⟩ := Session.handshake_of_error (callbacks now newID)
      s.addSession hrec
    have hrun : (Session.new s.cfg.sessionConfig).run codec (callbacks now newID) io s.addSession =
        (sess, s.addSession, .error err) := by
      simp only [Session.run, hsess]
    have hadv := Session.run_advertised codec (callbacks now newID) io
      (Session.new s.cfg.sessionConfig) s.addSession rfl
    rw [hrun] at hadv
    refine ⟨s.addSession, sess, ?_, h.addSession, rfl, rfl, hcfg, hadv, ?_⟩
    · unfold connect runSession
      simp only [hnew, hrun]
      rfl
    · intro n tp htp
      rw [htracks] at htp
      cases htp
  | ok hello =>
    obtain ⟨hdl, hadm⟩ := (Session.receiveHello_ok_iff codec io _ hello).mp hrec
    have hgot := h.addSession.acquire (s.greeted codec io) now newID hello
    obtain ⟨⟨s₂, acquired, env⟩, hacq⟩ :
        ∃ x, (s.greeted codec io).acquire (callbacks now newID) hello s.addSession = x := ⟨_, rfl⟩
    rw [hacq] at hgot
    obtain ⟨sess, heq, hcfg, -, hadv, -, -, hatt⟩ := connect_spec hdl hadm hacq
    refine ⟨env, sess, heq, hgot.wf, hgot.cfg, hgot.sessionAt, hcfg, hadv, ?_⟩
    intro n tp htp
    have hn := hatt n
    simp only [Session.attachment, htp, map_some] at hn
    obtain ⟨r, hr, hpair⟩ := map_eq_some_iff.mp hn.symm
    obtain rfl : r = tp.recv := congrArg Prod.fst hpair
    exact hgot.born n _ hr

theorem WF.connect (h : s.WF) (codec : Codec) (now : Int) (newID : GoString) (io : ControlIO) :
    (s.connect codec now newID io).WF := by
  obtain ⟨env, sess, heq, hc⟩ := connect_cases h codec now newID io
  rw [heq]
  exact hc.wf.onSession s.nextSession hc.born

end Server

end QuicRTC

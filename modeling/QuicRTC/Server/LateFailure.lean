import QuicRTC.Server.ResumedTracks

/-! # A Resume That Fails Late

A HELLO that names a parked session takes its receivers out of the store before the SDP is written.
When that write fails, the deferred park of `runSession` subscribes new receivers and drops the
resumed ones with everything they had buffered; a new one starts with the cached keyframe.
-/

namespace QuicRTC

open Wire Function List Option GoMap

/-! ## Operations that leave the queues alone -/

namespace PubSub

/-- Existing queues do not change. -/
structure Quiet (ps ps' : PubSub) : Prop where
  fresh : ps.fresh ≤ ps'.fresh
  queue : ∀ r < ps.fresh, (ps'.heap r).queue = (ps.heap r).queue

theorem quiet_subscribeWithCap (ps : PubSub) (chanSize : Nat) :
    Quiet ps (ps.subscribeWithCap chanSize) where
  fresh := Nat.le_succ _
  queue := fun _ hlt => congrArg Receiver.queue (update_of_ne (Nat.ne_of_lt hlt) _ _)

theorem quiet_unsubscribe (ps : PubSub) (q : ReceiverId) : Quiet ps (ps.unsubscribe q) := by
  unfold unsubscribe
  split
  · refine ⟨le_rfl, fun r _ => ?_⟩
    by_cases hr : r = q
    · simp only [hr, update_self, Receiver.close_queue]
    · simp only [update_of_ne hr]
  · exact ⟨le_rfl, fun _ _ => rfl⟩

theorem quiet_close (ps : PubSub) : Quiet ps ps.close := by
  refine ⟨le_rfl, fun r _ => ?_⟩
  simp only [close]
  split
  · exact Receiver.close_queue _
  · rfl

end PubSub

/-- All but `Publish`. -/
def TrackOp.quiet : TrackOp → Bool
  | .add .. => true
  | .remove .. => true
  | .publish .. => false

namespace Server

structure Quiet (s s' : Server) : Prop where
  fresh : s.nextReceiver ≤ s'.nextReceiver
  queue : ∀ r < s.nextReceiver, (s'.heap r).queue = (s.heap r).queue

theorem Quiet.refl (s : Server) : Quiet s s := ⟨le_rfl, fun _ _ => rfl⟩

variable {s : Server} {ref : SessionRef}

theorem Quiet.trans {s' s''} (h : Quiet s s') (h' : Quiet s' s'') : Quiet s s'' where
  fresh := h.fresh.trans h'.fresh
  queue := fun r hlt => (h'.queue r (hlt.trans_le h.fresh)).trans (h.queue r hlt)

theorem quiet_onBroadcaster {b} {f : PubSub → PubSub}
    (hf : PubSub.Quiet (s.pubsub b) (f (s.pubsub b))) : Quiet s (s.onBroadcaster b f) :=
  { hf with }

theorem quiet_onSession (s : Server) (ref : SessionRef) (f : Session → Session) :
    Quiet s (s.onSession ref f) := ⟨le_rfl, fun _ _ => rfl⟩

theorem quiet_unsubscribeAll (s : Server) (pairs : List (BroadcasterId × ReceiverId)) :
    Quiet s (s.unsubscribeAll pairs) :=
  unsubscribeAll_induction
    (fun _ _ _ h => h.trans (quiet_onBroadcaster (PubSub.quiet_unsubscribe _ _))) (Quiet.refl s)

theorem quiet_exec (codec : Codec) (s : Server) {op : TrackOp} (hop : op.quiet = true) :
    Quiet s (s.exec codec op) := by
  cases op with
  | add accepted spec =>
    refine addTrackInternal_induction (P := Quiet s) codec accepted _ _ _ _ ?_ ?_ ?_
    · obtain ⟨hheap, hnext, -⟩ := s.registerTrack_frame spec.name (specKind spec)
        (specPriority spec) spec.trackID
      exact ⟨hnext.ge, fun r _ => by rw [hheap]⟩
    · intro s' b ref h
      unfold attachAdded
      have hsub : PubSub.Quiet (s'.pubsub b) (s'.pubsub b).subscribe :=
        PubSub.quiet_subscribeWithCap _ _
      exact (h.trans (quiet_onBroadcaster hsub)).trans (quiet_onSession _ _ _)
    · exact fun s' ref h => h.trans (quiet_onSession _ _ _)
  | remove accepted name =>
    refine removeTrack_induction (P := Quiet s) codec accepted name ?_ ?_ ?_
    · unfold unregisterTrack
      split
      · exact Quiet.refl s
      · exact ⟨le_rfl, fun _ _ => rfl⟩
    · exact fun s' ref h => h.trans (quiet_onSession _ _ _)
    · exact fun t _ s' h => h.trans (quiet_onBroadcaster (PubSub.quiet_close _))
  | publish b au => cases hop

theorem quiet_execAll (codec : Codec) (s : Server) {ops} (hops : ∀ op ∈ ops, op.quiet = true) :
    Quiet s (s.execAll codec ops) := by
  induction ops generalizing s with
  | nil => exact Quiet.refl s
  | cons op ops ih =>
    have hop := hops op mem_cons_self
    exact (quiet_exec codec s hop).trans
      (ih (s.exec codec op) (fun op' h => hops op' (mem_cons_of_mem _ h)))

theorem quiet_afterResume (s : Server) (now : Int) (tenant id : GoString) :
    Quiet s (s.afterResume now tenant id) := by
  have hset : Quiet s { s with store := (s.store.resume now tenant id).2.1 } :=
    ⟨le_rfl, fun _ _ => rfl⟩
  exact hset.trans (quiet_unsubscribeAll _ _)

/-! ## What the park leaves -/

theorem subscribe_latestKeyframe (s : Server) (b : BroadcasterId) (want : Nat)
    (b' : BroadcasterId) :
    ((s.onBroadcaster b (fun ps => ps.subscribeWithCapacity want)).broadcasters b').latestKeyframe =
      (s.broadcasters b').latestKeyframe := by
  by_cases hb : b' = b
  · subst hb
    simp only [onBroadcaster, update_self]
    rfl
  · exact congrArg Broadcaster.latestKeyframe (onBroadcaster_of_ne _ hb _)

theorem subscribeParked_queue (s : Server) (l : List TrackEntry) :
    ∀ n r, (s.subscribeParked l).1.lookup n = some r →
      r < (s.subscribeParked l).2.2.nextReceiver ∧
      ∃ t ∈ l, t.name = n ∧ ((s.subscribeParked l).2.2.heap r).queue =
        (s.broadcasters t.bc).latestKeyframe.toList := by
  suffices h : (∀ b, ((s.subscribeParked l).2.2.broadcasters b).latestKeyframe =
      (s.broadcasters b).latestKeyframe) ∧ ∀ n r, (s.subscribeParked l).1.lookup n = some r →
      r < (s.subscribeParked l).2.2.nextReceiver ∧
      ∃ t ∈ l, t.name = n ∧ ((s.subscribeParked l).2.2.heap r).queue =
        (s.broadcasters t.bc).latestKeyframe.toList from h.2
  unfold subscribeParked
  induction l using reverseRecOn with
  | nil => exact ⟨fun _ => rfl, nofun⟩
  | append_singleton l t ih =>
    rw [foldl_append, foldl_cons, foldl_nil]
    generalize l.foldl _ _ = acc at ih ⊢
    obtain ⟨hcached, hqueue⟩ := ih
    have hquiet := PubSub.quiet_subscribeWithCap (acc.2.2.pubsub t.bc)
      ((acc.2.2.pubsub t.bc).bc.capacityFor parkedChanCap)
    refine ⟨fun b => (subscribe_latestKeyframe _ _ _ b).trans (hcached b), fun n r hr => ?_⟩
    · rcases lookup_insert_eq_some_iff.mp hr with ⟨rfl, rfl⟩ | ⟨-, hold⟩
      · refine ⟨Nat.lt_succ_self _, t, mem_concat_self, rfl, ?_⟩
        rw [← hcached t.bc]
        refine Eq.trans (congrArg Receiver.queue (update_self ..)) ?_
        exact (Broadcaster.newReceiver_spec _ (Broadcaster.capacityFor_pos _ _)).1
      · obtain ⟨hlt, t', ht', hn, hq⟩ := hqueue n r hold
        exact ⟨hlt.trans_le hquiet.fresh, t', mem_append_left _ ht', hn,
          (hquiet.queue r hlt).trans hq⟩

theorem quiet_endSession {ctxDone} (hp : s.Parks ref ctxDone) (now later : Int) :
    Quiet (s.subscribeParked (s.tracks.entries.map (fun e => e.2))).2.2
      (s.endSession ref ctxDone now later) := by
  have hguard : ¬ ((s.sessionAt ref).sessionID = [] || ctxDone || s.draining) = true := by
    simp [hp.identified, hp.running, hp.serving]
  unfold endSession parkSession
  simp only [if_neg hguard]
  generalize s.subscribeParked (s.tracks.entries.map (fun e => e.2)) = acc
  obtain ⟨parked, onEvict, s₁⟩ := acc
  have hset : ∀ (s' : Server) (store : MemorySessionStore), Quiet s' { s' with store := store } :=
    fun _ _ => ⟨le_rfl, fun _ _ => rfl⟩
  have hremove : ∀ s' : Server, Quiet s' (s'.removeSession ref) :=
    fun _ => ⟨le_rfl, fun _ _ => rfl⟩
  have hactive := quiet_unsubscribeAll s₁
    (s₁.activeReceivers ref (s.tracks.entries.map (fun e => e.2)))
  exact ((hactive.trans (hset _ _)).trans (quiet_unsubscribeAll _ _)).trans (hremove _)

theorem parkedEntry_queue (hwf : s.WF) {ctxDone} (hp : s.Parks ref ctxDone) (now later : Int) {n r}
    (hr : (s.parkedEntry ref later).receivers.lookup n = some r) :
    r < (s.endSession ref ctxDone now later).nextReceiver ∧
      ∃ t, s.tracks.lookup n = some t ∧ ((s.endSession ref ctxDone now later).heap r).queue =
        (s.broadcasters t.bc).latestKeyframe.toList := by
  obtain ⟨hlt, t, ht, rfl, hq⟩ := s.subscribeParked_queue _ n r hr
  have hquiet := quiet_endSession hp now later
  obtain ⟨e, he, rfl⟩ := mem_map.mp ht
  have hentry := mem_entries_iff.mp he
  rw [← hwf.named e.1 e.2 hentry] at hentry
  exact ⟨hlt.trans_le hquiet.fresh, e.2, hentry, (hquiet.queue r hlt).trans hq⟩

/-! ## The failed resume -/

/-- The parked session `p` is taken out of the store, but `Run` returns an error. -/
structure FailsLate (codec : Codec) (s : Server) (now : Int) (newID : GoString) (io : ControlIO)
    (hello : Hello) (p : PersistedSession) : Prop where
  deadline : io.deadlineSet = true
  admissible : Session.Admissible codec s.cfg.sessionConfig io hello
  asked : hello.sessionID ≠ []
  parked : s.store.byID.lookup (scopedKey (s.greeted codec io).tenant hello.sessionID) = some p
  inTime : now ≤ p.expiresAt
  error : (s.addSession.runSession codec now newID io s.nextSession).2 ≠ .ok ()

/-- With the same credential and session but without cursors. -/
structure Retries (codec : Codec) (s : Server) (hello : Hello) (io' : ControlIO) (hello' : Hello) :
    Prop where
  deadline : io'.deadlineSet = true
  admissible : Session.Admissible codec s.cfg.sessionConfig io' hello'
  tenant : (Session.new s.cfg.sessionConfig).authenticate hello'.slug =
                 (Session.new s.cfg.sessionConfig).authenticate hello.slug
  session : hello'.sessionID = hello.sessionID
  noCursor : hello'.lastSeenSeq = ∅

theorem unsubscribeAll_draining (s : Server) (pairs : List (BroadcasterId × ReceiverId)) :
    (s.unsubscribeAll pairs).draining = s.draining :=
  unsubscribeAll_induction (P := fun s' => s'.draining = s.draining) (fun _ _ _ h => h) rfl

theorem FailsLate.connected {codec now newID io hello p}
    (h : FailsLate codec s now newID io hello p) :
    ((s.connect codec now newID io).sessionAt s.nextSession).identity =
        ((s.greeted codec io).tenant, hello.sessionID) ∧
      (s.connect codec now newID io).draining = s.draining := by
  obtain ⟨hfound, -⟩ := MemorySessionStore.resume_spec h.parked h.inTime
  have hres := onResume_of_some (s := s.addSession) hfound hello.lastSeenSeq
  obtain ⟨sess, htry⟩ := Session.tryResume_of_found (callbacks now newID) _ _ h.asked rfl hres
  have hacq := Session.acquire_resumed _ _ _ htry
  have hnew : s.addSession.sessionAt s.nextSession = Session.new s.cfg.sessionConfig :=
    update_self ..
  have hid := Session.run_identity codec (callbacks now newID) io
    (Session.new s.cfg.sessionConfig) s.addSession (receiveHello_ok h.deadline h.admissible) hacq
  rw [Session.tryResume_identity _ _ _ htry] at hid
  obtain ⟨sess', heq, -⟩ := connect_spec h.deadline h.admissible hacq
  refine ⟨?_, ?_⟩
  · rw [← hid]
    unfold connect runSession
    rw [hnew]
    exact congrArg Session.identity (update_self ..)
  · rw [heq]
    refine fold_induction (P := fun s' : Server => s'.draining = s.draining) ?_ ?_
    · exact unsubscribeAll_draining _ _
    · intro s' name fromSeq hs'
      unfold resumeTrack
      split <;> exact hs'

theorem onSession_identity (s : Server) (ref ref' : SessionRef) {f : Session → Session}
    (hf : ∀ sess, (f sess).identity = sess.identity) :
    ((s.onSession ref' f).sessionAt ref).identity = (s.sessionAt ref).identity := by
  by_cases href : ref = ref'
  · subst href
    rw [onSession_self, hf]
  · rw [onSession_of_ne _ href]

theorem exec_identity (codec : Codec) (s : Server) (op : TrackOp) (ref : SessionRef) :
    ((s.exec codec op).sessionAt ref).identity = (s.sessionAt ref).identity ∧
      (s.exec codec op).draining = s.draining := by
  cases op with
  | add accepted spec =>
    refine addTrackInternal_induction (P := fun s' : Server =>
      (s'.sessionAt ref).identity = (s.sessionAt ref).identity ∧ s'.draining = s.draining)
      codec accepted _ _ _ _ ?_ ?_ ?_
    · unfold registerTrack
      split <;> exact ⟨rfl, rfl⟩
    · intro s' b ref' hs'
      unfold attachAdded
      exact ⟨(onSession_identity _ ref ref' (by simp)).trans hs'.1, hs'.2⟩
    · exact fun s' ref' hs' => ⟨(onSession_identity _ ref ref' (by simp)).trans hs'.1, hs'.2⟩
  | remove accepted name =>
    refine removeTrack_induction (P := fun s' : Server =>
      (s'.sessionAt ref).identity = (s.sessionAt ref).identity ∧ s'.draining = s.draining)
      codec accepted name ?_ ?_ ?_
    · unfold unregisterTrack
      split <;> exact ⟨rfl, rfl⟩
    · exact fun s' ref' hs' => ⟨(onSession_identity _ ref ref' (by simp)).trans hs'.1, hs'.2⟩
    · exact fun t _ s' hs' => hs'
  | publish b au => exact ⟨rfl, rfl⟩

theorem WF.execAll (h : s.WF) (codec : Codec) (ops : List TrackOp) (ref : SessionRef) :
    (s.execAll codec ops).WF ∧ (s.execAll codec ops).cfg = s.cfg ∧
      ((s.execAll codec ops).sessionAt ref).identity = (s.sessionAt ref).identity ∧
      (s.execAll codec ops).draining = s.draining := by
  induction ops generalizing s with
  | nil => exact ⟨h, rfl, rfl, rfl⟩
  | cons op ops ih =>
    obtain ⟨hwf, hcfg, hid, hdrain⟩ := ih (h.exec codec op)
    obtain ⟨hid', hdrain'⟩ := exec_identity codec s op ref
    exact ⟨hwf, hcfg.trans (exec_frame codec s op).2, hid.trans hid', hdrain.trans hdrain'⟩

/-! ## The next resume -/

def parkedQueue (s : Server) (p : PersistedSession) (n : GoString) : List AccessUnit :=
  ((p.receivers.lookup n).map (fun r => (s.heap r).queue)).getD []

/-- Every unit `p` had buffered is buffered for the session `ref` of `s'`, on the same
    track. -/
def Recovered (s : Server) (p : PersistedSession) (s' : Server) (ref : SessionRef) : Prop :=
  ∀ n, ∀ au ∈ s.parkedQueue p n,
    ∃ tp, (s'.sessionAt ref).tracks.lookup n = some tp ∧ au ∈ (s'.heap tp.recv).queue

def failedOnce (codec : Codec) (s : Server) (now : Int) (newID : GoString) (io : ControlIO)
    (before : List TrackOp) : Server :=
  (s.connect codec now newID io).execAll codec before

theorem resumed_queue_iff {codec} (hwf : s.WF) (hp : s.Parks ref false) (now later : Int) {ops}
    (hops : ∀ op ∈ ops, op.quiet = true) {io hello} (hback : ComesBack codec s ref io hello)
    (hcursor : hello.lastSeenSeq = ∅) {again} (htime : again ≤ later + s.store.resumeTTL)
    (newID : GoString) (n : GoString) (au : AccessUnit) :
    (∃ tp, (((s.away codec ref false now later ops).connect codec again newID io).sessionAt
          (s.away codec ref false now later ops).nextSession).tracks.lookup n = some tp ∧
        au ∈ (((s.away codec ref false now later ops).connect codec again newID io).heap
          tp.recv).queue) ↔
      ∃ t, s.tracks.lookup n = some t ∧ (s.broadcasters t.bc).latestKeyframe = some au := by
  obtain ⟨hend, hcfgend, -⟩ := kept_endSession hwf hp now later
  obtain ⟨hkept, hcfg⟩ := hend.execAll codec ops
  have hcfg : (s.away codec ref false now later ops).cfg = s.cfg := hcfg.trans hcfgend
  have hquiet := quiet_execAll codec (s.endSession ref false now later) hops
  have hqueue : ∀ n r, (s.parkedEntry ref later).receivers.lookup n = some r →
      r < (s.away codec ref false now later ops).nextReceiver ∧ ∃ t, s.tracks.lookup n = some t ∧
        ((s.away codec ref false now later ops).heap r).queue =
          (s.broadcasters t.bc).latestKeyframe.toList := by
    intro n r hr
    obtain ⟨hlt, t, ht, hq⟩ := parkedEntry_queue hwf hp now later hr
    exact ⟨hlt.trans_le hquiet.fresh, t, ht, (hquiet.queue r hlt).trans hq⟩
  change Kept _ _ _ _ (s.away codec ref false now later ops) at hkept
  generalize s.away codec ref false now later ops = s' at hkept hcfg hqueue ⊢
  obtain ⟨hadm, htenant⟩ := hback.greeted hcfg
  have hid : hello.sessionID ≠ [] := hback.session ▸ hp.identified
  rw [← hback.session, ← htenant] at hkept
  -- The receivers found are attached as they are.
  obtain ⟨hfound, -⟩ := MemorySessionStore.resume_spec hkept.entry htime
  have hres := onResume_of_some (s := s'.addSession) hfound hello.lastSeenSeq
  obtain ⟨sess, htry⟩ := Session.tryResume_of_found (callbacks again newID) _ _ hid rfl hres
  have hacq := Session.acquire_resumed _ _ _ htry
  obtain ⟨sess', heq, -, -, -, -, -, hatt⟩ := connect_spec hback.deadline hadm hacq
  have hquiet := (s'.addSession).quiet_afterResume again (s'.greeted codec io).tenant hello.sessionID
  have hnone : ∀ s₁ : Server, (∅ : GoMap UInt32).fold
      (resumeTrack (s.parkedEntry ref later).receivers) s₁ = s₁ := fun _ => rfl
  rw [hcursor, hnone] at heq
  rw [heq]
  simp only [update_self]
  have hrecv : (sess'.tracks.lookup n).map TrackPump.recv =
      (s.parkedEntry ref later).receivers.lookup n := Session.recv_of_attachment (hatt n)
  constructor
  · rintro ⟨tp, htp, hau⟩
    rw [htp] at hrecv
    obtain ⟨hlt, t, ht, hq⟩ := hqueue n tp.recv hrecv.symm
    rw [hquiet.queue _ hlt] at hau
    refine ⟨t, ht, ?_⟩
    have hmem : au ∈ (s.broadcasters t.bc).latestKeyframe.toList := hq ▸ hau
    exact mem_toList.mp hmem
  · rintro ⟨t, ht, hkey⟩
    obtain ⟨r, hr⟩ := mem_iff.mp ((hkept.names n).mpr (mem_iff.mpr ⟨t, ht⟩))
    obtain ⟨tp, htp, rfl⟩ := map_eq_some_iff.mp (hrecv.trans hr)
    obtain ⟨hlt, t', ht', hq⟩ := hqueue n tp.recv hr
    obtain rfl : t' = t := mem_unique ht' ht
    refine ⟨tp, htp, ?_⟩
    rw [hquiet.queue _ hlt]
    show au ∈ (s'.heap tp.recv).queue
    rw [hq]
    exact mem_toList.mpr hkey

/-- What the parked session had buffered is found by the next resume iff every unit of it is
    the cached keyframe of its track when the failed session is parked. -/
theorem recovered_iff {codec : Codec} {cfg : ServerConfig} {resumeWindow : Int} {s : Server}
    (hs : LTS.Reachable (serverSystem codec cfg resumeWindow) s) (hserving : s.draining = false)
    {now : Int} {newID : GoString} {io : ControlIO} {hello : Hello} {p : PersistedSession}
    (hfail : FailsLate codec s now newID io hello p) (before : List TrackOp)
    {after : List TrackOp} (hafter : ∀ op ∈ after, op.quiet = true) (parkNow later : Int)
    {io' : ControlIO} {hello' : Hello} (hretry : Retries codec s hello io' hello') {again : Int}
    (htime : again ≤ later + (s.failedOnce codec now newID io before).store.resumeTTL)
    (newID' : GoString) :
    s.Recovered p
        (((s.failedOnce codec now newID io before).away codec s.nextSession false parkNow later
          after).connect codec again newID' io')
        ((s.failedOnce codec now newID io before).away codec s.nextSession false parkNow later
          after).nextSession ↔
      ∀ n, ∀ au ∈ s.parkedQueue p n, ∃ t,
        (s.failedOnce codec now newID io before).tracks.lookup n = some t ∧
          ((s.failedOnce codec now newID io before).broadcasters t.bc).latestKeyframe = some au := by
  have hwf := wf_of_reachable s hs
  obtain ⟨hid, hdrain⟩ := hfail.connected
  obtain ⟨env, sess, heq, hconn⟩ := connect_cases hwf codec now newID io
  have hcfg : (s.connect codec now newID io).cfg = s.cfg := by
    rw [heq]
    exact hconn.cfg
  obtain ⟨hwf₁, hcfg₁, hid₁, hdrain₁⟩ :=
    (hwf.connect codec now newID io).execAll codec before s.nextSession
  have hident : ((s.failedOnce codec now newID io before).sessionAt s.nextSession).identity =
      ((s.greeted codec io).tenant, hello.sessionID) := hid₁.trans hid
  have htenant := congrArg Prod.fst hident
  have hsession := congrArg Prod.snd hident
  simp only [Session.identity] at htenant hsession
  have hparks : (s.failedOnce codec now newID io before).Parks s.nextSession false :=
    ⟨hsession ▸ hfail.asked, rfl, (hdrain₁.trans hdrain).trans hserving⟩
  have hback : ComesBack codec (s.failedOnce codec now newID io before) s.nextSession io' hello' := by
    have hcfg' : (s.failedOnce codec now newID io before).cfg = s.cfg := hcfg₁.trans hcfg
    refine ⟨hretry.deadline, hcfg' ▸ hretry.admissible, ?_, hretry.session.trans hsession.symm⟩
    rw [hcfg', hretry.tenant, htenant]
    exact greeted_tenant hfail.deadline hfail.admissible
  constructor
  · intro h n au hau
    exact (resumed_queue_iff hwf₁ hparks parkNow later hafter hback hretry.noCursor htime newID'
      n au).mp (h n au hau)
  · intro h n au hau
    exact (resumed_queue_iff hwf₁ hparks parkNow later hafter hback hretry.noCursor htime newID'
      n au).mpr (h n au hau)

def waiting (aus : List AccessUnit) : Server :=
  (oneClient.endSession 0 false 10 20).execAll plainCodec (aus.map (fun au => .publish 0 au))

theorem reachable_waiting (aus : List AccessUnit) :
    LTS.Reachable (serverSystem plainCodec plainConfig 0) (waiting aus) :=
  reachable_execAll (reachable_oneClient.step (.disconnect 0 false 10 20) rfl) _

def vanishingClient : ControlIO := { plainClient (str "s") with sdpAccepted := false }

def waitingEntry : PersistedSession where
  id := str "s"
  receivers := AList.singleton (str "primary") 1
  expiresAt := 20 + defaultResumeWindow
  onEvict := [(0, 1)]

def vanishAndReturn (s : Server) : Server :=
  ((s.failedOnce plainCodec 30 (str "t") vanishingClient []).away plainCodec 1 false 40 50
    []).connect plainCodec 60 (str "u") (plainClient (str "s"))

def keyUnit : AccessUnit := AccessUnit.bare true 1

def nextUnit : AccessUnit := AccessUnit.bare false 2

theorem recovered_iff_keyframe :
    ∃ hello, FailsLate plainCodec (waiting [keyUnit]) 30 (str "t") vanishingClient hello
        waitingEntry ∧
      Retries plainCodec (waiting [keyUnit]) hello (plainClient (str "s")) hello ∧
      (waiting [keyUnit]).Recovered waitingEntry (waiting [keyUnit]).vanishAndReturn 2 := by
  obtain ⟨hello, hfail, hretry⟩ : ∃ hello,
      FailsLate plainCodec (waiting [keyUnit]) 30 (str "t") vanishingClient hello waitingEntry ∧
      Retries plainCodec (waiting [keyUnit]) hello (plainClient (str "s")) hello := by
    refine ⟨_, ⟨rfl, ⟨⟨_, rfl, rfl⟩, by decide, rfl, .inl rfl⟩, by decide, rfl, by decide,
      by decide⟩, ⟨rfl, ⟨⟨_, rfl, rfl⟩, by decide, rfl, .inl rfl⟩, rfl, rfl, rfl⟩⟩
  refine ⟨hello, hfail, hretry, ?_⟩
  refine Iff.mpr (recovered_iff (reachable_waiting _) rfl hfail [] ?_ 40 50 hretry (by decide)
    (str "u")) ?_
  · exact nofun
  · intro n au hau
    by_cases hn : n = str "primary"
    · subst hn
      have hqueue : (waiting [keyUnit]).parkedQueue waitingEntry (str "primary") =
          [keyUnit] := by decide +kernel
      rw [hqueue, mem_singleton] at hau
      subst hau
      exact ⟨_, rfl, by decide +kernel⟩
    · have hnone : waitingEntry.receivers.lookup n = none :=
        AList.lookup_eq_none.mpr (fun hmem => hn (mem_singleton.mp hmem))
      simp only [parkedQueue, hnone] at hau
      cases hau

/-- The unit after the keyframe is lost. -/
theorem nextUnit_not_recovered :
    LTS.Reachable (serverSystem plainCodec plainConfig 0) (waiting [keyUnit, nextUnit]) ∧
      (∃ hello, FailsLate plainCodec (waiting [keyUnit, nextUnit]) 30 (str "t") vanishingClient hello
          waitingEntry ∧
        Retries plainCodec (waiting [keyUnit, nextUnit]) hello (plainClient (str "s")) hello) ∧
      ¬ (waiting [keyUnit, nextUnit]).Recovered waitingEntry
        (waiting [keyUnit, nextUnit]).vanishAndReturn 2 := by
  refine ⟨reachable_waiting _, ⟨_, ⟨rfl, ⟨⟨_, rfl, rfl⟩, by decide, rfl, .inl rfl⟩, by decide, rfl,
    by decide, by decide⟩, ⟨rfl, ⟨⟨_, rfl, rfl⟩, by decide, rfl, .inl rfl⟩, rfl, rfl, rfl⟩⟩, ?_⟩
  intro h
  obtain ⟨tp, htp, hau⟩ := h (str "primary") nextUnit (by decide +kernel)
  have hrecv : ((waiting [keyUnit, nextUnit]).vanishAndReturn.sessionAt 2).receivers
      (str "primary") = [2] := by decide +kernel
  simp only [Session.receivers, htp, cons.injEq, and_true] at hrecv
  rw [hrecv] at hau
  revert hau
  decide +kernel

end Server

end QuicRTC

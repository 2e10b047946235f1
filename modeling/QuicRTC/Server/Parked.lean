import QuicRTC.Framework.System
import QuicRTC.Server.Connect

/-! # Parked Sessions

A session that disconnects is parked with one receiver for each track of that moment. As long as the
table maps the name to the broadcaster that created the receiver, that broadcaster lists it and it
is open, and no other broadcaster ever lists it (`Tracked`).
-/

namespace QuicRTC

open Wire LTS List GoMap

/-! ## Calls while parked -/

/-- `accepted` tells which control streams take the notification. -/
inductive TrackOp where
  | add (accepted : SessionRef → Bool) (spec : TrackSpec)
  | remove (accepted : SessionRef → Bool) (name : GoString)
  | publish (b : BroadcasterId) (au : AccessUnit)

namespace Server

def exec (codec : Codec) (s : Server) : TrackOp → Server
  | .add accepted spec => s.addTrackSpec codec accepted spec
  | .remove accepted name => s.removeTrack codec accepted name
  | .publish b au => s.publish b au

def execAll (codec : Codec) (s : Server) (ops : List TrackOp) : Server := ops.foldl (exec codec) s

variable {s : Server}

theorem WF.exec (h : s.WF) (codec : Codec) (op : TrackOp) : (s.exec codec op).WF := by
  cases op with
  | add accepted spec => exact h.addTrackInternal codec accepted _ _ _ _
  | remove accepted name => exact h.removeTrack codec accepted name
  | publish b au => exact h.publish b au

theorem exec_frame (codec : Codec) (s : Server) (op : TrackOp) :
    (s.exec codec op).store = s.store ∧ (s.exec codec op).cfg = s.cfg := by
  cases op with
  | add accepted spec =>
    refine addTrackInternal_induction (P := fun s' => s'.store = s.store ∧ s'.cfg = s.cfg)
      codec accepted _ _ _ _ ?_ (fun _ _ _ h => h) (fun _ _ h => h)
    unfold registerTrack
    split <;> exact ⟨rfl, rfl⟩
  | remove accepted name =>
    refine removeTrack_induction (P := fun s' => s'.store = s.store ∧ s'.cfg = s.cfg)
      codec accepted name ?_ (fun _ _ h => h) (fun _ _ _ h => h)
    unfold unregisterTrack
    split <;> exact ⟨rfl, rfl⟩
  | publish b au => exact ⟨rfl, rfl⟩

/-! ## One parked receiver -/

/-- No other broadcaster lists the parked receiver `r`, and while the table maps the name to
    `b` it is live. -/
structure Tracked (s : Server) (n : GoString) (b : BroadcasterId) (r : ReceiverId) : Prop where
  known : b < s.nextBroadcaster
  born : r < s.nextReceiver
  home : ∀ b', r ∈ (s.broadcasters b').receivers → b' = b
  live : ∀ t, s.tracks.lookup n = some t → t.bc = b → s.Live b r

section Tracked

variable {s : Server} {n : GoString} {b : BroadcasterId} {r : ReceiverId}

theorem Tracked.onBroadcaster (h : s.Tracked n b r) (hwf : s.WF) {b'} {f : PubSub → PubSub}
    (hf : PubSub.Tame (s.pubsub b') (f (s.pubsub b')))
    (hself : b = b' → (∃ t, s.tracks.lookup n = some t ∧ t.bc = b) →
      (s.pubsub b').Live r → (f (s.pubsub b')).Live r) : (s.onBroadcaster b' f).Tracked n b r where
  known := h.known
  born := h.born.trans_le hf.fresh
  home := fun b'' hr => h.home b'' ((evolves_onBroadcaster hf).old b'' r h.born hr)
  live := fun t ht hb => (h.live t ht hb).onBroadcaster hwf hf
    (fun heq hl => hself heq ⟨t, ht, hb⟩ hl)

theorem Tracked.of_live {t} (hwf : s.WF) (ht : s.tracks.lookup n = some t) (hl : s.Live t.bc r) :
    s.Tracked n t.bc r where
  known := hwf.known n t ht
  born := hwf.born t.bc r hl.listed
  home := fun b' hr => hwf.owner b' t.bc r hr hl.listed
  live := fun _ _ _ => hl

section

variable (h : s.Tracked n b r)
include h

theorem Tracked.onSession (ref : SessionRef) (f : Session → Session) :
    (s.onSession ref f).Tracked n b r :=
  { h with }

theorem Tracked.registerTrack (name : GoString) (kind : Kind) (priority trackID : UInt8) :
    (s.registerTrack name kind priority trackID).1.Tracked n b r := by
  obtain ⟨hheap, hnext, hle, -, hbc, hlisted⟩ := s.registerTrack_frame name kind priority trackID
  refine ⟨h.known.trans_le hle, hnext ▸ h.born, fun b' hr => h.home b' (hlisted b' r hr), ?_⟩
  intro t ht hb
  have hold : s.tracks.lookup n = some t := by
    cases hl : s.tracks.lookup name with
    | some t' => rwa [registerTrack_of_some hl] at ht
    | none =>
      obtain ⟨bc, recorders, -, heq⟩ := registerTrack_of_none hl kind priority trackID
      rw [heq] at ht
      rcases lookup_insert_eq_some_iff.mp ht with ⟨-, rfl⟩ | ⟨-, hold⟩
      · -- The new entry's broadcaster did not exist when `r` was parked.
        exact absurd hb.symm (Nat.ne_of_lt h.known)
      · exact hold
  obtain ⟨hl, ho⟩ := h.live t hold hb
  refine ⟨?_, ?_⟩
  · show r ∈ ((s.registerTrack name kind priority trackID).1.broadcasters b).receivers
    rw [hbc b h.known]
    exact hl
  · show ((s.registerTrack name kind priority trackID).1.heap r).closed = false
    rw [hheap]
    exact ho

theorem Tracked.unregisterTrack (name : GoString) : (s.unregisterTrack name).1.Tracked n b r := by
  unfold Server.unregisterTrack
  split
  · exact h
  · exact { h with live := fun t ht hb => h.live t (lookup_erase_eq_some_iff.mp ht).2 hb }

theorem Tracked.attachAdded (hwf : s.WF) (b' : BroadcasterId) (name : GoString) (kind : Kind)
    (priority trackID : UInt8) (ref : SessionRef) :
    (s.attachAdded b' name kind priority trackID ref).Tracked n b r := by
  unfold Server.attachAdded
  refine Tracked.onSession (h.onBroadcaster hwf (PubSub.tame_subscribeWithCap _ _) ?_) ref _
  exact fun _ _ hl => hl.subscribeWithCap h.born _

theorem Tracked.unsubscribeAll (hwf : s.WF) {pairs} (hne : ∀ x ∈ pairs, r ≠ x.2) :
    (s.unsubscribeAll pairs).Tracked n b r := by
  refine (unsubscribeAll_induction (P := fun s' => s'.WF ∧ s'.Tracked n b r) ?_ ⟨hwf, h⟩).2
  rintro s' x hx ⟨hwf', htr⟩
  exact ⟨hwf'.onBroadcaster (PubSub.tame_unsubscribe _ _),
    htr.onBroadcaster hwf' (PubSub.tame_unsubscribe _ _)
      (fun _ _ hl => hl.unsubscribe (hne x hx))⟩

theorem Tracked.removeTrack (hwf : s.WF) (codec : Codec) (accepted : SessionRef → Bool)
    (name : GoString) : (s.removeTrack codec accepted name).Tracked n b r := by
  refine (removeTrack_induction
    (P := fun s' => s'.WF ∧ s'.Tracked n b r ∧ s'.tracks = (s.unregisterTrack name).1.tracks)
    codec accepted name ⟨hwf.unregisterTrack name, h.unregisterTrack name, rfl⟩ ?_ ?_).2.1
  · rintro s' ref ⟨hwf', htr, htab⟩
    exact ⟨hwf'.detach codec (accepted ref) ref name, htr.onSession ref _, htab⟩
  · rintro t ht s' ⟨hwf', htr, htab⟩
    refine ⟨hwf'.onBroadcaster (PubSub.tame_close _), ?_, htab⟩
    refine htr.onBroadcaster hwf' (PubSub.tame_close _) ?_
    rintro hb ⟨t', ht', hbc⟩ -
    rw [htab] at ht'
    simp only [Server.unregisterTrack, ht] at ht'
    obtain ⟨hne, hold⟩ := lookup_erase_eq_some_iff.mp ht'
    exact absurd (hwf.distinct n name t' t hold ht (hbc.trans hb)) hne

theorem Tracked.exec (hwf : s.WF) (codec : Codec) (op : TrackOp) :
    (s.exec codec op).Tracked n b r := by
  cases op with
  | add accepted spec =>
    refine (addTrackInternal_induction (P := fun s' => s'.WF ∧ s'.Tracked n b r) codec accepted
      _ _ _ _ ⟨hwf.registerTrack .., h.registerTrack ..⟩ ?_ ?_).2
    · exact fun s' b' ref hs => ⟨hs.1.attachAdded .., hs.2.attachAdded hs.1 ..⟩
    · exact fun s' ref hs => ⟨hs.1.sendAnnounce .., hs.2.onSession ..⟩
  | remove accepted name => exact h.removeTrack hwf codec accepted name
  | publish b' au =>
    exact h.onBroadcaster (f := fun ps => ps.publish au) hwf (PubSub.tame_publish _ _)
      (fun _ _ hl => hl.publish au)

theorem Tracked.resumeTrack (receivers : GoMap ReceiverId) (name : GoString) (fromSeq : UInt32) :
    (s.resumeTrack receivers name fromSeq).Tracked n b r := by
  unfold Server.resumeTrack
  split
  · next q te hq hte =>
    refine { h with live := fun t ht hb => ⟨(h.live t ht hb).listed, ?_⟩ }
    have hopen := (h.live t ht hb).opened
    show (Function.update s.heap q _ r).closed = false
    by_cases hrq : r = q
    · rw [hrq, Function.update_self, resumeReceiver_closed, ← hrq]
      exact hopen
    · rw [Function.update_of_ne hrq]
      exact hopen
  · exact h

end

end Tracked

/-! ## The park -/

theorem subscribeParked_onEvict (s : Server) (l : List TrackEntry) :
    ∀ x ∈ (s.subscribeParked l).2.1, x.2 < (s.subscribeParked l).2.2.nextReceiver := by
  unfold subscribeParked
  induction l using reverseRecOn with
  | nil => exact nofun
  | append_singleton l t ih =>
    rw [foldl_append]
    exact Slots.forall_mem_snoc (fun x hx => (ih x hx).trans (Nat.lt_succ_self _))
      (Nat.lt_succ_self _)

/-- The entry `p` of a session parked with the table `tab`, when receivers up to `base`
    existed. -/
structure Kept (tab : GoMap TrackEntry) (key : GoString) (p : PersistedSession)
    (base : ReceiverId) (s : Server) : Prop where
  wf : s.WF
  entry : s.store.byID.lookup key = some p
  others : ∀ k p', k ≠ key → s.store.byID.lookup k = some p' → ∀ x ∈ p'.onEvict, x.2 < base
  names : ∀ n, n ∈ p.receivers ↔ n ∈ tab
  tracked : ∀ n t r, tab.lookup n = some t → p.receivers.lookup n = some r →
              base ≤ r ∧ s.Tracked n t.bc r

variable {tab : GoMap TrackEntry} {key : GoString} {p : PersistedSession} {base : ReceiverId}

theorem Kept.execAll (h : Kept tab key p base s) (codec : Codec) (ops : List TrackOp) :
    Kept tab key p base (s.execAll codec ops) ∧ (s.execAll codec ops).cfg = s.cfg := by
  induction ops generalizing s with
  | nil => exact ⟨h, rfl⟩
  | cons op ops ih =>
    obtain ⟨hstore, hcfg⟩ := exec_frame codec s op
    have hstep : Kept tab key p base (s.exec codec op) :=
      { wf := h.wf.exec codec op
        entry := hstore ▸ h.entry
        others := hstore ▸ h.others
        names := h.names
        tracked := fun n t r ht hr =>
          ⟨(h.tracked n t r ht hr).1, (h.tracked n t r ht hr).2.exec h.wf codec op⟩ }
    obtain ⟨hkept, hcfg'⟩ := ih hstep
    exact ⟨hkept, hcfg'.trans hcfg⟩

structure Parks (s : Server) (ref : SessionRef) (ctxDone : Bool) : Prop where
  identified : (s.sessionAt ref).sessionID ≠ []
  running : ctxDone = false
  serving : s.draining = false

def parkedEntry (s : Server) (ref : SessionRef) (later : Int) : PersistedSession where
  id := (s.sessionAt ref).sessionID
  receivers := (s.subscribeParked (s.tracks.entries.map (fun e => e.2))).1
  expiresAt := later + s.store.resumeTTL
  onEvict := (s.subscribeParked (s.tracks.entries.map (fun e => e.2))).2.1

theorem WF.active (h : s.WF) (ref : SessionRef) (l : List TrackEntry) :
    ∀ x ∈ s.activeReceivers ref l, x.2 < s.nextReceiver := by
  intro x hx
  obtain ⟨t, -, hx⟩ := mem_flatMap.mp hx
  obtain ⟨r, hr, rfl⟩ := mem_map.mp hx
  unfold Session.receivers at hr
  split at hr
  · next tp htp =>
    rw [mem_singleton.mp hr]
    exact h.attached ref t.name tp htp
  · cases hr

theorem Kept.frame (h : Kept tab key p base s) {s' : Server} (hwf : s'.WF)
    (hstore : s'.store = s.store)
    (htracked : ∀ n b r, base ≤ r → s.Tracked n b r → s'.Tracked n b r) :
    Kept tab key p base s' where
  wf := hwf
  entry := hstore ▸ h.entry
  others := hstore ▸ h.others
  names := h.names
  tracked := fun n t r ht hr =>
    ⟨(h.tracked n t r ht hr).1, htracked n t.bc r (h.tracked n t r ht hr).1 (h.tracked n t r ht hr).2⟩

theorem Kept.unsubscribeAll (h : Kept tab key p base s) {pairs} (hold : ∀ x ∈ pairs, x.2 < base) :
    Kept tab key p base (s.unsubscribeAll pairs) :=
  h.frame (h.wf.unsubscribeAll pairs) (s.unsubscribeAll_frame pairs).2.1
    (fun _ _ _ hbase htr => htr.unsubscribeAll h.wf
      (fun x hx => (Nat.ne_of_lt ((hold x hx).trans_le hbase)).symm))

theorem kept_park {s₁} (hwf : s.WF) {parked onEvict}
    (hpk : SubscribedTo s (s.tracks.entries.map (fun e => e.2)) parked s₁)
    (hevict : ∀ x ∈ onEvict, x.2 < s₁.nextReceiver) (active : List (BroadcasterId × ReceiverId))
    (hactive : ∀ x ∈ active, x.2 < s.nextReceiver) (now later : Int) (tenant id : GoString) :
    Kept s.tracks (scopedKey tenant id)
      { id := id, receivers := parked, expiresAt := later + s.store.resumeTTL, onEvict := onEvict }
      s.nextReceiver
      { s₁.unsubscribeAll active with
        store := (s.store.park now later tenant id parked onEvict).1 } := by
  obtain ⟨hothers, -⟩ := s.store.park_spec now later tenant id parked onEvict
  have hentry := s.store.lookup_park now later tenant id parked onEvict
  obtain ⟨-, -, -, hnext, -⟩ := s₁.unsubscribeAll_frame active
  obtain ⟨hnames, hlive⟩ := hpk.table hwf
  refine ⟨?_, hentry, ?_, hnames, ?_⟩
  · refine (hpk.wf.unsubscribeAll active).setStore ?_
    intro k p' hk
    rw [hnext]
    by_cases hkey : k = scopedKey tenant id
    · rw [hkey, hentry] at hk
      cases hk
      refine ⟨fun n r hr => ?_, hevict⟩
      obtain ⟨-, t, -, hl⟩ := hlive n r hr
      exact hpk.wf.born t.bc r hl.listed
    · exact (hwf.stored k p' (hothers k p' hkey hk)).mono hpk.fresh
  · exact fun k p' hkey hk => (hwf.stored k p' (hothers k p' hkey hk)).onEvict
  · intro n t r ht hr
    obtain ⟨hbase, t', ht', hl⟩ := hlive n r hr
    obtain rfl : t' = t := Option.mem_unique ht' ht
    refine ⟨hbase, ?_⟩
    have htr := Tracked.of_live hpk.wf (hpk.tracks ▸ ht) hl
    obtain ⟨hk, hb, hh, hl⟩ := htr.unsubscribeAll hpk.wf
      (fun x hx => (Nat.ne_of_lt ((hactive x hx).trans_le hbase)).symm)
    exact ⟨hk, hb, hh, hl⟩

theorem kept_endSession (hwf : s.WF) {ref ctxDone} (hp : s.Parks ref ctxDone) (now later : Int) :
    Kept s.tracks (scopedKey (s.sessionAt ref).tenant (s.sessionAt ref).sessionID)
        (s.parkedEntry ref later) s.nextReceiver (s.endSession ref ctxDone now later) ∧
      (s.endSession ref ctxDone now later).cfg = s.cfg ∧
      (s.endSession ref ctxDone now later).sessionAt = s.sessionAt := by
  have hguard : ¬ ((s.sessionAt ref).sessionID = [] || ctxDone || s.draining) = true := by
    simp [hp.identified, hp.running, hp.serving]
  have hpk := subscribedTo_subscribeParked hwf (s.tracks.entries.map (fun e => e.2))
  have hown := s.subscribeParked_onEvict (s.tracks.entries.map (fun e => e.2))
  unfold endSession parkSession
  simp only [if_neg hguard]
  unfold parkedEntry
  generalize s.subscribeParked (s.tracks.entries.map (fun e => e.2)) = acc at hpk hown ⊢
  obtain ⟨parked, onEvict, s₁⟩ := acc
  have hact : ∀ x ∈ s₁.activeReceivers ref (s.tracks.entries.map (fun e => e.2)),
      x.2 < s.nextReceiver := by
    have heq : s₁.activeReceivers ref (s.tracks.entries.map (fun e => e.2)) =
        s.activeReceivers ref (s.tracks.entries.map (fun e => e.2)) := by
      unfold activeReceivers
      rw [hpk.sessionAt]
    rw [heq]
    exact hwf.active ref _
  obtain ⟨-, hstore, -, -, -⟩ :=
    s₁.unsubscribeAll_frame (s₁.activeReceivers ref (s.tracks.entries.map (fun e => e.2)))
  rw [hstore, hpk.store]
  have hkept := kept_park hwf hpk hown _ hact now later (s.sessionAt ref).tenant
    (s.sessionAt ref).sessionID
  obtain ⟨-, hevict⟩ := s.store.park_spec now later (s.sessionAt ref).tenant
    (s.sessionAt ref).sessionID parked onEvict
  have hold : ∀ x ∈ (s.store.park now later (s.sessionAt ref).tenant (s.sessionAt ref).sessionID
      parked onEvict).2.flatten, x.2 < s.nextReceiver := by
    intro x hx
    obtain ⟨ev, hev, hx⟩ := mem_flatten.mp hx
    obtain ⟨k, p, hk, rfl⟩ := hevict ev hev
    exact (hwf.stored k p hk).onEvict x hx
  obtain ⟨hw, he, ho, hn, ht⟩ := hkept.unsubscribeAll hold
  refine ⟨⟨{ hw with }, he, ho, hn,
    fun n t r htab hr => ?_⟩, ?_, ?_⟩
  · obtain ⟨hbase, htr⟩ := ht n t r htab hr
    exact ⟨hbase, htr.known, htr.born, htr.home, htr.live⟩
  · rw [unsubscribeAll_cfg]
    show (Server.unsubscribeAll _ _).cfg = s.cfg
    rw [unsubscribeAll_cfg, hpk.cfg]
  · rw [(unsubscribeAll_frame _ _).2.2.1]
    show (Server.unsubscribeAll _ _).sessionAt = s.sessionAt
    rw [(unsubscribeAll_frame _ _).2.2.1, hpk.sessionAt]

/-! ## The server as a system -/

theorem WF.removeSession (h : s.WF) (ref : SessionRef) : (s.removeSession ref).WF :=
  { h with }

theorem endSession_of_not_parks {ref ctxDone} (h : ¬ s.Parks ref ctxDone) (now later : Int) :
    s.endSession ref ctxDone now later =
      (s.unsubscribeAll (s.activeReceivers ref (s.tracks.entries.map (fun e => e.2)))).removeSession
        ref := by
  have hguard : ((s.sessionAt ref).sessionID = [] || ctxDone || s.draining) = true := by
    by_contra hno
    simp only [Bool.or_eq_true, decide_eq_true_eq, not_or, Bool.not_eq_true] at hno
    exact h ⟨hno.1.1, hno.1.2, hno.2⟩
  unfold endSession parkSession
  simp only [if_pos hguard]

theorem WF.endSession (h : s.WF) (ref : SessionRef) (ctxDone : Bool) (now later : Int) :
    (s.endSession ref ctxDone now later).WF ∧ (s.endSession ref ctxDone now later).cfg = s.cfg ∧
      (s.endSession ref ctxDone now later).sessionAt = s.sessionAt := by
  by_cases hp : s.Parks ref ctxDone
  · obtain ⟨hkept, hframe⟩ := kept_endSession h hp now later
    exact ⟨hkept.wf, hframe⟩
  · rw [endSession_of_not_parks hp]
    exact ⟨(h.unsubscribeAll _).removeSession ref, unsubscribeAll_cfg _ _,
      (unsubscribeAll_frame _ _).2.2.1⟩

theorem shutdown_induction {P : Server → Prop} (accepted : SessionRef → Bool)
    (hdrain : P { s with draining := true })
    (hclose : ∀ s ref, P s → P (s.onSession ref (fun sess =>
      sess.sendClose (accepted ref) (str "server-shutdown")))) : P (s.shutdown accepted) := by
  have hfold : ∀ (refs : List SessionRef) (s : Server), P s →
      P (refs.foldl (fun s ref => s.onSession ref (fun sess =>
        sess.sendClose (accepted ref) (str "server-shutdown"))) s) := by
    intro refs
    induction refs with
    | nil => exact fun s hs => hs
    | cons ref refs ih => exact fun s hs => ih _ (hclose s ref hs)
  exact hfold _ _ hdrain

theorem WF.shutdown (h : s.WF) (accepted : SessionRef → Bool) : (s.shutdown accepted).WF := by
  apply shutdown_induction accepted
  · exact { h with }
  · intro s ref hs
    refine hs.onSession ref (fun n tp htp => ?_)
    obtain ⟨c, hc⟩ := (s.sessionAt ref).write_frame (accepted ref) typeClose (str "server-shutdown")
    rw [Session.sendClose, hc] at htp
    exact hs.attached ref n tp htp

end Server

inductive ServerOp where
  | call (op : TrackOp)
  | connect (now : Int) (newID : GoString) (io : ControlIO)
  | disconnect (ref : SessionRef) (ctxDone : Bool) (now later : Int)
  | shutdown (accepted : SessionRef → Bool)

namespace Server

/-- The upgrade handler turns peers away while draining. -/
def next (codec : Codec) (s : Server) : ServerOp → Option Server
  | .call op => some (s.exec codec op)
  | .connect now newID io =>
    if s.draining then none else some (s.connect codec now newID io)
  | .disconnect ref ctxDone now later => some (s.endSession ref ctxDone now later)
  | .shutdown accepted => some (s.shutdown accepted)

end Server

def serverSystem (codec : Codec) (cfg : ServerConfig) (resumeWindow : Int) :
    System Server ServerOp :=
  ofFun (newServer codec cfg resumeWindow) (Server.next codec)

namespace Server

theorem wf_of_reachable {codec cfg resumeWindow} :
    ∀ s, Reachable (serverSystem codec cfg resumeWindow) s → s.WF := by
  refine invariant_ofFun _ (wf_newServer codec cfg resumeWindow) ?_
  intro s op s' _ hs hstep
  cases op with
  | call op => cases hstep; exact hs.exec codec op
  | connect now newID io =>
    simp only [next] at hstep
    split at hstep
    · cases hstep
    · cases hstep
      exact hs.connect codec now newID io
  | disconnect ref ctxDone now later => cases hstep; exact (hs.endSession ref ctxDone now later).1
  | shutdown accepted => cases hstep; exact hs.shutdown accepted

theorem reachable_execAll {codec cfg resumeWindow s}
    (hs : Reachable (serverSystem codec cfg resumeWindow) s) (ops : List TrackOp) :
    Reachable (serverSystem codec cfg resumeWindow) (s.execAll codec ops) := by
  induction ops generalizing s with
  | nil => exact hs
  | cons op ops ih => exact ih (hs.step (.call op) rfl)

/-- The session `s` on the track `primary`. -/
def oneClient : Server :=
  (newServer plainCodec plainConfig 0).connect plainCodec 0 (str "s") (plainClient [])

theorem reachable_oneClient : Reachable (serverSystem plainCodec plainConfig 0) oneClient :=
  Reachable.step (.connect 0 (str "s") (plainClient [])) (Reachable.init rfl) rfl

end Server

end QuicRTC

import QuicRTC.Server.Parked

/-! # The Tracks of a Resumed Session

A resume attaches exactly the parked receivers, whatever happened to the track table in between. A
track added meanwhile is missing, a removed one is still attached, and one that was added again is
attached to a closed receiver.
-/

namespace QuicRTC

open Wire Option GoMap AList

namespace Server

/-! ## The resume -/

variable {tab : GoMap TrackEntry} {s : Server}

theorem onResume_of_kept {tenant id p base} (h : Kept tab (scopedKey tenant id) p base s) {now}
    (hnow : now ≤ p.expiresAt) (lastSeen : GoMap UInt32) :
    ∃ s', onResume now tenant id lastSeen s = (some p.receivers, s') ∧ s'.tracks = s.tracks ∧
      ∀ n t r, tab.lookup n = some t → p.receivers.lookup n = some r → s'.Tracked n t.bc r := by
  obtain ⟨hfound, hevict⟩ := MemorySessionStore.resume_spec h.entry hnow
  obtain ⟨hafter, htab, -⟩ := h.wf.afterResume now tenant id
  refine ⟨_, onResume_of_some hfound lastSeen, ?_, ?_⟩
  · exact (hafter.resumeTracks p.receivers lastSeen).2.1.trans htab
  · intro n t r ht hr
    obtain ⟨hbase, htr⟩ := h.tracked n t r ht hr
    refine fold_induction (P := fun s' : Server => s'.Tracked n t.bc r) ?_ ?_
    · have hwf : ({ s with store := (s.store.resume now tenant id).2.1 } : Server).WF :=
        h.wf.setStore (fun k p' hk => h.wf.stored k p' (MemorySessionStore.resume_sub hk))
      have htr' : ({ s with store := (s.store.resume now tenant id).2.1 } : Server).Tracked n t.bc r :=
        { htr with }
      refine htr'.unsubscribeAll hwf ?_
      intro x hx
      obtain ⟨ev, hev, hx⟩ := List.mem_flatten.mp hx
      obtain ⟨k, p', hne, hk, rfl⟩ := hevict ev hev
      exact (Nat.ne_of_lt ((h.others k p' hne hk x hx).trans_le hbase)).symm
    · exact fun s' name fromSeq hs' => hs'.resumeTrack p.receivers name fromSeq

/-- Its HELLO passes, names the session `ref`, and its credential is of the same tenant. -/
structure ComesBack (codec : Codec) (s : Server) (ref : SessionRef) (io : ControlIO) (hello : Hello) :
    Prop where
  deadline : io.deadlineSet = true
  admissible : Session.Admissible codec s.cfg.sessionConfig io hello
  tenant : (Session.new s.cfg.sessionConfig).authenticate hello.slug =
                 some (s.sessionAt ref).tenant
  session : hello.sessionID = (s.sessionAt ref).sessionID

theorem ComesBack.greeted {codec ref io hello} (h : ComesBack codec s ref io hello) {s' : Server}
    (hcfg : s'.cfg = s.cfg) :
    Session.Admissible codec s'.cfg.sessionConfig io hello ∧
      (s'.greeted codec io).tenant = (s.sessionAt ref).tenant := by
  have hadm : Session.Admissible codec s'.cfg.sessionConfig io hello := by
    rw [hcfg]
    exact h.admissible
  refine ⟨hadm, ?_⟩
  have hauth := greeted_tenant h.deadline hadm
  rw [hcfg, h.tenant] at hauth
  exact (some.inj hauth).symm

def SameBroadcasters (tab tab' : GoMap TrackEntry) : Prop :=
  ∀ n, (tab'.lookup n).map TrackEntry.bc = (tab.lookup n).map TrackEntry.bc

theorem acquire_of_kept {codec tenant p base io} {hello : Hello}
    (h : Kept tab (scopedKey tenant hello.sessionID) p base s)
    (htenant : (s.greeted codec io).tenant = tenant) (hid : hello.sessionID ≠ []) {now}
    (hnow : now ≤ p.expiresAt) (newID : GoString) :
    ∃ s' sess, (s.greeted codec io).acquire (callbacks now newID) hello s.addSession =
        (sess, .resumed p.receivers, s') ∧ s'.tracks = s.tracks ∧
      ∀ n t r, tab.lookup n = some t → p.receivers.lookup n = some r → s'.Tracked n t.bc r := by
  have hkept : Kept tab (scopedKey tenant hello.sessionID) p base s.addSession :=
    h.frame h.wf.addSession rfl
      (fun _ _ _ _ htr => { htr with })
  obtain ⟨s', hres, htab, htracked⟩ := onResume_of_kept hkept hnow hello.lastSeenSeq
  rw [← htenant] at hres
  obtain ⟨sess, htry⟩ := Session.tryResume_of_found (callbacks now newID) _ _ hid rfl hres
  exact ⟨s', sess, Session.acquire_resumed _ _ _ htry, htab, htracked⟩

theorem followed_iff {receivers : GoMap ReceiverId} (hnames : ∀ n, n ∈ receivers ↔ n ∈ tab)
    (htracked : ∀ n t r, tab.lookup n = some t → receivers.lookup n = some r → s.Tracked n t.bc r) :
    ((∀ n, n ∈ receivers ↔ n ∈ s.tracks) ∧
        ∀ n r, receivers.lookup n = some r → ∃ t, s.tracks.lookup n = some t ∧ s.Live t.bc r) ↔
      SameBroadcasters tab s.tracks := by
  constructor
  · rintro ⟨hmem, hlive⟩ n
    cases hold : tab.lookup n with
    | none =>
      have hno : n ∉ s.tracks :=
        fun hn => lookup_eq_none.mp hold ((hnames n).mp ((hmem n).mpr hn))
      rw [lookup_eq_none.mpr hno]
    | some t =>
      obtain ⟨r, hr⟩ := mem_iff.mp ((hnames n).mpr (mem_iff.mpr ⟨t, hold⟩))
      obtain ⟨t', ht', hl⟩ := hlive n r hr
      -- Only its home lists the receiver, and the table's broadcaster does.
      have hhome : t'.bc = t.bc := (htracked n t r hold hr).home t'.bc hl.listed
      rw [ht', map_some, map_some, hhome]
  · intro hsame
    refine ⟨fun n => (hnames n).trans ?_, fun n r hr => ?_⟩
    · rw [← lookup_isSome, ← lookup_isSome, ← isSome_map, ← hsame n,
        isSome_map]
    · obtain ⟨t, ht⟩ := mem_iff.mp ((hnames n).mp (mem_iff.mpr ⟨r, hr⟩))
      have hbc := hsame n
      rw [ht, map_some] at hbc
      obtain ⟨t', ht', hb⟩ := map_eq_some_iff.mp hbc
      refine ⟨t', ht', ?_⟩
      rw [hb]
      exact (htracked n t r ht hr).live t' ht' hb

/-! ## Parking and coming back -/

def away (codec : Codec) (s : Server) (ref : SessionRef) (ctxDone : Bool) (now later : Int)
    (ops : List TrackOp) : Server :=
  (s.endSession ref ctxDone now later).execAll codec ops

/-- A session that parked and comes back in time is attached to the tracks of the table,
    each through a live receiver of its broadcaster, iff no name changed its broadcaster in
    between. -/
theorem resumed_followsTable_iff {codec : Codec} {cfg : ServerConfig} {resumeWindow : Int}
    {s : Server} (hs : LTS.Reachable (serverSystem codec cfg resumeWindow) s) {ref : SessionRef}
    {ctxDone : Bool} (hp : s.Parks ref ctxDone) (now later : Int) (ops : List TrackOp)
    {io : ControlIO} {hello : Hello} (hback : ComesBack codec s ref io hello) {again : Int}
    (htime : again ≤ later + s.store.resumeTTL) (newID : GoString) :
    ((s.away codec ref ctxDone now later ops).connect codec again newID io).FollowsTable
        (s.away codec ref ctxDone now later ops).nextSession ↔
      SameBroadcasters s.tracks (s.away codec ref ctxDone now later ops).tracks := by
  obtain ⟨hend, hcfgend, -⟩ := kept_endSession (wf_of_reachable s hs) hp now later
  obtain ⟨hkept, hcfg⟩ := hend.execAll codec ops
  have hcfg : (s.away codec ref ctxDone now later ops).cfg = s.cfg := hcfg.trans hcfgend
  change Kept _ _ _ _ (s.away codec ref ctxDone now later ops) at hkept
  obtain ⟨hadm, htenant⟩ := hback.greeted hcfg
  have hid : hello.sessionID ≠ [] := hback.session ▸ hp.identified
  rw [← hback.session] at hkept
  obtain ⟨env, sess, hacq, htab, htracked⟩ := acquire_of_kept hkept htenant hid htime newID
  rw [connect_followsTable_iff hback.deadline hadm hacq, ← htab]
  exact followed_iff hkept.names htracked

theorem parks_oneClient : oneClient.Parks 0 false := ⟨by decide, rfl, rfl⟩

theorem comesBack_oneClient :
    ∃ hello, ComesBack plainCodec oneClient 0 (plainClient (str "s")) hello :=
  ⟨_, rfl, ⟨⟨_, rfl, rfl⟩, by decide, rfl, .inl rfl⟩, by decide, by decide⟩

/-- While the client is away. -/
def comeAndGo : Server :=
  oneClient.away plainCodec 0 false 10 20
    [.add (fun _ => true) ⟨str "audio", .audio, 0, 0⟩, .remove (fun _ => true) (str "audio")]

theorem resumed_followsTable_iff_comeAndGo :
    (comeAndGo.connect plainCodec 30 (str "t") (plainClient (str "s"))).FollowsTable 1 := by
  obtain ⟨hello, hback⟩ := comesBack_oneClient
  have htab : comeAndGo.tracks = oneClient.tracks := ext (by decide)
  have hsame : SameBroadcasters oneClient.tracks comeAndGo.tracks := fun n => by rw [htab]
  exact (resumed_followsTable_iff reachable_oneClient parks_oneClient 10 20 _ hback (by decide)
    (str "t")).mpr hsame

/-- While the client is away. -/
def readded : Server :=
  oneClient.away plainCodec 0 false 10 20
    [.remove (fun _ => true) (str "primary"), .add (fun _ => true) ⟨str "primary", .video, 0, 0⟩]

/-- The receiver is closed and not one of the broadcaster. -/
theorem readded_not_followed :
    LTS.Reachable (serverSystem plainCodec plainConfig 0) oneClient ∧ oneClient.Parks 0 false ∧
      (∃ hello, ComesBack plainCodec oneClient 0 (plainClient (str "s")) hello) ∧
      ¬ (readded.connect plainCodec 30 (str "t") (plainClient (str "s"))).FollowsTable 1 := by
  refine ⟨reachable_oneClient, parks_oneClient, comesBack_oneClient, fun h => ?_⟩
  obtain ⟨tp, htp, hrecv⟩ : ∃ tp, ((readded.connect plainCodec 30 (str "t")
      (plainClient (str "s"))).sessionAt 1).tracks.lookup (str "primary") = some tp ∧
      tp.recv = 1 := ⟨_, rfl, by decide⟩
  obtain ⟨t, -, hl⟩ := h.live _ tp htp
  have hopen := hl.opened
  rw [hrecv] at hopen
  have hclosed : ((readded.connect plainCodec 30 (str "t")
      (plainClient (str "s"))).heap 1).closed = true := by decide
  exact absurd (hopen.symm.trans hclosed) (by decide)

end Server

end QuicRTC

import QuicRTC.Server.Holdings

/-! # The Ledger of Receivers

Receivers are subscribed by the handshake, by `AddTrackSpec`, and by the park of a session for its
successor, which a resume then takes over. A history variable records for whom each was subscribed,
and at which of these places it is. `Effect` says what a step does to the receivers.
-/

namespace QuicRTC

open Wire Function List Slots

/-! ## Places in a goroutine -/

namespace Phase

/-- In its handshake, or running. -/
def isOpen : Phase → Bool
  | .waiting => true
  | .refused _ => true
  | .accepted _ => true
  | .allocating _ => true
  | .subscribing _ => true
  | .attaching _ _ _ => true
  | .replying _ => true
  | .answered => true
  | .running => true
  | _ => false

def todo : Phase → List ((_ : GoString) × ReceiverId)
  | .attaching _ _ todo => todo
  | _ => []

def entry : Phase → Option (GoMap ReceiverId × OnEvict)
  | .holding _ _ _ receivers onEvict => some (receivers, onEvict)
  | .releasing _ _ entry => entry
  | _ => none

/-- They may still get a receiver to park. -/
def toHold : Phase → List TrackEntry
  | .leaving _ tracks => tracks
  | .holding _ _ todo _ _ => todo
  | _ => []

/-- It will release what it has attached on the track. -/
def covers (t : TrackEntry) : Phase → Bool
  | .left _ => true
  -- Once the table is copied, a track that is added later is not released.
  | .leaving _ tracks => tracks.contains t
  | .holding _ tracks _ _ _ => tracks.contains t
  | .releasing _ todo _ => todo.contains t
  | p => p.isOpen

/-- It concerns no receiver. -/
structure Quiet (p p' : Phase) : Prop where
  idle : p = .idle → p' = .idle
  isOpen : p'.isOpen = true → p.isOpen = true
  todo : p'.todo = p.todo
  entry : p'.entry = p.entry
  toHold : p'.toHold = p.toHold ∨ p'.toHold = []
  covers : ∀ t, p.covers t = true → p'.covers t = true

theorem Quiet.refl (p : Phase) : Quiet p p := ⟨id, id, rfl, rfl, .inl rfl, fun _ => id⟩

theorem Quiet.update {phase : SessionRef → Phase} {ref p'} (h : Quiet (phase ref) p')
    (ref' : SessionRef) : Quiet (phase ref') (update phase ref p' ref') := by
  by_cases href : ref' = ref
  · subst href
    rw [update_self]
    exact h
  · rw [update_of_ne href]
    exact Quiet.refl _

end Phase

namespace Call

/-- Subscribed and not yet attached. -/
def carried : Call → Option (BroadcasterId × GoString × ReceiverId × SessionRef)
  | .attaching b name _ _ _ r (ref :: _) => some (b, name, r, ref)
  | _ => none

def subscribes : Call → List (BroadcasterId × GoString × SessionRef)
  | .adding b name _ _ _ refs => refs.map (fun ref => (b, name, ref))
  | .attaching b name _ _ _ _ refs => refs.tail.map (fun ref => (b, name, ref))
  | .announcing b name _ _ _ refs => refs.tail.map (fun ref => (b, name, ref))
  | _ => []

def detaches : Call → List (GoString × SessionRef)
  | .removing t refs => refs.map (fun ref => (t.name, ref))
  | .unannouncing t refs => refs.tail.map (fun ref => (t.name, ref))
  | _ => []

def closes : Call → Option BroadcasterId
  | .removing t _ => some t.bc
  | .unannouncing t _ => some t.bc
  | _ => none

def changesTracks : Call → Bool
  | .adding .. => true
  | .attaching .. => true
  | .announcing .. => true
  | .removing .. => true
  | .unannouncing .. => true
  | _ => false

theorem nothing_of_not_changesTracks {c : Call} (h : c.changesTracks = false) :
    c.carried = none ∧ c.subscribes = [] ∧ c.detaches = [] ∧ c.closes = none := by
  cases c <;> first | exact ⟨rfl, rfl, rfl, rfl⟩ | cases h

end Call

namespace Concurrent

def Carries (s : Concurrent) (b : BroadcasterId) (n : GoString) (r : ReceiverId)
    (ref : SessionRef) : Prop :=
  ∃ c ∈ s.calls, c.carried = some (b, n, r, ref)

def WillSubscribe (s : Concurrent) (b : BroadcasterId) (n : GoString) (ref : SessionRef) : Prop :=
  ∃ c ∈ s.calls, (b, n, ref) ∈ c.subscribes

def WillDetach (s : Concurrent) (n : GoString) (ref : SessionRef) : Prop :=
  ∃ c ∈ s.calls, (n, ref) ∈ c.detaches

def WillClose (s : Concurrent) (b : BroadcasterId) : Prop := ∃ c ∈ s.calls, c.closes = some b

def allReturned (s : Concurrent) : Bool := s.calls.all (fun c => !c.changesTracks)

variable {s : Concurrent}

theorem allReturned_iff : s.allReturned = true ↔ ∀ c ∈ s.calls, c.changesTracks = false := by
  simp [allReturned]

/-- The calls hold and will do the same. -/
structure SameFlight (s s' : Concurrent) : Prop where
  carries : ∀ b n r ref, s'.Carries b n r ref ↔ s.Carries b n r ref
  subscribe : ∀ b n ref, s'.WillSubscribe b n ref ↔ s.WillSubscribe b n ref
  detach : ∀ n ref, s'.WillDetach n ref ↔ s.WillDetach n ref
  close : ∀ b, s'.WillClose b → s.WillClose b

variable {s' : Concurrent}

theorem sameFlight_of_calls (h : s'.calls = s.calls) : SameFlight s s' := by
  refine ⟨fun b n r ref => ?_, fun b n ref => ?_, fun n ref => ?_, fun b => ?_⟩
  · rw [Carries, h, Carries]
  · rw [WillSubscribe, h, WillSubscribe]
  · rw [WillDetach, h, WillDetach]
  · rw [WillClose, h, WillClose]
    exact id

theorem sameFlight_snoc {c} (h : s'.calls = s.calls ++ [c]) (hc : c.changesTracks = false) :
    SameFlight s s' := by
  obtain ⟨h₁, h₂, h₃, h₄⟩ := Call.nothing_of_not_changesTracks hc
  refine ⟨fun b n r ref => ?_, fun b n ref => ?_, fun n ref => ?_, fun b => ?_⟩ <;>
    simp [Carries, WillSubscribe, WillDetach, WillClose, h, h₁, h₂, h₃, h₄, or_and_right, exists_or]

theorem sameFlight_put {i c} (rest : Option Call) (hcall : s.calls[i]? = some c)
    (h : s'.calls = Slots.put s.calls i rest)
    (hcarried : ∀ x, c.carried = some x ↔ ∃ c', rest = some c' ∧ c'.carried = some x)
    (hsubscribes : ∀ x, x ∈ c.subscribes ↔ ∃ c', rest = some c' ∧ x ∈ c'.subscribes)
    (hdetaches : ∀ x, x ∈ c.detaches ↔ ∃ c', rest = some c' ∧ x ∈ c'.detaches)
    (hcloses : ∀ b c', rest = some c' → c'.closes = some b → c.closes = some b) :
    SameFlight s s' := by
  refine ⟨fun b n r ref => ?_, fun b n ref => ?_, fun n ref => ?_, fun b => ?_⟩
  · rw [Carries, h]
    exact ⟨exists_of_put hcall (fun c' hc' hx => (hcarried _).mpr ⟨c', hc', hx⟩),
      exists_put hcall (hcarried _).mp⟩
  · rw [WillSubscribe, h]
    exact ⟨exists_of_put hcall (fun c' hc' hx => (hsubscribes _).mpr ⟨c', hc', hx⟩),
      exists_put hcall (hsubscribes _).mp⟩
  · rw [WillDetach, h]
    exact ⟨exists_of_put hcall (fun c' hc' hx => (hdetaches _).mpr ⟨c', hc', hx⟩),
      exists_put hcall (hdetaches _).mp⟩
  · rw [WillClose, h]
    exact exists_of_put hcall (hcloses b)

/-- It moves no receiver. -/
structure Quiet (s s' : Concurrent) : Prop where
  server : s.server.SameHoldings s'.server
  phase : ∀ ref, (s.phase ref).Quiet (s'.phase ref)
  calls : SameFlight s s'

end Concurrent

/-! ## The record -/

/-- Where a receiver is. -/
inductive Owner where
  /-- Attached, or about to be. -/
  | active (ref : SessionRef)
  | parking (ref : SessionRef)
  | stored (ref : SessionRef) (key : GoString)
  deriving DecidableEq

namespace Owner

/-- Subscribed for it, or handed to it by a resume. -/
def session : Owner → SessionRef
  | .active ref => ref
  | .parking ref => ref
  | .stored ref _ => ref

def place : Owner → SessionRef ⊕ GoString
  | .active ref | .parking ref => .inl ref
  | .stored _ key => .inr key

def resumedBy (ref : SessionRef) (key : GoString) : Owner → Owner
  | .stored ref' key' => if key' = key then .active ref else .stored ref' key'
  | o => o

def parkedBy (ref : SessionRef) (key : GoString) : Owner → Owner
  | .parking ref' => if ref' = ref then .stored ref key else .parking ref'
  | o => o

end Owner

/-- With the sessions whose handshake found no session to resume. -/
structure Ledger where
  owner : ReceiverId → Option Owner
  fresh : List SessionRef

namespace Ledger

def empty : Ledger where
  owner := fun _ => none
  fresh := []

/-- The receivers created between two states. -/
def grant (l : Ledger) (o : Owner) (lo hi : ReceiverId) : Ledger :=
  { l with owner := fun r => if lo ≤ r ∧ r < hi then some o else l.owner r }

/-- Receivers changed hands. -/
def pass (l : Ledger) (f : Owner → Owner) : Ledger :=
  { l with owner := fun r => (l.owner r).map f }

def record (s : Concurrent) (ev : Event) (s' : Concurrent) (l : Ledger) : Ledger :=
  match ev with
  | .session ref .subscribe =>
    -- Only a handshake with nothing to resume subscribes.
    { l.grant (.active ref) s.server.nextReceiver s'.server.nextReceiver with
      fresh := ref :: l.fresh }
  | .session ref .hold => l.grant (.parking ref) s.server.nextReceiver s'.server.nextReceiver
  | .session ref (.resume _) =>
    match s'.phase ref with
    -- An entry was found: the session takes all of it over.
    | .attaching _ _ _ => l.pass (Owner.resumedBy ref (s'.server.parkKey ref))
    | _ => l
  | .session ref (.park _ _) =>
    match s.phase ref with
    -- The key is that of the session, whoever else parked under it.
    | .releasing _ _ (some _) => l.pass (Owner.parkedBy ref (s.server.parkKey ref))
    | _ => l
  | .turn i _ =>
    match s.calls[i]? with
    | some (.adding _ _ _ _ _ (ref :: _)) =>
      -- `AddTrackSpec` subscribes for a session before it attaches.
      l.grant (.active ref) s.server.nextReceiver s'.server.nextReceiver
    | _ => l
  | _ => l

theorem grant_nothing (l : Ledger) (o : Owner) (r : ReceiverId) : l.grant o r r = l := by
  have hnone : ∀ r', ¬(r ≤ r' ∧ r' < r) := fun r' h => Nat.not_lt_of_le h.1 h.2
  simp only [grant, hnone, if_false]

theorem grant_owner_of_lt (l : Ledger) (o : Owner) {lo hi r} (h : r < lo) :
    (l.grant o lo hi).owner r = l.owner r :=
  if_neg (fun hr => Nat.not_le_of_lt h hr.1)

theorem pass_owner {l : Ledger} {f : Owner → Owner} {r o o'} (h : l.owner r = some o)
    (hf : f o = o') : (l.pass f).owner r = some o' := by
  simp only [pass, h, Option.map_some, hf]

theorem grant_owner_of_mem (l : Ledger) (o : Owner) {lo hi r} (h : lo ≤ r) (h' : r < hi) :
    (l.grant o lo hi).owner r = some o :=
  if_pos ⟨h, h'⟩

end Ledger

def ledgerSystem (codec : Codec) (cfg : ServerConfig) (resumeWindow : Int) :
    LTS.System (Concurrent × Ledger) Event :=
  LTS.ofFun (Concurrent.start codec cfg resumeWindow, Ledger.empty)
    (LTS.withHistory (Concurrent.next codec) Ledger.record)

/-! ## What a step does -/

namespace Concurrent

open MemorySessionStore

section states

variable (s : Concurrent) (ref : SessionRef) (hello : SessionRef → Option Hello)

abbrev snapshotTaken (greeting : Hello) : Concurrent :=
  ⟨s.server.onFreshSession.2, update s.phase ref
    (.attaching greeting (.fresh s.server.onFreshSession.1) s.server.onFreshSession.1.entries),
    hello, s.calls⟩

abbrev oneHeld (ok : Bool) (tracks todo : List TrackEntry) (t : TrackEntry)
    (receivers : GoMap ReceiverId) (onEvict : OnEvict) : Concurrent :=
  ⟨s.server.onBroadcaster t.bc (fun ps => ps.subscribeWithCapacity parkedChanCap),
    update s.phase ref (.holding ok tracks todo (receivers.insert t.name s.server.nextReceiver)
      (onEvict ++ [(t.bc, s.server.nextReceiver)])), hello, s.calls⟩

variable (i : Nat) (b : BroadcasterId) (n : GoString) (kind : Kind) (priority trackID : UInt8)
  (refs : List SessionRef)

abbrev turnSubscribed : Concurrent :=
  { s with
    server := s.server.onBroadcaster b PubSub.subscribe
    calls := Slots.put s.calls i
      (some (.attaching b n kind priority trackID s.server.nextReceiver (ref :: refs))) }

abbrev turnAttached (r : ReceiverId) : Concurrent :=
  { s with
    server := s.server.onSession ref (fun sess => sess.attachTrackWithKind n kind r priority trackID)
    calls := Slots.put s.calls i (some (.announcing b n kind priority trackID (ref :: refs))) }

end states

/-- On the receivers and on the record. -/
inductive Effect (s : Concurrent) (l : Ledger) : Event → Concurrent → Ledger → Prop where
  | connected :
      Effect s l .connect
        { s with
          server := s.server.addSession
          phase := update s.phase s.server.nextSession .waiting } l
  /-- There may be none. -/
  | evicted {ev ran} {store : MemorySessionStore} {s' : Concurrent}
      (hstore : Evicts s.server.store.byID store.byID ran)
      (hserver : (s.server.evict store ran).SameHoldings s'.server)
      (hphase : ∀ ref, (s.phase ref).Quiet (s'.phase ref)) (hcalls : SameFlight s s') :
      Effect s l ev s' l
  /-- An entry was also handed to a session. -/
  | resumed {ref now greeting key ran server hello} {p : PersistedSession}
      {store : MemorySessionStore} (hphase : s.phase ref = .accepted greeting)
      (hstore : Evicts s.server.store.byID store.byID ran)
      (hentry : store.byID.lookup key = some p)
      (hserver : (s.server.evict { store with byID := store.byID.erase key } ran).SameHoldings
        server) :
      Effect s l (.session ref (.resume now))
        ⟨server, update s.phase ref (.attaching greeting (.resumed p.receivers) p.receivers.entries),
          hello, s.calls⟩ (l.pass (Owner.resumedBy ref key))
  /-- `trackSnapshot`. -/
  | subscribed {ref greeting hello} (hphase : s.phase ref = .subscribing greeting) :
      Effect s l (.session ref .subscribe) (s.snapshotTaken ref hello greeting)
        { l.grant (.active ref) s.server.nextReceiver s.server.onFreshSession.2.nextReceiver with
          fresh := ref :: l.fresh }
  | attached {ref greeting acquired n r todo kind priority trackID hello}
      (hphase : s.phase ref = .attaching greeting acquired (⟨n, r⟩ :: todo)) :
      Effect s l (.session ref .attach)
        ⟨s.server.onSession ref (fun sess => sess.attachTrackWithKind n kind r priority trackID),
          update s.phase ref (.attaching greeting acquired todo), hello, s.calls⟩ l
  | snapped {ref ok hello} (hphase : s.phase ref = .left ok) :
      Effect s l (.session ref .snapshot)
        ⟨s.server, update s.phase ref (.leaving ok (s.server.tracks.entries.map (fun e => e.2))),
          hello, s.calls⟩ l
  /-- The session will be parked. -/
  | decided {ref ok ctxDone tracks hello} (hphase : s.phase ref = .leaving ok tracks) :
      Effect s l (.session ref (.decide ctxDone))
        ⟨s.server, update s.phase ref (.holding ok tracks tracks ∅ []), hello, s.calls⟩ l
  | held {ref ok tracks t todo onEvict hello} {receivers : GoMap ReceiverId}
      (hphase : s.phase ref = .holding ok tracks (t :: todo) receivers onEvict) :
      Effect s l (.session ref .hold) (s.oneHeld ref hello ok tracks todo t receivers onEvict)
        (l.grant (.parking ref) s.server.nextReceiver (s.server.nextReceiver + 1))
  | released {ref ok t todo entry hello} (hphase : s.phase ref = .releasing ok (t :: todo) entry) :
      Effect s l (.session ref .release)
        ⟨s.server.unsubscribeAll (s.server.activeReceivers ref [t]),
          update s.phase ref (.releasing ok todo entry), hello, s.calls⟩ l
  | parked {ref ok receivers onEvict now later store ran hello}
      (hphase : s.phase ref = .releasing ok [] (some (receivers, onEvict)))
      (hpark : s.server.store.park now later (s.server.sessionAt ref).tenant
        (s.server.sessionAt ref).sessionID receivers onEvict = (store, ran)) :
      Effect s l (.session ref (.park now later))
        ⟨s.server.evict store ran, update s.phase ref (.parked ok), hello, s.calls⟩
        (l.pass (Owner.parkedBy ref (s.server.parkKey ref)))
  | removed {ref ok hello} (hphase : s.phase ref = .parked ok) :
      Effect s l (.session ref .remove)
        ⟨s.server.removeSession ref, update s.phase ref (.gone ok), hello, s.calls⟩ l
  | registered {spec : TrackSpec} (hnew : s.server.tracks.lookup spec.name = none) :
      Effect s l (.addTrackSpec spec)
        { s with
          server := (s.server.registerTrack spec.name (Server.specKind spec)
            (Server.specPriority spec) spec.trackID).1
          calls := s.calls ++ [.adding s.server.nextBroadcaster spec.name (Server.specKind spec)
            (Server.specPriority spec) spec.trackID s.server.sessions] } l
  | unregistered {name t} (hold : s.server.tracks.lookup name = some t) :
      Effect s l (.removeTrack name)
        { s with
          server := { s.server with tracks := s.server.tracks.erase name }
          calls := s.calls ++ [.removing t s.server.sessions] } l
  | turnSubscribed {i accepted b n kind priority trackID ref refs}
      (hcall : s.calls[i]? = some (.adding b n kind priority trackID (ref :: refs))) :
      Effect s l (.turn i accepted) (s.turnSubscribed ref i b n kind priority trackID refs)
        (l.grant (.active ref) s.server.nextReceiver (s.server.nextReceiver + 1))
  | turnAttached {i accepted b n kind priority trackID r ref refs}
      (hcall : s.calls[i]? = some (.attaching b n kind priority trackID r (ref :: refs))) :
      Effect s l (.turn i accepted) (s.turnAttached ref i b n kind priority trackID refs r) l
  | turnDetached {i accepted t ref refs} (hcall : s.calls[i]? = some (.removing t (ref :: refs))) :
      Effect s l (.turn i accepted)
        { s with
          server := s.server.onSession ref (fun sess => sess.detachTrack t.name)
          calls := Slots.put s.calls i (some (.unannouncing t (ref :: refs))) } l
  | turnClosed {i accepted t} (hcall : s.calls[i]? = some (.removing t [])) :
      Effect s l (.turn i accepted)
        { s with
          server := s.server.onBroadcaster t.bc PubSub.close
          calls := Slots.put s.calls i none } l

section Effect

variable {codec : Codec} {s : Concurrent} {l : Ledger} {ref : SessionRef} {server : Server}
  {phase : Phase} {hello : SessionRef → Option Hello}

theorem Effect.quiet {ev s'} (h : Quiet s s') : Effect s l ev s' l :=
  .evicted (Evicts.refl _) h.server h.phase h.calls

section Phase

variable {p p' : Phase} (hp : s.phase ref = p) (hborn : p ≠ .idle)
  (hopen : p'.isOpen = true → p.isOpen = true) (htodo : p'.todo = p.todo)
  (hentry : p'.entry = p.entry) (hhold : p'.toHold = [])
  (hcovers : ∀ t, p.covers t = true → p'.covers t = true)

include hp hborn hopen htodo hentry hhold hcovers

theorem quiet_phase : (s.phase ref).Quiet p' := by
  rw [hp]
  exact ⟨fun h => absurd h hborn, hopen, htodo, hentry, .inr hhold, hcovers⟩

theorem quiet_at (hserver : s.server.SameHoldings server) :
    Quiet s ⟨server, update s.phase ref p', hello, s.calls ++ p'.spawn ref⟩ := by
  refine ⟨hserver, (quiet_phase hp hborn hopen htodo hentry hhold hcovers).update, ?_⟩
  cases p' with
  | answered => exact sameFlight_snoc rfl rfl
  | _ => exact sameFlight_of_calls (append_nil _)

end Phase

theorem attachOne_eq (server : Server) (acquired : Session.Acquired) (sess : Session) (n : GoString)
    (r : ReceiverId) :
    ∃ kind priority trackID, attachOne server acquired sess n r =
      sess.attachTrackWithKind n kind r priority trackID := by
  cases acquired with
  | resumed receivers | fresh receivers => exact ⟨_, _, _, rfl⟩

theorem effect_session {step}
    (h : sessionStep codec s.server ref (s.phase ref) step = some (server, phase)) :
    Effect s l (.session ref step)
      ⟨server, update s.phase ref phase, hello, s.calls ++ phase.spawn ref⟩
      (Ledger.record s (.session ref step)
        ⟨server, update s.phase ref phase, hello, s.calls ++ phase.spawn ref⟩ l) := by
  have hrefl := Server.SameHoldings.refl s.server
  have hborn := ne_idle_of_sessionStep h
  have hhello : ∀ {io sess r}, (s.server.sessionAt ref).receiveHello codec io = (sess, r) →
      s.server.SameHoldings (s.server.onSession ref (fun _ => sess)) := by
    intro io sess r hrec
    obtain ⟨version, tenant, helloID, lastSeen, hframe⟩ :=
      Session.receiveHello_frame codec io (s.server.sessionAt ref)
    obtain rfl : _ = sess := hframe.symm.trans (congrArg Prod.fst hrec)
    exact Server.sameHoldings_onSession _ _ rfl
  have hsdp : ∀ {accepted sdp sess r},
      (s.server.sessionAt ref).writeSDP codec accepted sdp = (sess, r) →
      s.server.SameHoldings (s.server.onSession ref (fun _ => sess)) := by
    intro accepted sdp sess r hwrite
    have hframe := Session.writeSDP_frame codec (s.server.sessionAt ref) accepted sdp
    rw [hwrite] at hframe
    exact Server.sameHoldings_control _ _ _ hframe
  generalize hp : s.phase ref = p at h hborn
  revert h
  fun_cases sessionStep codec s.server ref p step <;> intro h <;> cases h
  · next hrec => exact .quiet (quiet_at hp hborn id rfl rfl rfl (fun _ => id) (hhello hrec))
  · next hrec => exact .quiet (quiet_at hp hborn id rfl rfl rfl (fun _ => id) (hhello hrec))
  · exact .quiet (quiet_at hp hborn (by rintro ⟨⟩) rfl rfl rfl (fun _ => id)
      (Server.sameHoldings_control _ _ _ (Session.bestEffortError_frame _ _ _)))
  · next now greeting sess receivers server₁ htry =>
    obtain ⟨htracks, store, ran, p, hstore, hentry, rfl, hsame⟩ := Server.tryResume_some htry
    have hset : server₁.SameHoldings (server₁.onSession ref (fun _ => sess)) := by
      refine Server.sameHoldings_onSession _ _ (htracks.trans ?_)
      rw [← (Server.sameSessions_tryResume s.server (s.server.sessionAt ref) now [] greeting).sessionAt,
        htry]
    have hkey : (server₁.onSession ref (fun _ => sess)).parkKey ref =
        scopedKey sess.tenant sess.sessionID := by
      rw [Server.parkKey, Server.onSession_self]
    simp only [Ledger.record, update_self, hkey, Phase.spawn, append_nil]
    exact .resumed hp hstore hentry (hsame.trans hset)
  · next greeting htry =>
    obtain ⟨store, ran, hstore, hsame⟩ := Server.tryResume_none htry
    simp only [Ledger.record, update_self]
    have hquiet : (s.phase ref).Quiet (.allocating greeting) :=
      quiet_phase hp hborn id rfl rfl rfl (fun _ => id)
    exact .evicted hstore hsame hquiet.update (sameFlight_of_calls (append_nil _))
  · next halloc =>
    cases halloc
    exact .quiet (quiet_at hp hborn id rfl rfl rfl (fun _ => id)
      (Server.sameHoldings_onSession _ _ rfl))
  · next receivers hfresh =>
    obtain rfl : _ = receivers := congrArg Prod.fst hfresh
    obtain rfl : _ = server := congrArg Prod.snd hfresh
    simp only [Phase.spawn, append_nil]
    exact .subscribed hp
  · next acquired e todo =>
    obtain ⟨kind, priority, trackID, heq⟩ :=
      attachOne_eq s.server acquired (s.server.sessionAt ref) e.1 e.2
    have hserver : s.server.onSession ref (fun sess => attachOne s.server acquired sess e.1 e.2) =
        s.server.onSession ref (fun sess => sess.attachTrackWithKind e.1 kind e.2 priority trackID) := by
      simp only [Server.onSession, heq]
    simp only [hserver, Phase.spawn, append_nil]
    exact .attached hp
  · exact .quiet (quiet_at hp hborn id rfl rfl rfl (fun _ => id)
      (Server.sameHoldings_onSession _ _ rfl))
  · next hok => exact .quiet (quiet_at hp hborn id rfl rfl rfl (fun _ => id) (hsdp hok))
  · next herr => exact .quiet (quiet_at hp hborn (by rintro ⟨⟩) rfl rfl rfl (fun _ => id) (hsdp herr))
  · exact .quiet (quiet_at hp hborn id rfl rfl rfl (fun _ => id)
      (Server.sameHoldings_onSession _ _ rfl))
  · exact .quiet (quiet_at hp hborn (by rintro ⟨⟩) rfl rfl rfl (fun _ => id) hrefl)
  · simp only [Phase.spawn, append_nil]
    exact .snapped hp
  · exact .quiet (quiet_at hp hborn id rfl rfl rfl (fun _ => id) hrefl)
  · simp only [Phase.spawn, append_nil]
    exact .decided hp
  · simp only [Phase.spawn, append_nil]
    exact .held hp
  · simp only [Ledger.record, Ledger.grant_nothing]
    exact .quiet (quiet_at hp hborn id rfl rfl rfl (fun _ => id) hrefl)
  · simp only [Phase.spawn, append_nil]
    exact .released hp
  · simp only [Ledger.record, hp]
    exact .quiet (quiet_at hp hborn id rfl rfl rfl (fun _ h => by cases h) hrefl)
  · next hpark =>
    simp only [Ledger.record, hp, Phase.spawn, append_nil]
    exact .parked hp hpark
  · simp only [Phase.spawn, append_nil]
    exact .removed hp

theorem quiet_turn {i} {c' : Call} {c} (hcall : s.calls[i]? = some c)
    (hserver : s.server.SameHoldings server) (hcarried : c'.carried = c.carried)
    (hsubscribes : c'.subscribes = c.subscribes) (hdetaches : c'.detaches = c.detaches)
    (hcloses : c'.closes = c.closes) :
    Quiet s { s with server := server, calls := Slots.put s.calls i (some c') } where
  server := hserver
  phase := fun _ => Phase.Quiet.refl _
  calls := by
    refine sameFlight_put (some c') hcall rfl ?_ ?_ ?_ ?_
    · simp [hcarried]
    · simp [hsubscribes]
    · simp [hdetaches]
    · simp [hcloses]

theorem quiet_done {i c} (hcall : s.calls[i]? = some c) (hcarried : c.carried = none)
    (hsubscribes : c.subscribes = []) (hdetaches : c.detaches = []) :
    Quiet s { s with server := s.server, calls := Slots.put s.calls i none } where
  server := Server.SameHoldings.refl _
  phase := fun _ => Phase.Quiet.refl _
  calls := by
    refine sameFlight_put none hcall rfl ?_ ?_ ?_ ?_
    · simp [hcarried]
    · simp [hsubscribes]
    · simp [hdetaches]
    · simp

theorem effect_turn (codec : Codec) (l : Ledger) (accepted : Bool) {i c}
    (hcall : s.calls[i]? = some c) :
    Effect s l (.turn i accepted)
      { s with
        server := (c.turn codec accepted s.server).1
        calls := Slots.put s.calls i (c.turn codec accepted s.server).2 }
      (Ledger.record s (.turn i accepted)
        { s with
          server := (c.turn codec accepted s.server).1
          calls := Slots.put s.calls i (c.turn codec accepted s.server).2 } l) := by
  have hrefl := Server.SameHoldings.refl s.server
  simp only [Ledger.record, hcall]
  fun_cases c.turn codec accepted s.server <;> dsimp only <;> try exact .quiet (quiet_done hcall rfl rfl rfl)
  · exact .turnSubscribed hcall
  · exact .turnAttached hcall
  · refine .quiet (quiet_turn hcall ?_ rfl rfl rfl rfl)
    apply Server.sameHoldings_control
    exact Session.sendAnnounce_frame codec accepted _ _ _ []
  · exact .turnClosed hcall
  · exact .turnDetached hcall
  · refine .quiet (quiet_turn hcall ?_ rfl rfl rfl rfl)
    apply Server.sameHoldings_control
    exact Session.sendUnannounce_frame codec accepted _ _
  · exact .quiet (quiet_turn hcall hrefl rfl rfl rfl rfl)
  · refine .quiet (quiet_turn hcall ?_ rfl rfl rfl rfl)
    apply Server.sameHoldings_control
    exact Session.write_frame _ accepted typeClose _
  · exact .quiet (quiet_turn hcall hrefl rfl rfl rfl rfl)
  · refine .quiet (quiet_turn hcall ?_ rfl rfl rfl rfl)
    apply Server.sameHoldings_control
    exact Session.sendAnnounce_frame codec accepted _ _ _ []

/-- **Inversion** of a step. -/
theorem effect_of_next {ev s'} (h : s.next codec ev = some s') :
    Effect s l ev s' (Ledger.record s ev s' l) := by
  have hrefl := Server.SameHoldings.refl s.server
  have hphase : ∀ ref, (s.phase ref).Quiet (s.phase ref) := fun _ => Phase.Quiet.refl _
  cases ev with
  | connect =>
    cases h
    exact Effect.connected
  | session ref step =>
    simp only [next] at h
    split at h
    · cases h
    · next server phase hs =>
      cases h
      exact effect_session hs
  | addTrackSpec spec =>
    simp only [next] at h
    cases hl : s.server.tracks.lookup spec.name with
    | some t =>
      rw [Server.registerTrack_of_some hl] at h
      cases h
      exact Effect.quiet ⟨hrefl, hphase, sameFlight_of_calls rfl⟩
    | none =>
      have heff := Effect.registered (l := l) hl
      obtain ⟨bc, recorders, -, hreg⟩ := Server.registerTrack_of_none hl (Server.specKind spec)
        (Server.specPriority spec) spec.trackID
      rw [hreg] at h heff
      cases h
      exact heff
  | removeTrack name =>
    simp only [next, Server.unregisterTrack] at h
    cases hl : s.server.tracks.lookup name with
    | none =>
      simp only [hl] at h
      cases h
      exact Effect.quiet ⟨hrefl, hphase, sameFlight_of_calls rfl⟩
    | some t =>
      simp only [hl] at h
      cases h
      exact Effect.unregistered hl
  | shutdown =>
    cases h
    have hdrain : s.server.SameHoldings { s.server with draining := true } :=
      ⟨rfl, rfl, rfl, rfl, rfl, rfl, fun _ => rfl, fun _ _ => rfl⟩
    exact Effect.quiet ⟨hdrain, hphase, sameFlight_snoc rfl rfl⟩
  | turn i accepted =>
    simp only [next] at h
    cases hcall : s.calls[i]? with
    | none =>
      rw [hcall] at h
      cases h
    | some c =>
      have heff := effect_turn codec l accepted hcall
      rw [hcall] at h
      simp only at h
      split at h
      · next server heq =>
        cases h
        rw [heq] at heff
        exact heff
      · next server c' heq =>
        cases h
        rw [heq] at heff
        exact heff
  | evictExpired now =>
    cases h
    exact Effect.evicted (evicts_evictExpiredLocked s.server.store now)
      (Server.SameHoldings.refl _) hphase (sameFlight_of_calls rfl)
  | publish b au =>
    cases h
    exact Effect.quiet ⟨s.server.sameHoldings_publish b au, hphase, sameFlight_of_calls rfl⟩

theorem effect_of_step {x x' ev} (h : LTS.withHistory (next codec) Ledger.record x ev = some x') :
    Effect x.1 x.2 ev x'.1 x'.2 := by
  obtain ⟨hnext, hrec⟩ := LTS.withHistory_eq_some.mp h
  exact hrec ▸ effect_of_next hnext

end Effect

end Concurrent

end QuicRTC

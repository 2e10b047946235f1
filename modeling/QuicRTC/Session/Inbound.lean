import QuicRTC.Framework.System
import QuicRTC.Framework.Registry
import QuicRTC.Pubsub.Receiver
import QuicRTC.Wire.Frame
import QuicRTC.Wire.Hello

/-! # Inbound Tracks

A subscriber may publish back. Three sides meet in `inboundTracks`, a map from names to entries:

* the control reader runs `handleAnnounce`, which has two critical sections, and
  `handleUnannounce`;
* a `drainInboundStream` goroutine for each stream has the gate, the lookup, and a loop that sends
  to the entry it holds;
* an `InboundRecv` call looks its entry up once and waits on the channels of that entry.
-/

namespace QuicRTC

open Wire Option

/-! ## Entries -/

/-- The wire makes no entry beyond this many. -/
def maxInboundTracks : Nat := 256

structure InboundTrack where
  name : GoString
  kind : GoString
  codec : GoString
  ch : LoggedChan AccessUnit
  announced : Bool
  authorized : Bool
  done : Bool

namespace InboundTrack

def fresh (name : GoString) : InboundTrack where
  name := name
  kind := []
  codec := []
  ch := LoggedChan.make 64
  announced := false
  authorized := false
  done := false

/-- When there is room. -/
def send (e : InboundTrack) (au : AccessUnit) : Option InboundTrack :=
  (e.ch.trySend au).map (fun ch => { e with ch := ch })

/-- When there is something. -/
def receive (e : InboundTrack) : Option (AccessUnit × InboundTrack) :=
  e.ch.tryRecv.map (fun r => (r.1, { e with ch := r.2 }))

theorem send_spec {e : InboundTrack} {e' au} (h : e.send au = some e') :
    e'.announced = e.announced ∧ e'.authorized = e.authorized ∧ e'.done = e.done ∧
      e'.ch.got = e.ch.got := by
  obtain ⟨ch, hch, rfl⟩ := map_eq_some_iff.mp h
  exact ⟨rfl, rfl, rfl, (LoggedChan.trySend_spec hch).2.2⟩

theorem receive_spec {e : InboundTrack} {e' au} (h : e.receive = some (au, e')) :
    e'.announced = e.announced ∧ e'.authorized = e.authorized ∧ e'.done = e.done ∧
      e'.ch.got = e.ch.got ++ [au] ∧ e.ch.buf = au :: e'.ch.buf := by
  obtain ⟨⟨au', ch⟩, hch, heq⟩ := map_eq_some_iff.mp h
  obtain ⟨rfl, rfl⟩ := Prod.mk.inj heq
  obtain ⟨hbuf, -, hgot⟩ := LoggedChan.tryRecv_spec hch
  exact ⟨rfl, rfl, rfl, hgot, hbuf⟩

theorem receive_eq_none_iff {e : InboundTrack} : e.receive = none ↔ e.ch.buf = [] := by
  rw [receive, map_eq_none_iff, LoggedChan.tryRecv_eq_none_iff]

def record (e : InboundTrack) (a : Announce) (authorized : Bool) : InboundTrack :=
  { e with kind := a.kind, codec := a.codec, announced := true, authorized := authorized }

def close (e : InboundTrack) : InboundTrack := { e with done := true }

end InboundTrack

/-! ## Goroutines -/

/-- Between frames, or between the two critical sections of `handleAnnounce`. -/
inductive Reader where
  | idle
  | recording (a : Announce) (t : Nat) (authorized : Bool)
deriving DecidableEq

inductive Drain where
  /-- The header has been read. -/
  | opened (track : GoString)
  /-- The gate has let the stream through. -/
  | passed (track : GoString)
  /-- In the loop, with the entry it holds. -/
  | draining (track : GoString) (t : Nat)
  | stopped
deriving DecidableEq

inductive RecvResult where
  | au (au : AccessUnit)
  | eof
  | cancelled
deriving DecidableEq

inductive RecvPhase where
  /-- In the `select`. -/
  | waiting
  /-- It took the case `<-t.done`, before the inner `select`. -/
  | ending
  | returned (result : RecvResult)
deriving DecidableEq

/-- With the entry it holds. -/
structure RecvCall where
  track : GoString
  t : Nat
  phase : RecvPhase
deriving DecidableEq

/-- As the entry was at that moment. -/
structure Obtained where
  t : Nat
  announced : Bool
  authorized : Bool
  created : Bool
deriving DecidableEq

structure Inbound where
  /-- `OnAnnounce` is set. -/
  gated : Bool
  inboundTracks : Registry InboundTrack
  reader : Reader
  drains : List Drain
  calls : List RecvCall
  /-- The error frames written. -/
  errors : List ErrorPayload
  obtained : List Obtained
  /-- The track has been unannounced and not announced since. -/
  retired : GoString → Bool

/-! ## Critical sections and channel operations -/

def inboundTrackChan (tracks : Registry InboundTrack) (name : GoString) :
    Nat × Registry InboundTrack :=
  tracks.getOrAdd name (.fresh name)

/-- `none` when the cap is reached. -/
def inboundTrackChanWire (tracks : Registry InboundTrack) (name : GoString) :
    Option (Nat × Registry InboundTrack) :=
  match tracks.lookup name with
  | some t => some (t, tracks)
  | none =>
    -- The cap counts every entry, announced or not.
    if maxInboundTracks ≤ tracks.size then none
    else some (tracks.created, tracks.add name (.fresh name))

theorem inboundTrackChanWire_spec {tracks tracks' name t}
    (h : inboundTrackChanWire tracks name = some (t, tracks')) :
    (t, tracks') = tracks.getOrAdd name (.fresh name) := by
  unfold inboundTrackChanWire at h
  split at h
  · next r hr =>
    rw [Registry.getOrAdd_of_some _ hr]
    exact (some.inj h).symm
  · next hr =>
    rw [Registry.getOrAdd_of_none _ hr]
    split at h
    · cases h
    · exact (some.inj h).symm

namespace Inbound

def trackUnauthorized (reason : GoString) : ErrorPayload := ⟨str "track_unauthorized", reason⟩

def tooManyTracks : ErrorPayload := ⟨str "too_many_tracks", str "inbound track cap (256) reached"⟩

/-- Up to its lookup. `verdict` is the error of `OnAnnounce`, if it is set. -/
def handleAnnounce (s : Inbound) (a : Announce) (verdict : Option GoString) : Inbound :=
  match if s.gated then verdict else none with
  | some reason =>
    match inboundTrackChanWire s.inboundTracks a.name with
    | none => { s with errors := s.errors ++ [trackUnauthorized reason] }
    | some (t, tracks) =>
      { s with
        errors := s.errors ++ [trackUnauthorized reason]
        inboundTracks := tracks
        -- A refused track still gets an entry, marked as unauthorized.
        reader := .recording a t false }
  | none =>
    match inboundTrackChanWire s.inboundTracks a.name with
    | none => { s with errors := s.errors ++ [tooManyTracks] }
    | some (t, tracks) => { s with inboundTracks := tracks, reader := .recording a t true }

/-- The second critical section of `handleAnnounce`. -/
def recordAnnounce (s : Inbound) (a : Announce) (t : Nat) (authorized : Bool) : Inbound :=
  { s with
    inboundTracks := s.inboundTracks.modify t (·.record a authorized)
    reader := .idle
    retired := Function.update s.retired a.name false }

def handleUnannounce (s : Inbound) (u : Unannounce) : Inbound :=
  match s.inboundTracks.lookup u.name with
  | none => { s with retired := Function.update s.retired u.name true }
  | some t =>
    { s with
      -- The entry leaves the map with what it has buffered.
      inboundTracks := (s.inboundTracks.modify t (·.close)).remove u.name
      retired := Function.update s.retired u.name true }

/-- Announced and authorized. -/
def admits (s : Inbound) (track : GoString) : Bool :=
  match s.inboundTracks.lookup track with
  -- A stream may be ahead of its Announce.
  | none => false
  | some t => (s.inboundTracks.cell t).announced && (s.inboundTracks.cell t).authorized

def headerTrack (header : GoString) : GoString :=
  if header = [] then str "primary" else header

def setDrain (s : Inbound) (i : Nat) (d : Drain) : Inbound := { s with drains := s.drains.set i d }

def gate (s : Inbound) (i : Nat) (track : GoString) : Inbound :=
  -- Without `OnAnnounce` every stream passes.
  if s.gated && !s.admits track then s.setDrain i .stopped else s.setDrain i (.passed track)

def lookupTrack (s : Inbound) (i : Nat) (track : GoString) : Inbound :=
  match inboundTrackChanWire s.inboundTracks track with
  | none => s.setDrain i .stopped
  | some (t, tracks) =>
    { s.setDrain i (.draining track t) with
      inboundTracks := tracks
      obtained := s.obtained ++ [
        { t := t
          announced := (tracks.cell t).announced
          authorized := (tracks.cell t).authorized
          created := (s.inboundTracks.lookup track).isNone }] }

def inboundUnit (f : FeedFrame) : AccessUnit where
  bytes := f.payload
  keyframe := f.isKeyframe
  ptsMicro := f.ptsMicro
  seq := f.seq
  discontinuity := (f.flags &&& flagDiscontinuity) != 0
  pubWallMicro := 0

/-- Into the entry the goroutine holds. -/
def enqueue (s : Inbound) (t : Nat) (f : FeedFrame) : Option Inbound :=
  match (s.inboundTracks.cell t).send (inboundUnit f) with
  | none => none
  | some e => some { s with inboundTracks := s.inboundTracks.modify t (fun _ => e) }

def setPhase (s : Inbound) (i : Nat) (c : RecvCall) (phase : RecvPhase) : Inbound :=
  { s with calls := s.calls.set i { c with phase := phase } }

/-- Up to its `select`. -/
def inboundRecv (s : Inbound) (track : GoString) : Inbound :=
  { s with
    inboundTracks := (inboundTrackChan s.inboundTracks track).2
    calls := s.calls ++ [⟨track, (inboundTrackChan s.inboundTracks track).1, .waiting⟩] }

def handOver (s : Inbound) (i : Nat) (c : RecvCall) (au : AccessUnit) (e : InboundTrack) : Inbound :=
  { s.setPhase i c (.returned (.au au)) with
    inboundTracks := s.inboundTracks.modify c.t (fun _ => e) }

/-- The case `au := <-t.ch`. -/
def take (s : Inbound) (i : Nat) (c : RecvCall) : Option Inbound :=
  match (s.inboundTracks.cell c.t).receive with
  | none => none
  | some (au, e) => some (s.handOver i c au e)

/-- The inner `select` after `<-t.done`. -/
def drainOrEnd (s : Inbound) (i : Nat) (c : RecvCall) : Inbound :=
  match s.take i c with
  | none => s.setPhase i c (.returned .eof)
  | some s' => s'

/-! ## The system -/

inductive Step where
  | announce (a : Announce) (verdict : Option GoString)
  | record
  | unannounce (u : Unannounce)
  | stream (header : GoString)
  | gate (i : Nat)
  | lookup (i : Nat)
  | enqueue (i : Nat) (f : FeedFrame)
  /-- The rate limit, or the `default` case. -/
  | drop (i : Nat) (f : FeedFrame) (limited : Bool)
  /-- The stream ends, or its goroutine sees `done` or the context. -/
  | stop (i : Nat)
  | recv (track : GoString)
  | take (i : Nat)
  | seeDone (i : Nat)
  | drainOrEnd (i : Nat)
  | cancel (i : Nat)
deriving DecidableEq

/-- `none`: the step is not enabled. -/
def next (s : Inbound) : Step → Option Inbound
  | .announce a verdict =>
    match s.reader with
    | .idle => some (s.handleAnnounce a verdict)
    | _ => none
  | .record =>
    match s.reader with
    | .recording a t authorized => some (s.recordAnnounce a t authorized)
    | _ => none
  | .unannounce u =>
    match s.reader with
    | .idle => some (s.handleUnannounce u)
    | _ => none
  | .stream header => some { s with drains := s.drains ++ [.opened (headerTrack header)] }
  | .gate i =>
    match s.drains[i]? with
    | some (.opened track) => some (s.gate i track)
    | _ => none
  | .lookup i =>
    match s.drains[i]? with
    | some (.passed track) => some (s.lookupTrack i track)
    | _ => none
  | .enqueue i f =>
    match s.drains[i]? with
    | some (.draining _ t) => s.enqueue t f
    | _ => none
  | .drop i f limited =>
    match s.drains[i]? with
    | some (.draining _ t) =>
      -- the default case, when neither channel is ready
      if limited || (((s.inboundTracks.cell t).send (inboundUnit f)).isNone &&
          !(s.inboundTracks.cell t).done) then some s else none
    | _ => none
  | .stop i =>
    match s.drains[i]? with
    | some (.draining _ _) => some (s.setDrain i .stopped)
    | _ => none
  | .recv track => some (s.inboundRecv track)
  | .take i =>
    match s.calls[i]? with
    | some c => if c.phase = .waiting then s.take i c else none
    | none => none
  | .seeDone i =>
    match s.calls[i]? with
    | some c =>
      if c.phase = .waiting ∧ (s.inboundTracks.cell c.t).done = true then
        some (s.setPhase i c .ending)
      else none
    | none => none
  | .drainOrEnd i =>
    match s.calls[i]? with
    | some c => if c.phase = .ending then some (s.drainOrEnd i c) else none
    | none => none
  | .cancel i =>
    match s.calls[i]? with
    | some c => if c.phase = .waiting then some (s.setPhase i c (.returned .cancelled)) else none
    | none => none

/-- The handshake is complete. -/
def start (gated : Bool) : Inbound where
  gated := gated
  inboundTracks := Registry.empty (.fresh [])
  reader := .idle
  drains := []
  calls := []
  errors := []
  obtained := []
  retired := fun _ => false

def inboundSystem (gated : Bool) : LTS.System Inbound Step := LTS.ofFun (start gated) next

/-! ## What a step does -/

inductive Effect (s : Inbound) : Step → Inbound → Prop where
  | announce {a verdict} (idle : s.reader = .idle) :
      Effect s (.announce a verdict) (s.handleAnnounce a verdict)
  | record {a t ok} (reader : s.reader = .recording a t ok) :
      Effect s .record (s.recordAnnounce a t ok)
  | unannounce {u} (idle : s.reader = .idle) :
      Effect s (.unannounce u) (s.handleUnannounce u)
  | stream {header} :
      Effect s (.stream header) { s with drains := s.drains ++ [.opened (headerTrack header)] }
  | gate {i track} :
      Effect s (.gate i) (s.gate i track)
  | lookup {i track} (passed : Drain.passed track ∈ s.drains) :
      Effect s (.lookup i) (s.lookupTrack i track)
  | enqueue {i track t f e} (drain : s.drains[i]? = some (.draining track t))
      (sent : (s.inboundTracks.cell t).send (inboundUnit f) = some e) :
      Effect s (.enqueue i f) { s with inboundTracks := s.inboundTracks.modify t (fun _ => e) }
  | drop {i f limited} :
      Effect s (.drop i f limited) s
  | stop {i} :
      Effect s (.stop i) (s.setDrain i .stopped)
  | recv {track} :
      Effect s (.recv track) (s.inboundRecv track)
  | take {i c au e} (call : s.calls[i]? = some c) (waiting : c.phase = .waiting)
      (received : (s.inboundTracks.cell c.t).receive = some (au, e)) :
      Effect s (.take i) (s.handOver i c au e)
  | seeDone {i c} (call : s.calls[i]? = some c) (waiting : c.phase = .waiting)
      (done : (s.inboundTracks.cell c.t).done = true) :
      Effect s (.seeDone i) (s.setPhase i c .ending)
  | drained {i c au e} (call : s.calls[i]? = some c) (ending : c.phase = .ending)
      (received : (s.inboundTracks.cell c.t).receive = some (au, e)) :
      Effect s (.drainOrEnd i) (s.handOver i c au e)
  | ended {i c} (call : s.calls[i]? = some c) (ending : c.phase = .ending)
      (empty : (s.inboundTracks.cell c.t).receive = none) :
      Effect s (.drainOrEnd i) (s.setPhase i c (.returned .eof))
  | cancel {i c} (call : s.calls[i]? = some c) (waiting : c.phase = .waiting) :
      Effect s (.cancel i) (s.setPhase i c (.returned .cancelled))

theorem take_eq_some_iff {s : Inbound} {s' i c} :
    s.take i c = some s' ↔ ∃ au e, (s.inboundTracks.cell c.t).receive = some (au, e) ∧
      s.handOver i c au e = s' := by
  unfold take
  split
  · next h => simp [h]
  · next au e h => simp [h]

theorem take_eq_none_iff {s : Inbound} {i c} :
    s.take i c = none ↔ (s.inboundTracks.cell c.t).receive = none := by
  unfold take
  split
  · next h => simp [h]
  · next au e h => simp [h]

theorem effect_of_next {s s' st} : next s st = some s' → Effect s st s' := by
  fun_cases next s st <;> intro h <;> try cases h
  · next hidle => exact .announce hidle
  · next hreader => exact .record hreader
  · next hidle => exact .unannounce hidle
  · exact .stream
  · exact .gate
  · next hget => exact .lookup (List.mem_of_getElem? hget)
  · next hget =>
    unfold enqueue at h
    split at h
    · cases h
    · next hsend => exact some.inj h ▸ .enqueue hget hsend
  · exact .drop
  · exact .stop
  · exact .recv
  · next hcall hwait =>
    obtain ⟨au, e, hrecv, rfl⟩ := take_eq_some_iff.mp h
    exact .take hcall hwait hrecv
  · next hcall hwait => exact .seeDone hcall hwait.1 hwait.2
  · next hcall hend =>
    unfold drainOrEnd
    split
    · next hnone => exact .ended hcall hend (take_eq_none_iff.mp hnone)
    · next htake =>
      obtain ⟨au, e, hrecv, rfl⟩ := take_eq_some_iff.mp htake
      exact .drained hcall hend hrecv
  · next hcall hwait => exact .cancel hcall hwait

end Inbound

end QuicRTC

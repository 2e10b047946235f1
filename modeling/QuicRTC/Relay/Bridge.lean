import QuicRTC.Relay.Forwarding
import QuicRTC.Relay.Upstream
import QuicRTC.Resume.Beyond

/-! # A Track from the Upstream Server through the Relay

One track of an upstream: the server with its broadcaster, which parks and resumes receivers
(`ResumeState`); for each session a pump and the streams to the client (`Link`); and `runUpstream`
(`Upstream`). For each dial the server takes a receiver that nobody reads yet.
-/

namespace QuicRTC

open Wire Client Option

/-! ## State -/

/-- Without a session ID there is nothing to resume. -/
def SentHello.cursor (h : SentHello) (t : GoString) : Option UInt32 :=
  if h.sessionID = [] then none else h.lastSeenSeq.lookup t

namespace Upstream

def cursorSent (u : Upstream) (t : GoString) : Option UInt32 :=
  u.hellos.getLast?.bind (fun h => h.cursor t)

def nextCursor (u : Upstream) (t : GoString) : Option UInt32 :=
  SentHello.cursor ⟨u.options.1, u.options.2, u.received⟩ t

theorem cursorSent_dial (u : Upstream) (t : GoString) : u.dial.cursorSent t = u.nextCursor t := by
  unfold cursorSent dial
  rw [List.getLast?_concat]
  rfl

def out (u : Upstream) (t : GoString) : List UInt32 :=
  (u.published.filter (fun x => decide (x.1 = t))).map (fun x => x.2.seq)

/-- Of `runUpstream` itself, after the dial. -/
def Label.inLoop : Label → Bool
  | .dial => false
  | .dialed _ _ => false
  | .session _ _ => false
  | _ => true

end Upstream

theorem StreamConfig.loop_resuming (cfg : StreamConfig) (cursor : Option UInt32) :
    { cfg.1 with allowLeadingPFrames := cursor.isSome }.loop ≠ .datagramOrStream := cfg.2

def StreamConfig.resuming (cfg : StreamConfig) (cursor : Option UInt32) : StreamConfig :=
  ⟨{ cfg.1 with allowLeadingPFrames := cursor.isSome }, cfg.loop_resuming cursor⟩

/-- Session `i` has link and receiver `i`; `pending` is the receiver for the dial in
    progress. -/
structure Bridge where
  server : ResumeState
  upstream : Upstream
  links : List Link
  receivers : List ReceiverId
  pending : Option ReceiverId

namespace Bridge

/-! ## The system -/

inductive Label where
  /-- The producer, another subscriber, or a resume. -/
  | server (l : ResumeLabel)
  /-- The server uses receiver `q` for it. -/
  | dial (q : ReceiverId)
  | dialed (sessionID : GoString) (claimed : Bool)
  /-- The pump of session `i` reads. -/
  | dequeue (i : Nat)
  /-- It calls `RequestKeyframe`. -/
  | requested (i : Nat)
  | link (i : Nat) (l : LinkLabel)
  /-- Other than a client's step. -/
  | relay (i : Nat) (a : Relay.Action)
  | loop (l : Upstream.Label)

def spares (s : Bridge) : ResumeLabel → Bool
  | .read q => decide (q ∉ s.receivers) && decide (s.pending ≠ some q)
  | _ => true

def onReceiver : LinkLabel → Bool
  | .pump (.dequeue _) => true
  | .pump .requested => true
  | _ => false

def isClient : Relay.Action → Bool
  | .client _ => true
  | _ => false

/-- Resumed, or new. -/
def dialed (cfg : StreamConfig) (s : Bridge) (sessionID : GoString) (claimed : Bool) (q : ReceiverId) :
    Bridge :=
  { s with
    upstream := s.upstream.dialed sessionID claimed
    links := s.links ++ [.start (cfg.resuming (s.upstream.cursorSent cfg.track))]
    receivers := s.receivers ++ [q]
    pending := none }

def follow (s : Bridge) (i : Nat) (x : Link) : Option Client.Step → Option Bridge
  | none => some { s with links := s.links.set i x }
  | some st => (s.upstream.next (.session i (.client st))).map (fun u =>
      { s with upstream := u, links := s.links.set i x })

/-- `none`: the label is not enabled. -/
def next (cfg : StreamConfig) (s : Bridge) : Label → Option Bridge
  | .server l =>
    if s.spares l then (s.server.step increasing l).map (fun server => { s with server := server })
    else none
  | .dial q =>
    if s.server.phase q = .parked ∧ q ∉ s.receivers then
      (s.upstream.next .dial).map (fun u => { s with upstream := u, pending := some q })
    else none
  | .dialed sessionID claimed => do
    let q ← s.pending
    -- The handshake ends when the receiver has been resumed.
    if s.upstream.phase = .handshaking ∧ s.server.phase q = .live (s.upstream.cursorSent cfg.track) then
      some (s.dialed cfg sessionID claimed q)
    else none
  | .dequeue i => do
    let q ← s.receivers[i]?
    let x ← s.links[i]?
    let y ← (s.server.fan.recvAt q).recv
    let server ← s.server.step increasing (.read q)
    let z ← x.next cfg (.pump (.dequeue y.1))
    some { s with server := server, links := s.links.set i z.1 }
  | .requested i => do
    let q ← s.receivers[i]?
    let x ← s.links[i]?
    let z ← x.next cfg (.pump .requested)
    if s.server.fan.locked q then none
    else some { s with
      server := s.server.setRecv q (s.server.fan.recvAt q).requestKeyframe
      links := s.links.set i z.1 }
  | .link i l => do
    let x ← s.links[i]?
    let z ← x.next cfg l
    if onReceiver l then none else s.follow i z.1 z.2
  | .relay i a =>
    if isClient a then none
    else (s.upstream.next (.session i a)).map (fun u => { s with upstream := u })
  | .loop l =>
    if l.inLoop then (s.upstream.next l).map (fun u => { s with upstream := u, pending := none })
    else none

def start (bc : Broadcaster) (ucfg : UpstreamConfig) : Bridge where
  server := .start bc
  upstream := .start ucfg
  links := []
  receivers := []
  pending := none

/-- One track with any interceptors, a producer of increasing numbers, and a relay. -/
def bridgeSystem (cfg : StreamConfig) (chanSize maxAUBytes replayMaxBytes : Int) (selfContained : Bool)
    (chain : List Interceptor) (ucfg : UpstreamConfig) : LTS.System Bridge Label :=
  LTS.ofFun (start
    { ((newBroadcasterWithBytes chanSize maxAUBytes).setSelfContained
        selfContained).setReplayMaxBytes replayMaxBytes with interceptors := chain } ucfg) (next cfg)

inductive Effect (cfg : StreamConfig) (s : Bridge) : Label → Bridge → Prop where
  | server {l server} (spares : s.spares l = true) (step : s.server.step increasing l = some server) :
      Effect cfg s (.server l) { s with server := server }
  | dial {q} (phase : s.upstream.phase = .dialing) (parked : s.server.phase q = .parked)
      (unread : q ∉ s.receivers) :
      Effect cfg s (.dial q) { s with upstream := s.upstream.dial, pending := some q }
  | dialed {sessionID claimed q} (pending : s.pending = some q)
      (live : s.server.phase q = .live (s.upstream.cursorSent cfg.track)) :
      Effect cfg s (.dialed sessionID claimed) (s.dialed cfg sessionID claimed q)
  | dequeue {i q x au y server x' st} (receiver : s.receivers[i]? = some q)
      (link : s.links[i]? = some x) (recv : (s.server.fan.recvAt q).recv = some (au, y))
      (step : s.server.step increasing (.read q) = some server)
      (next : x.next cfg (.pump (.dequeue au)) = some (x', st)) :
      Effect cfg s (.dequeue i) { s with server := server, links := s.links.set i x' }
  | requested {i q x x' st} (receiver : s.receivers[i]? = some q) (link : s.links[i]? = some x)
      (next : x.next cfg (.pump .requested) = some (x', st)) :
      Effect cfg s (.requested i)
        { s with
          server := s.server.setRecv q (s.server.fan.recvAt q).requestKeyframe
          links := s.links.set i x' }
  | pump {i l x x'} (link : s.links[i]? = some x) (own : onReceiver l = false)
      (next : x.next cfg l = some (x', none)) :
      Effect cfg s (.link i l) { s with links := s.links.set i x' }
  | client {i l x x' st r c} (link : s.links[i]? = some x) (own : onReceiver l = false)
      (next : x.next cfg l = some (x', some st)) (get : s.upstream.sessions[i]? = some r)
      (step : Client.next r.client st = some c) :
      Effect cfg s (.link i l)
        { s with
          upstream := s.upstream.advance i r (.client st) { r with client := c }
          links := s.links.set i x' }
  | relay {i a r r'} (get : s.upstream.sessions[i]? = some r) (own : isClient a = false)
      (allowed : s.upstream.allows i a = true) (step : Relay.Effect r a r') :
      Effect cfg s (.relay i a) { s with upstream := s.upstream.advance i r a r' }
  | loop {l u} (own : l.inLoop = true) (step : Upstream.Effect s.upstream l u) :
      Effect cfg s (.loop l) { s with upstream := u, pending := none }

theorem effect_of_follow {cfg} {s : Bridge} {s' i l x x' st} (hlink : s.links[i]? = some x)
    (hown : onReceiver l = false) (hnext : x.next cfg l = some (x', st))
    (h : s.follow i x' st = some s') : Effect cfg s (.link i l) s' := by
  cases st with
  | none =>
    cases h
    exact .pump hlink hown hnext
  | some st =>
    obtain ⟨u, hu, rfl⟩ := map_eq_some_iff.mp h
    cases Upstream.effect_of_next hu with
    | session hget _ hrelay =>
      obtain ⟨c, hc, rfl⟩ := map_eq_some_iff.mp hrelay
      exact .client hlink hown hnext hget hc

theorem effect_of_next {cfg s s' l} (h : next cfg s l = some s') : Effect cfg s l s' := by
  cases l with
  | server l =>
    obtain ⟨hspares, h⟩ := ite_none_right_eq_some.mp h
    obtain ⟨server, hstep, rfl⟩ := map_eq_some_iff.mp h
    exact .server hspares hstep
  | dial q =>
    obtain ⟨⟨hparked, hunread⟩, h⟩ := ite_none_right_eq_some.mp h
    obtain ⟨u, hu, rfl⟩ := map_eq_some_iff.mp h
    cases Upstream.effect_of_next hu with
    | dial hphase => exact .dial hphase hparked hunread
  | dialed sessionID claimed =>
    obtain ⟨q, hpending, h⟩ := bind_eq_some_iff.mp h
    obtain ⟨⟨-, hlive⟩, h⟩ := ite_none_right_eq_some.mp h
    exact some.inj h ▸ .dialed hpending hlive
  | dequeue i =>
    obtain ⟨q, hq, h⟩ := bind_eq_some_iff.mp h
    obtain ⟨x, hx, h⟩ := bind_eq_some_iff.mp h
    obtain ⟨⟨au, y⟩, hrecv, h⟩ := bind_eq_some_iff.mp h
    obtain ⟨server, hstep, h⟩ := bind_eq_some_iff.mp h
    obtain ⟨⟨x', st⟩, hnext, h⟩ := bind_eq_some_iff.mp h
    exact some.inj h ▸ .dequeue hq hx hrecv hstep hnext
  | requested i =>
    obtain ⟨q, hq, h⟩ := bind_eq_some_iff.mp h
    obtain ⟨x, hx, h⟩ := bind_eq_some_iff.mp h
    obtain ⟨⟨x', st⟩, hnext, h⟩ := bind_eq_some_iff.mp h
    obtain ⟨-, h⟩ := ite_none_left_eq_some.mp h
    exact some.inj h ▸ .requested hq hx hnext
  | link i l =>
    obtain ⟨x, hx, h⟩ := bind_eq_some_iff.mp h
    obtain ⟨⟨x', st⟩, hnext, h⟩ := bind_eq_some_iff.mp h
    obtain ⟨hown, h⟩ := ite_none_left_eq_some.mp h
    exact effect_of_follow hx (Bool.eq_false_iff.mpr hown) hnext h
  | relay i a =>
    obtain ⟨hown, h⟩ := ite_none_left_eq_some.mp h
    obtain ⟨u, hu, rfl⟩ := map_eq_some_iff.mp h
    cases Upstream.effect_of_next hu with
    | session hget hallowed hrelay =>
      exact .relay hget (Bool.eq_false_iff.mpr hown) hallowed (Relay.effect_of_next hrelay)
  | loop l =>
    obtain ⟨hown, h⟩ := ite_none_right_eq_some.mp h
    obtain ⟨u, hu, rfl⟩ := map_eq_some_iff.mp h
    exact .loop hown (Upstream.effect_of_next hu)

end Bridge

end QuicRTC

import QuicRTC.Sdk.Client

/-! # Callbacks and Senders over Reconnects

`addTrack` and `senders` of the TypeScript client, beside the rest of it. On a control-stream error
`close` drops the receivers with their callbacks; on a CLOSE frame `teardownTransport` keeps the
senders, whose pumps hold the old transport. `addTrack` looks at `closed` and `transport` only,
which change after the `await`s of the teardown.
-/

namespace QuicRTC.Sdk

open LTS List Option AList Slots

/-! ## Publications -/

/-- It awaits the write of its ANNOUNCE, on the control stream of this transport. -/
structure AddCall where
  name : GoString
  transport : Nat
deriving DecidableEq

/-- Transports are numbered; `transport` is the last one. -/
structure Subscriptions where
  client : QuicRTCClient
  transport : Nat
  /-- `this.transport` is set. -/
  hasTransport : Bool
  /-- While it is open. -/
  controlWriter : Option Nat
  adding : List AddCall
  /-- The transport each pump writes to. -/
  senders : GoMap (Option Nat)
  announced : List (Nat × GoString)
  /-- The last one given to `onTrack`. -/
  registered : GoMap Nat
  /-- By `close`, since. -/
  dropped : List GoString

namespace Subscriptions

/-- `addTrack` up to its `await`. -/
def addTrack (s : Subscriptions) (track : GoString) : Subscriptions :=
  let name := if track = [] then str "primary" else track
  if s.client.closed || !s.hasTransport || !s.client.opts.validateLocalTrackName name then s
  else if (s.senders.lookup name).isSome then s
  else
    match s.controlWriter with
    | some t => { s with adding := s.adding ++ [⟨name, t⟩] }
    -- `writeControl` throws, or its write is rejected.
    | none => s

/-- The rest of `addTrack`. -/
def announceWritten (s : Subscriptions) (i : Nat) (call : AddCall) : Subscriptions :=
  { s with
    adding := s.adding.eraseIdx i
    announced := s.announced ++ [(call.transport, call.name)]
    -- The transport is read again.
    senders := s.senders.insert call.name (if s.hasTransport then some s.transport else none) }

inductive SubStep where
  | client (l : QuicRTCClient.Label)
  | addTrack (track : GoString)
  | announceWritten (i : Nat)
  | announceFails (i : Nat)

/-- `teardownTransport` changes the state at its end. -/
def connected (s : Subscriptions) : Bool := s.client.phase = .connected || s.client.phase = .tearing

/-- Nobody else takes units and the server withdraws no track; streams are accepted from a
    transport that is up. -/
def enabled (s : Subscriptions) : QuicRTCClient.Label → Bool
  | .recvOn .. | .timeout .. | .abort .. | .unannounce _ => false
  | .accept => s.connected
  | _ => true

/-- The streams of a transport end with it. -/
def endStreams (c : QuicRTCClient) : QuicRTCClient :=
  { c with drains := c.drains.map (fun _ => .exited) }

def after (s : Subscriptions) (c : QuicRTCClient) : QuicRTCClient.Label → Subscriptions
  | .onTrack name callback =>
    if c.opts.validateLocalTrackName name then
      { s with
        client := c
        registered := s.registered.insert name callback
        dropped := s.dropped.filter (fun n => n ≠ name) }
    else { s with client := c }
  | .closeTracks => { s with client := c, senders := ∅, dropped := s.registered.keys }
  -- The old writer is closed and stays in its field.
  | .closeDone => { s with client := endStreams c, controlWriter := none }
  | .tornDown => { s with client := endStreams c, hasTransport := false, controlWriter := none }
  | .timer => { s with client := c, transport := s.transport + 1, hasTransport := true }
  | .hello => { s with client := c, controlWriter := some s.transport }
  | _ => { s with client := c }

def next (s : Subscriptions) : SubStep → Option Subscriptions
  | .client l => if s.enabled l then (s.client.next l).map (fun c => s.after c l) else none
  | .addTrack track => some (s.addTrack track)
  | .announceWritten i => (s.adding[i]?).map (fun call => s.announceWritten i call)
  | .announceFails i => if i < s.adding.length then some { s with adding := s.adding.eraseIdx i } else none

def start (opts : Options) (sessionId : Option GoString) : Subscriptions where
  client := .start opts sessionId
  transport := 1
  hasTransport := true
  controlWriter := none
  adding := []
  senders := ∅
  announced := []
  registered := ∅
  dropped := []

def subscriptionSystem (opts : Options) (sessionId : Option GoString) : System Subscriptions SubStep :=
  ofFun (start opts sessionId) next

/-- What is drained for a registered callback is passed to it, and a sender, old or new,
    writes to the current transport on a track announced there. -/
structure Preserved (s : Subscriptions) : Prop where
  passed : ∀ d track i callback f, s.client.drains[d]? = some (.reading track i) →
             s.registered.lookup track = some callback →
             ∃ s', s.next (.client (.frame d f)) = some s' ∧
               s'.client.events = s.client.events ++ [(i, .passed callback (accessUnit f))]
  sender : ∀ name t, s.senders.lookup name = some t →
             t = some s.transport ∧ (s.transport, name) ∈ s.announced
  added : ∀ i call s', s.adding[i]? = some call → s.next (.announceWritten i) = some s' →
             s'.senders.lookup call.name = some (some s.transport) ∧
               (s.transport, call.name) ∈ s'.announced

/-- When a control stream is opened, dropped callbacks have been registered again, and there
    is no sender and no `addTrack` from before. -/
def renewed (s : Subscriptions) : SubStep → Bool
  | .client .hello => s.dropped.isEmpty && s.senders.entries.isEmpty && s.adding.isEmpty
  | _ => true

/-! ## Receivers and callbacks -/

theorem deliver_onAUCallback (r : TrackReceiver AccessUnit) (au : AccessUnit) :
    (r.deliver au).1.onAUCallback = r.onAUCallback := by
  unfold TrackReceiver.deliver TrackReceiver.enqueue
  repeat' split
  all_goals rfl

def Idle (r : TrackReceiver AccessUnit) : Prop := r.waiters = [] ∧ r.closed = false

theorem Idle.deliver {r} (h : Idle r) (au : AccessUnit) : Idle (r.deliver au).1 := by
  unfold TrackReceiver.deliver TrackReceiver.enqueue
  simp only [h.1, h.2, Bool.false_eq_true, if_false]
  repeat' split
  · exact h
  · exact ⟨rfl, rfl⟩
  · exact ⟨rfl, rfl⟩

/-- Each name has its own receiver, with the callback. -/
structure Wired (tracks : GoMap Nat) (receivers : List (TrackReceiver AccessUnit))
    (registered : GoMap Nat) (dropped : List GoString) : Prop where
  idle : ∀ name i, tracks.lookup name = some i → ∃ r, receivers[i]? = some r ∧ Idle r
  inj : ∀ n m i, tracks.lookup n = some i → tracks.lookup m = some i → n = m
  called : ∀ name callback, registered.lookup name = some callback → name ∈ dropped ∨
             ∃ i r, tracks.lookup name = some i ∧ receivers[i]? = some r ∧ r.onAUCallback = some callback

variable {c : QuicRTCClient} {registered : GoMap Nat} {dropped : List GoString}

structure Found (c : QuicRTCClient) (registered : GoMap Nat) (dropped : List GoString) (name : GoString)
    (c' : QuicRTCClient) (i : Nat) : Prop where
  wired : Wired c'.tracks c'.receivers registered dropped
  lookup : c'.tracks.lookup name = some i
  keeps : ∀ n j, c.tracks.lookup n = some j → c'.tracks.lookup n = some j
  opts : c'.opts = c.opts
  phase : c'.phase = c.phase
  drains : c'.drains = c.drains

theorem Wired.getOrCreateTrack (h : Wired c.tracks c.receivers registered dropped) (name : GoString) :
    Found c registered dropped name (c.getOrCreateTrack name).1 (c.getOrCreateTrack name).2 := by
  unfold QuicRTCClient.getOrCreateTrack
  split
  · next i hi => exact ⟨h, hi, fun _ _ hj => hj, rfl, rfl, rfl⟩
  · next hnew =>
    have hkeeps : ∀ n j, c.tracks.lookup n = some j → (c.createTrack name).tracks.lookup n = some j := by
      intro n j hj
      have hne : n ≠ name := by
        rintro rfl
        exact absurd (hnew.symm.trans hj) (by simp)
      exact (lookup_insert_ne hne).trans hj
    -- the number of the new receiver is above those in use
    have hlt : ∀ n i, c.tracks.lookup n = some i → i < c.receivers.length := by
      intro n i hi
      obtain ⟨r, hr, -⟩ := h.idle n i hi
      exact lt_of_getElem? hr
    refine ⟨⟨?_, ?_, ?_⟩, lookup_insert _, hkeeps, rfl, rfl, rfl⟩
    · intro n i hi
      rcases GoMap.lookup_insert_eq_some_iff.mp hi with ⟨-, rfl⟩ | ⟨-, hold⟩
      · exact ⟨_, getElem?_concat_length, rfl, rfl⟩
      · obtain ⟨r, hr, hidle⟩ := h.idle n i hold
        exact ⟨r, getElem?_append_some hr, hidle⟩
    · intro n m i hn hm
      rcases GoMap.lookup_insert_eq_some_iff.mp hn with ⟨hn, hi⟩ | ⟨-, hn⟩ <;>
        rcases GoMap.lookup_insert_eq_some_iff.mp hm with ⟨hm, hi'⟩ | ⟨-, hm⟩
      · exact hn.trans hm.symm
      · exact absurd (hi ▸ hlt m i hm) (Nat.lt_irrefl _)
      · exact absurd (hi' ▸ hlt n i hn) (Nat.lt_irrefl _)
      · exact h.inj n m i hn hm
    · intro n callback hreg
      rcases h.called n callback hreg with hdropped | ⟨i, r, hi, hr, hcb⟩
      · exact .inl hdropped
      · exact .inr ⟨i, r, hkeeps n i hi, getElem?_append_some hr, hcb⟩

theorem Wired.set {tracks receivers} (h : Wired tracks receivers registered dropped) {i r x}
    (hget : receivers[i]? = some r) (hidle : Idle r → Idle x) {registered' dropped'}
    (hown : ∀ name callback, tracks.lookup name = some i → registered'.lookup name = some callback →
      name ∈ dropped' ∨ x.onAUCallback = some callback)
    (hother : ∀ name, tracks.lookup name ≠ some i →
      registered'.lookup name = registered.lookup name ∧ (name ∈ dropped → name ∈ dropped')) :
    Wired tracks (receivers.set i x) registered' dropped' where
  idle := by
    intro n j hj
    obtain ⟨y, hy, hyidle⟩ := h.idle n j hj
    by_cases hij : i = j
    · subst hij
      obtain rfl := mem_unique hy hget
      exact ⟨_, getElem?_set_self (lt_of_getElem? hget), hidle hyidle⟩
    · exact ⟨y, (getElem?_set_ne hij).trans hy, hyidle⟩
  inj := h.inj
  called := by
    intro n callback hreg
    by_cases hn : tracks.lookup n = some i
    · rcases hown n callback hn hreg with hdropped | hcb
      · exact .inl hdropped
      · exact .inr ⟨i, _, hn, getElem?_set_self (lt_of_getElem? hget), hcb⟩
    · obtain ⟨hsame, hdropped⟩ := hother n hn
      rcases h.called n callback (hsame ▸ hreg) with hdr | ⟨j, y, hj, hy, hcb⟩
      · exact .inl (hdropped hdr)
      · have hij : i ≠ j := fun hij => hn (hij ▸ hj)
        exact .inr ⟨j, y, hj, (getElem?_set_ne hij).trans hy, hcb⟩

theorem Wired.deliver {tracks receivers} (h : Wired tracks receivers registered dropped) {i r}
    (hget : receivers[i]? = some r) (au : AccessUnit) :
    Wired tracks (receivers.set i (r.deliver au).1) registered dropped := by
  refine h.set hget (fun hidle => hidle.deliver au) ?_ (fun _ _ => ⟨rfl, id⟩)
  intro name callback hi hreg
  rcases h.called name callback hreg with hdropped | ⟨j, x, hj, hx, hcb⟩
  · exact .inl hdropped
  · obtain rfl := mem_unique hj hi
    obtain rfl := mem_unique hx hget
    exact .inr ((deliver_onAUCallback x au).trans hcb)

theorem Wired.onTrackOf (h : Wired c.tracks c.receivers registered dropped) (name : GoString)
    (callback : Nat) : ∃ i, Found c (registered.insert name callback) (dropped.filter (fun n => n ≠ name))
      name (c.onTrackOf name (fun r => r.onAU callback)) i := by
  have hfound := h.getOrCreateTrack name
  obtain ⟨r, hr, -⟩ := hfound.wired.idle name _ hfound.lookup
  simp only [QuicRTCClient.onTrackOf, hr]
  refine ⟨_, { hfound with wired := hfound.wired.set hr (x := (r.onAU callback).1) (fun hidle => hidle) ?_ ?_ }⟩
  · intro n cb hn hreg
    obtain rfl := hfound.wired.inj n name _ hn hfound.lookup
    rw [lookup_insert] at hreg
    exact .inr hreg
  · intro n hn
    have hne : n ≠ name := by
      rintro rfl
      exact hn hfound.lookup
    exact ⟨lookup_insert_ne hne, fun hmem => mem_filter.mpr ⟨hmem, decide_eq_true hne⟩⟩

/-! ## The invariant -/

/-- The last control stream is in use. -/
def inUse : Phase → Bool
  | .handshaking | .connected | .tearing => true
  | _ => false

/-- Nothing is left from an earlier transport. -/
structure Current (s : Subscriptions) : Prop where
  held : s.hasTransport = true
  writer : s.controlWriter = some s.transport
  dropped : s.dropped = []
  adding : ∀ call ∈ s.adding, call.transport = s.transport
  senders : ∀ name t, s.senders.lookup name = some t →
              t = some s.transport ∧ (s.transport, name) ∈ s.announced

structure Intact (s : Subscriptions) : Prop where
  wired : Wired s.client.tracks s.client.receivers s.registered s.dropped
  drains : s.client.phase ≠ .closed → ∀ track i, .reading track i ∈ s.client.drains →
             s.client.tracks.lookup track = some i
  held : s.client.phase = .connecting → s.hasTransport = true
  current : inUse s.client.phase = true → Current s

variable {s s' : Subscriptions}

theorem Intact.preserved (h : s.Intact) (hconn : s.connected = true) : s.Preserved := by
  have hphase : s.client.phase = .connected ∨ s.client.phase = .tearing := by
    simpa [connected] using hconn
  have hcur : Current s := h.current (by rcases hphase with hp | hp <;> rw [hp] <;> rfl)
  refine ⟨?_, hcur.senders, ?_⟩
  · intro d track i callback f hdrain hreg
    have hi := h.drains (by rcases hphase with hp | hp <;> rw [hp] <;> decide) track i (mem_of_getElem? hdrain)
    obtain ⟨r, hr, hwaiters, hclosed⟩ := h.wired.idle track i hi
    have hcb : r.onAUCallback = some callback := by
      rcases h.wired.called track callback hreg with hdropped | ⟨j, x, hj, hx, hcb⟩
      · rw [hcur.dropped] at hdropped
        cases hdropped
      · obtain rfl := mem_unique hj hi
        obtain rfl := mem_unique hx hr
        exact hcb
    have hdeliver : r.deliver (accessUnit f) = (r, [.passed callback (accessUnit f)]) := by
      simp [TrackReceiver.deliver, hclosed, hwaiters, hcb]
    refine ⟨s.after (s.client.gotFrame d track i r f) (.frame d f), ?_, ?_⟩
    · simp [next, enabled, QuicRTCClient.next, hdrain, hr]
    · simp [after, QuicRTCClient.gotFrame, QuicRTCClient.loopHead, QuicRTCClient.setDrain,
        QuicRTCClient.onReceiver, hdeliver]
  · intro i call s' hcall hnext
    simp only [next, hcall, map_some, some.injEq] at hnext
    subst hnext
    have htransport := hcur.adding call (mem_of_getElem? hcall)
    simp only [announceWritten, hcur.held, if_true, htransport]
    exact ⟨lookup_insert _, mem_concat_self⟩

theorem Intact.addTrack (h : s.Intact) (track : GoString) : (s.addTrack track).Intact := by
  simp only [Subscriptions.addTrack]
  generalize (if track = [] then str "primary" else track) = name
  split
  · exact h
  · split
    · exact h
    · split
      · next t hwriter =>
        refine { h with current := fun huse => ?_ }
        have hcur := h.current huse
        exact { hcur with
          adding := forall_mem_snoc hcur.adding (some.inj (hwriter.symm.trans hcur.writer)) }
      · exact h

theorem Intact.announceWritten (h : s.Intact) {i call} (hcall : s.adding[i]? = some call) :
    (s.announceWritten i call).Intact := by
  refine { h with current := fun huse => ?_ }
  have hcur := h.current huse
  refine { hcur with
    adding := fun x hx => hcur.adding x (mem_of_mem_eraseIdx hx)
    senders := fun n t ht => ?_ }
  simp only [Subscriptions.announceWritten, hcur.held, if_true] at ht
  rcases GoMap.lookup_insert_eq_some_iff.mp ht with ⟨rfl, rfl⟩ | ⟨-, hold⟩
  · have htransport := hcur.adding call (mem_of_getElem? hcall)
    simp only [Subscriptions.announceWritten, htransport]
    exact ⟨trivial, mem_concat_self⟩
  · obtain ⟨ht, hann⟩ := hcur.senders n t hold
    exact ⟨ht, mem_append_left _ hann⟩

theorem Intact.announceFails (h : s.Intact) (i : Nat) :
    Intact { s with adding := s.adding.eraseIdx i } :=
  { h with current := fun huse =>
      { h.current huse with adding := fun x hx => (h.current huse).adding x (mem_of_mem_eraseIdx hx) } }

/-! ## Steps of the client -/

theorem Intact.tracks (h : s.Intact) {c : QuicRTCClient} {registered dropped}
    (hwired : Wired c.tracks c.receivers registered dropped) (hphase : c.phase = s.client.phase)
    (hdrains : ∀ track i, .reading track i ∈ c.drains →
      .reading track i ∈ s.client.drains ∨ c.tracks.lookup track = some i)
    (hkeeps : ∀ n i, s.client.tracks.lookup n = some i → c.tracks.lookup n = some i)
    (hdropped : s.dropped = [] → dropped = []) :
    Intact { s with client := c, registered := registered, dropped := dropped } := by
  refine ⟨hwired, fun hp track i hi => ?_, fun hp => h.held (hphase ▸ hp), fun huse => ?_⟩
  · rcases hdrains track i hi with hold | hnew
    · exact hkeeps track i (h.drains (hphase ▸ hp) track i hold)
    · exact hnew
  · have hcur := h.current (hphase ▸ huse)
    exact { hcur with dropped := hdropped hcur.dropped }

theorem Intact.found (h : s.Intact) {registered dropped name c i}
    (hfound : Found s.client registered dropped name c i) (hdropped : s.dropped = [] → dropped = []) :
    Intact { s with client := c, registered := registered, dropped := dropped } :=
  h.tracks hfound.wired hfound.phase (fun _ _ hd => .inl (hfound.drains ▸ hd)) hfound.keeps hdropped

theorem Intact.onTrack (h : s.Intact) (name : GoString) (callback : Nat) :
    (s.after (s.client.onTrack name callback) (.onTrack name callback)).Intact := by
  unfold QuicRTCClient.onTrack
  split
  · next hvalid =>
    obtain ⟨i, hfound⟩ := h.wired.onTrackOf name callback
    simp only [after, hfound.opts, hvalid, if_true]
    refine h.found hfound (fun hnil => ?_)
    rw [hnil, filter_nil]
  · next hinvalid =>
    simp only [after, hinvalid, Bool.false_eq_true, if_false]
    exact h

theorem Intact.setDrain (h : s.Intact) {c : QuicRTCClient} {d x}
    (hwired : Wired c.tracks c.receivers s.registered s.dropped) (hphase : c.phase = s.client.phase)
    (hdrains : c.drains = s.client.drains)
    (hx : ∀ track i, x = .reading track i →
      .reading track i ∈ s.client.drains ∨ c.tracks.lookup track = some i)
    (hkeeps : ∀ n i, s.client.tracks.lookup n = some i → c.tracks.lookup n = some i) :
    Intact { s with client := c.setDrain d x } := by
  refine h.tracks (c := c.setDrain d x) hwired hphase (fun track i hi => ?_) hkeeps id
  rcases mem_or_eq_of_mem_set hi with hold | hnew
  · exact .inl (hdrains ▸ hold)
  · exact hx track i hnew.symm

theorem Intact.exits (h : s.Intact) (d : Nat) : Intact { s with client := s.client.setDrain d .exited } :=
  h.setDrain h.wired rfl rfl nofun (fun _ _ hi => hi)

theorem Intact.gotHeader (h : s.Intact) (d : Nat) (name : GoString) :
    Intact { s with client := s.client.gotHeader d name } := by
  simp only [QuicRTCClient.gotHeader]
  generalize (if name = [] then str "primary" else name) = finalName
  split
  · have hfound := h.wired.getOrCreateTrack finalName
    refine h.setDrain hfound.wired hfound.phase hfound.drains (fun track i hi => .inr ?_) hfound.keeps
    split at hi
    · cases hi
      exact hfound.lookup
    · cases hi
  · exact h.exits d

theorem Intact.gotFrame (h : s.Intact) {d : Nat} {track i r} (f : Wire.FeedFrame)
    (hdrain : s.client.drains[d]? = some (.reading track i)) (hget : s.client.receivers[i]? = some r) :
    Intact { s with client := s.client.gotFrame d track i r f } := by
  refine h.setDrain (h.wired.deliver hget (accessUnit f)) rfl rfl (fun track' i' hi => .inl ?_)
    (fun _ _ hi => hi)
  split at hi
  · cases hi
    exact mem_of_getElem? hdrain
  · cases hi

theorem Intact.accept (h : s.Intact) :
    Intact { s with client := { s.client with drains := s.client.drains ++ [.peeking] } } := by
  refine { h with drains := fun hp track i hi => ?_, current := fun huse => { h.current huse with } }
  rcases mem_snoc hi with hold | hnew
  · exact h.drains hp track i hold
  · cases hnew

theorem Intact.closeTracks : (s.after { s.client.closeTracks with phase := .closed } .closeTracks).Intact := by
  refine ⟨⟨nofun, nofun, fun name callback hreg => .inl ?_⟩, fun hp => absurd rfl hp, nofun, nofun⟩
  exact mem_keys.mp (GoMap.mem_iff.mpr ⟨callback, hreg⟩)

theorem Intact.hello (h : s.Intact) (hphase : s.client.phase = .connecting)
    (hok : s.renewed (.client .hello) = true) : (s.after s.client.sendHello .hello).Intact := by
  simp only [renewed, Bool.and_eq_true, List.isEmpty_iff] at hok
  obtain ⟨⟨hdropped, hsenders⟩, hadding⟩ := hok
  refine ⟨h.wired, fun _ => h.drains (by rw [hphase]; decide), nofun,
    fun _ => ⟨h.held hphase, rfl, hdropped, ?_, fun name t ht => ?_⟩⟩
  · intro call hcall
    exact absurd (show call ∈ s.adding from hcall) (by simp [hadding])
  · have hnone : s.senders.lookup name = none := by
      rw [AList.lookup, hsenders]
      rfl
    exact absurd (hnone.symm.trans ht) (by simp)

theorem Intact.unused {c : QuicRTCClient} {transport b w}
    (hwired : Wired c.tracks c.receivers s.registered s.dropped)
    (hdrains : ∀ track i, .reading track i ∈ c.drains → c.tracks.lookup track = some i)
    (hphase : inUse c.phase = false) (hheld : c.phase = .connecting → b = true) :
    Intact { s with client := c, transport := transport, hasTransport := b, controlWriter := w } :=
  ⟨hwired, fun _ => hdrains, hheld, fun huse => absurd (hphase.symm.trans huse) (by decide)⟩

theorem scheduleReconnect_eq (c : QuicRTCClient) :
    ∃ n, c.scheduleReconnect = { c with currentRetry := n, phase := .stopped } ∨
      c.scheduleReconnect = { c with currentRetry := n, phase := .backoff } := by
  unfold QuicRTCClient.scheduleReconnect
  split
  · exact ⟨_, .inl rfl⟩
  · exact ⟨_, .inr rfl⟩

theorem not_reading_endStreams {c : QuicRTCClient} {P : Prop} {track : GoString} {i : Nat}
    (h : .reading track i ∈ (endStreams c).drains) : P := by
  simp [endStreams] at h

theorem Intact.client (h : s.Intact) {l c} (hok : s.renewed (.client l) = true)
    (hen : s.enabled l = true) (hstep : s.client.next l = some c) : (s.after c l).Intact := by
  cases l with
  | recvOn | timeout | abort | unannounce => cases hen
  | onTrack name callback =>
    cases hstep
    exact h.onTrack name callback
  | accept =>
    obtain ⟨-, rfl⟩ := of_guard hstep
    exact h.accept
  | header d name =>
    obtain ⟨-, rfl⟩ := of_guard hstep
    exact h.gotHeader d name
  | frame d f =>
    simp only [QuicRTCClient.next] at hstep
    split at hstep
    · next track i hdrain =>
      obtain ⟨r, hr, rfl⟩ := map_eq_some_iff.mp hstep
      exact h.gotFrame f hdrain hr
    · cases hstep
  | streamEnds d =>
    obtain ⟨-, rfl⟩ := of_guard hstep
    exact h.exits d
  | announce name =>
    obtain ⟨-, rfl⟩ := of_guard hstep
    simp only [QuicRTCClient.handleAnnounce]
    split
    · exact h.found (h.wired.getOrCreateTrack name) id
    · exact h
  | controlError =>
    obtain ⟨hphase, rfl⟩ := of_guard hstep
    exact .unused h.wired (h.drains (by rw [hphase]; decide)) rfl nofun
  | serverClose =>
    obtain ⟨hphase, hstep⟩ := ite_none_right_eq_some.mp hstep
    have hdrains := h.drains (by rw [hphase]; decide)
    split at hstep
    · cases hstep
      exact ⟨h.wired, fun _ => hdrains, nofun, fun _ => { h.current (by rw [hphase]; rfl) with }⟩
    · cases hstep
      exact .unused h.wired hdrains rfl nofun
  | closeTracks =>
    obtain ⟨-, rfl⟩ := of_guard hstep
    exact .closeTracks
  | closeDone =>
    obtain ⟨-, hstep⟩ := ite_none_right_eq_some.mp hstep
    split at hstep
    · cases hstep
      obtain ⟨n, heq | heq⟩ := scheduleReconnect_eq s.client <;> rw [heq] <;>
        exact .unused h.wired (fun _ _ => not_reading_endStreams) rfl nofun
    · cases hstep
      exact .unused h.wired (fun _ _ => not_reading_endStreams) rfl nofun
  | tornDown =>
    obtain ⟨-, rfl⟩ := of_guard hstep
    obtain ⟨n, heq | heq⟩ := scheduleReconnect_eq { s.client with isAborted := false, afterError := false } <;>
      rw [heq] <;> exact .unused h.wired (fun _ _ => not_reading_endStreams) rfl nofun
  | timer =>
    obtain ⟨hphase, rfl⟩ := of_guard hstep
    exact .unused h.wired (h.drains (by rw [hphase]; decide)) rfl (fun _ => rfl)
  | hello =>
    obtain ⟨hphase, rfl⟩ := of_guard hstep
    exact h.hello hphase hok
  | connectFails =>
    obtain ⟨hphase, hstep⟩ := ite_none_right_eq_some.mp hstep
    have hdrains := h.drains (by rcases hphase with hp | hp <;> rw [hp] <;> decide)
    split at hstep
    · cases hstep
      obtain ⟨n, heq | heq⟩ := scheduleReconnect_eq s.client <;> rw [heq] <;>
        exact .unused h.wired hdrains rfl nofun
    · cases hstep
      exact .unused h.wired hdrains rfl nofun
  | sdp session =>
    obtain ⟨hphase, rfl⟩ := of_guard hstep
    exact ⟨h.wired, fun _ => h.drains (by rw [hphase]; decide), nofun,
      fun _ => { h.current (by rw [hphase]; rfl) with }⟩

/-! ## Results -/

/-- **Reconnects.** Callbacks and senders survive if, whenever a control stream is opened,
    dropped callbacks have been registered again and nothing is published from before. -/
theorem subscriptions_preserved {opts : Options} {sessionId : Option GoString}
    (h : Reachable ((subscriptionSystem opts sessionId).restrict (fun s l => s.renewed l = true)) s) :
    s.connected = true → s.Preserved := by
  refine (invariant_restrict Intact ?_ ?_ s h).preserved
  · exact ⟨⟨nofun, nofun, nofun⟩, nofun, fun _ => rfl, nofun⟩
  · intro s l s' _ hs hok hstep
    cases l with
    | client l =>
      obtain ⟨hen, hstep⟩ := ite_none_right_eq_some.mp hstep
      obtain ⟨c, hc, rfl⟩ := map_eq_some_iff.mp hstep
      exact hs.client hok hen hc
    | addTrack track =>
      cases hstep
      exact hs.addTrack track
    | announceWritten i =>
      obtain ⟨call, hcall, rfl⟩ := map_eq_some_iff.mp hstep
      exact hs.announceWritten hcall
    | announceFails i =>
      obtain ⟨-, rfl⟩ := of_guard hstep
      exact hs.announceFails i

def toConnected : List SubStep := [.client .hello, .client (.sdp (some (str "s")))]

def afterError : List SubStep :=
  [.client .controlError, .client .closeTracks, .client .closeDone, .client .timer]

def afterClose : List SubStep := [.client .tornDown, .client .timer]

def camStream : List SubStep := [.client .accept, .client (.header 0 (str "cam"))]

/-- A callback over a CLOSE frame and, registered again, over an error; a new sender. -/
theorem subscriptions_preserved_renewed : ∃ s : Subscriptions,
    s.transport = 3 ∧ s.registered.lookup (str "cam") = some 7 ∧
      s.client.drains = [.reading (str "cam") 1] ∧ s.senders.lookup (str "mic") = some (some 3) ∧
      s.Preserved := by
  obtain ⟨s, hs, hp⟩ := exists_reachable (start .defaults none) next renewed
    (fun s => decide (s.connected = true ∧ s.transport = 3 ∧ s.registered.lookup (str "cam") = some 7 ∧
      s.client.drains = [.reading (str "cam") 1] ∧ s.senders.lookup (str "mic") = some (some 3)))
    (toConnected ++ [.client (.onTrack (str "cam") 7), .client .serverClose] ++ afterClose ++
      toConnected ++ afterError ++ [.client (.onTrack (str "cam") 7)] ++ toConnected ++ camStream ++
      [.addTrack (str "mic"), .announceWritten 0]) (by decide +kernel)
  obtain ⟨hconn, htransport, hreg, hdrains, hsender⟩ := of_decide_eq_true hp
  exact ⟨s, htransport, hreg, hdrains, hsender, subscriptions_preserved hs hconn⟩

/-- No CLOSE frame is read while there is a sender or an `addTrack`. -/
def unpublished (s : Subscriptions) : SubStep → Bool
  | .client .serverClose => s.senders.entries.isEmpty && s.adding.isEmpty
  | _ => true

/-- The error path drops a callback; the CLOSE path keeps a sender of the old transport,
    also one made during the teardown. -/
theorem subscriptions_lost :
    (∃ s, Reachable (subscriptionSystem .defaults none) s ∧ s.connected = true ∧
      s.registered.lookup (str "cam") = some 7 ∧ s.client.drains = [.reading (str "cam") 1] ∧
      (s.next (.client (.frame 0 ⟨Wire.typeKeyframe, 0, 7, 0, 0, [1]⟩))).map (·.client.events) = some []) ∧
    (∃ s, Reachable (subscriptionSystem .defaults none) s ∧ s.connected = true ∧
      s.senders.lookup (str "mic") = some (some 1) ∧ s.transport = 2) ∧
    ∃ s, Reachable ((subscriptionSystem .defaults none).restrict (fun s l => s.unpublished l = true)) s ∧
      s.connected = true ∧ s.senders.lookup (str "mic") = some (some 1) ∧ s.transport = 2 := by
  refine ⟨?_, ?_, ?_⟩
  · exact exists_run (toConnected ++ [.client (.onTrack (str "cam") 7)] ++ afterError ++ toConnected ++
      camStream) (by decide +kernel)
  · exact exists_run (toConnected ++ [.addTrack (str "mic"), .announceWritten 0, .client .serverClose] ++
      afterClose ++ toConnected) (by decide +kernel)
  · exact exists_run_given (toConnected ++ [.client .serverClose, .addTrack (str "mic"),
      .announceWritten 0] ++ afterClose ++ toConnected) (by decide +kernel)

end Subscriptions

end QuicRTC.Sdk

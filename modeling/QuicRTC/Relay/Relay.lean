import QuicRTC.Client.Provenance

/-! # The Relay

One upstream session of `relay/relay.go`: `sessionLoop` starts a pump for `primary` and one for each
announced track. A pump calls `RecvOn` in a loop and publishes what it gets downstream under the
same name; it trusts a nil error.
-/

namespace QuicRTC

open Wire Client LTS List Option Slots

/-! ## Pumps -/

inductive PumpPhase where
  /-- Between two calls. -/
  | ready
  /-- In its `RecvOn` call with this number. -/
  | receiving (call : Nat)
  | stopped
deriving DecidableEq

structure Pump where
  track : GoString
  phase : PumpPhase
deriving DecidableEq

structure Relay where
  client : Client
  maxTracksPerUpstream : Int
  pumps : List Pump
  /-- With the track. -/
  published : List (GoString × AccessUnit)

namespace Relay

/-- A pump takes its name out when it returns. -/
def pumped (r : Relay) : List GoString :=
  (r.pumps.filter (fun p => decide (p.phase ≠ .stopped))).map Pump.track

instance (r : Relay) (name : GoString) : Decidable (name ∈ r.pumped) := inferInstance

/-- `claimed`: `claimTrack` lets this upstream have the name. -/
def startPump (r : Relay) (name : GoString) (claimed : Bool) : Relay :=
  if name ∈ r.pumped then r
  else if 0 ≤ r.maxTracksPerUpstream ∧ r.maxTracksPerUpstream ≤ r.pumped.length then r
  else if claimed then { r with pumps := r.pumps ++ [⟨name, .ready⟩] }
  else r

@[simp] theorem client_startPump (r : Relay) (name : GoString) (claimed : Bool) :
    (r.startPump name claimed).client = r.client := by
  unfold startPump
  split
  · rfl
  · split
    · rfl
    · split <;> rfl

def setPump (r : Relay) (p : Nat) (pump : Pump) : Relay := { r with pumps := r.pumps.set p pump }

def forwarded (au : AccessUnit) : AccessUnit where
  bytes := au.bytes
  keyframe := au.keyframe
  ptsMicro := au.ptsMicro
  seq := au.seq
  discontinuity := au.discontinuity
  pubWallMicro := au.pubWallMicro

def receive (r : Relay) (p : Nat) (track : GoString) : Relay :=
  { r.setPump p ⟨track, .receiving r.client.calls.length⟩ with client := r.client.recvOn track }

def publish (r : Relay) (p : Nat) (track : GoString) (au : AccessUnit) : Relay :=
  { r.setPump p ⟨track, .ready⟩ with published := r.published ++ [(track, forwarded au)] }

/-! ## The system -/

inductive Action where
  | client (st : Client.Step)
  /-- The poll meets an announced name. -/
  | poll (name : GoString) (claimed : Bool)
  | receive (p : Nat)
  | publish (p : Nat)
  /-- A pump gets an error and returns. -/
  | stop (p : Nat)

def outcome (r : Relay) (call : Nat) : Option (AccessUnit × Option RecvError) :=
  match r.client.calls[call]? with
  | some c =>
    match c.phase with
    | .returned au err => some (au, err)
    | _ => none
  | none => none

/-- `none`: the action is not enabled. -/
def next (r : Relay) : Action → Option Relay
  | .client st => (Client.next r.client st).map (fun c => { r with client := c })
  | .poll name claimed =>
    if (r.client.remoteTracks.lookup name).isSome then some (r.startPump name claimed) else none
  | .receive p =>
    match r.pumps[p]? with
    | some ⟨track, .ready⟩ => some (r.receive p track)
    | _ => none
  | .publish p =>
    match r.pumps[p]? with
    | some ⟨track, .receiving call⟩ =>
      match r.outcome call with
      -- A nil error is all the pump looks at.
      | some (au, none) => some (r.publish p track au)
      | _ => none
    | _ => none
  | .stop p =>
    match r.pumps[p]? with
    | some ⟨track, .receiving call⟩ =>
      match r.outcome call with
      | some (_, some _) => some (r.setPump p ⟨track, .stopped⟩)
      | _ => none
    | _ => none

/-- Right after the dial, with the pump for `primary`. -/
def start (maxTracksPerUpstream : Int) (claimed : Bool) : Relay :=
  startPump
    { client := Client.start
      maxTracksPerUpstream := maxTracksPerUpstream
      pumps := []
      published := [] } (str "primary") claimed

def relaySystem (maxTracksPerUpstream : Int) (claimed : Bool) : System Relay Action :=
  ofFun (start maxTracksPerUpstream claimed) next

inductive Effect (r : Relay) : Action → Relay → Prop where
  | client {st c} (next : Client.next r.client st = some c) :
      Effect r (.client st) { r with client := c }
  | poll {name claimed} : Effect r (.poll name claimed) (r.startPump name claimed)
  | receive {p track} (get : r.pumps[p]? = some ⟨track, .ready⟩) :
      Effect r (.receive p) (r.receive p track)
  | publish {p track call au} (get : r.pumps[p]? = some ⟨track, .receiving call⟩)
      (returned : r.outcome call = some (au, none)) : Effect r (.publish p) (r.publish p track au)
  | stop {p track call} (get : r.pumps[p]? = some ⟨track, .receiving call⟩) :
      Effect r (.stop p) (r.setPump p ⟨track, .stopped⟩)

theorem effect_of_next {r r' a} : next r a = some r' → Effect r a r' := by
  fun_cases next r a <;> intro h <;> try cases h
  · obtain ⟨c, hc, rfl⟩ := map_eq_some_iff.mp h
    exact .client hc
  · exact .poll
  · next hget => exact .receive hget
  · next hget _ hout => exact .publish hget hout
  · next hget _ _ _ => exact .stop hget

/-! ## What the relay publishes -/

/-- A pump waits for a call on its own track, and publishes what was decoded from a stream
    of it. -/
structure Faithful (r : Relay) : Prop where
  client : Sourced r.client
  pumps : ∀ p ∈ r.pumps, ∀ call, p.phase = .receiving call →
                (r.client.calls.map RecvOnCall.track)[call]? = some p.track
  published : ∀ x ∈ r.published, x ∈ r.client.decoded

/-- A CLOSE frame is handled only while the slot of `feedErr` is taken. -/
def slotTaken (r : Relay) : Action → Bool
  | .client st => r.client.slotTaken st
  | _ => true

namespace Faithful

variable {r : Relay}

theorem startPump (h : Faithful r) (name : GoString) (claimed : Bool) :
    Faithful (r.startPump name claimed) := by
  unfold Relay.startPump
  split
  · exact h
  · split
    · exact h
    · split
      · refine ⟨h.client, ?_, h.published⟩
        exact forall_mem_snoc h.pumps (fun call hcall => PumpPhase.noConfusion hcall)
      · exact h

theorem init (maxTracksPerUpstream : Int) (claimed : Bool) :
    Faithful (Relay.start maxTracksPerUpstream claimed) := by
  apply startPump
  exact ⟨Sourced.init, nofun, nofun⟩

theorem clientStep (h : Faithful r) {st c} (hok : r.client.slotTaken st = true)
    (hstep : Client.Effect r.client st c) : Faithful { r with client := c } := by
  obtain ⟨hcalls, hdecoded⟩ := grows_of_effect hstep
  refine ⟨h.client.step hok hstep, fun p hp call hcall => ?_, fun x hx => ?_⟩
  · have hold := h.pumps p hp call hcall
    have hlt := lt_of_getElem? hold
    obtain ⟨more, hmore⟩ := hcalls
    rw [← hmore, getElem?_append_left hlt]
    exact hold
  · exact hdecoded.subset (h.published x hx)

theorem receive (h : Faithful r) (p : Nat) (track : GoString) : Faithful (r.receive p track) := by
  have h' := h.clientStep rfl (@Client.Effect.recvOn r.client track)
  refine ⟨h'.client, ?_, h'.published⟩
  refine forall_mem_set h'.pumps ?_
  intro call hcall
  obtain rfl := PumpPhase.receiving.inj hcall
  simp [Relay.receive, Client.recvOn]

theorem outcome (h : Faithful r) {p call au} (hp : p ∈ r.pumps) (hphase : p.phase = .receiving call)
    (hout : r.outcome call = some (au, none)) : (p.track, au) ∈ r.client.decoded := by
  have htrack := h.pumps p hp call hphase
  unfold Relay.outcome at hout
  split at hout
  · next c hget =>
    rw [getElem?_map, hget] at htrack
    have hok := (h.client.calls c (mem_of_getElem? hget)).2
    split at hout
    · next au' err hret =>
      cases hout
      rw [hret] at hok
      rw [← some.inj htrack]
      exact hok
    · cases hout
  · cases hout

theorem step {a r'} (h : Faithful r) (hok : r.slotTaken a = true) (hstep : Relay.Effect r a r') :
    Faithful r' := by
  cases hstep with
  | client hnext => exact h.clientStep hok (Client.effect_of_next hnext)
  | poll => exact h.startPump _ _
  | receive => exact h.receive _ _
  | publish hget hout =>
    have hau := h.outcome (mem_of_getElem? hget) rfl hout
    refine ⟨h.client, ?_, forall_mem_snoc h.published hau⟩
    exact forall_mem_set h.pumps (fun call hcall => PumpPhase.noConfusion hcall)
  | stop =>
    refine ⟨h.client, ?_, h.published⟩
    exact forall_mem_set h.pumps (fun call hcall => PumpPhase.noConfusion hcall)

end Faithful

theorem faithful_of_reachable {maxTracksPerUpstream claimed} :
    ∀ r, Reachable ((relaySystem maxTracksPerUpstream claimed).restrict
      (fun r a => r.slotTaken a = true)) r → Faithful r := by
  refine invariant_restrict _ (Faithful.init maxTracksPerUpstream claimed) ?_
  intro r a r' _ h hok hstep
  exact h.step hok (effect_of_next hstep)

/-! ## Nothing is invented -/

/-- With a nil error, and downstream, only what was decoded from a stream of the track. -/
structure InventsNothing (r : Relay) : Prop where
  recvOn : ∀ c ∈ r.client.calls, ∀ au, c.phase = .returned au none →
              (c.track, au) ∈ r.client.decoded
  publish : ∀ n au, (n, au) ∈ r.published → (n, au) ∈ r.client.decoded

/-- **No invented data**, if a CLOSE frame is handled only while the slot of `feedErr` is
    taken. -/
theorem inventsNothing_of_slotTaken {maxTracksPerUpstream : Int} {claimed : Bool} {r : Relay}
    (h : Reachable ((relaySystem maxTracksPerUpstream claimed).restrict
      (fun r a => r.slotTaken a = true)) r) : InventsNothing r := by
  have hf := faithful_of_reachable r h
  refine ⟨fun c hc au hret => ?_, fun n au hx => hf.published (n, au) hx⟩
  have hok := (hf.client.calls c hc).2
  rw [hret] at hok
  exact hok

/-- After the keyframe the transport fails, and a CLOSE frame comes on top of it. -/
def relayed : List Action :=
  [.client (.stream []), .client (.lookup 0), .client (.decode 0 ⟨typeKeyframe, 0, 7, 0, 0, [1]⟩),
    .client (.deliver 0), .receive 0, .client (.findDone 0), .client (.take 0), .client (.observe 0),
    .publish 0, .client (.acceptError (str "gone")), .client .closeFrame, .receive 0,
    .client (.findDone 1), .client (.takeErr 1), .stop 0]

def keyUnit : AccessUnit := { AccessUnit.zero with bytes := [1], keyframe := true, seq := 7 }

theorem inventsNothing_relayed :
    ∃ r, Reachable ((relaySystem (-1) true).restrict (fun r a => r.slotTaken a = true)) r ∧
      r.published = [(str "primary", keyUnit)] ∧ InventsNothing r :=
  exists_run_given_imp relayed (fun r hr (hp : r.published = [(str "primary", keyUnit)]) =>
    ⟨hp, inventsNothing_of_slotTaken hr⟩) (by decide)

/-- No stream was ever opened. -/
def closedInOrder : List Action :=
  [.receive 0, .client (.findDone 0), .client .closeFrame, .client (.takeErr 0), .publish 0]

/-- `RecvOn` returns the zero unit with a nil error, and the relay publishes it. -/
theorem zero_published :
    ∃ r, Reachable (relaySystem (-1) true) r ∧ r.client.decoded = [] ∧
      r.client.calls.map RecvOnCall.phase = [.returned .zero none] ∧
      r.published = [(str "primary", .zero)] ∧ ¬ InventsNothing r := by
  refine exists_run_imp closedInOrder (fun r hr (hp : r.client.decoded = [] ∧
    r.client.calls.map RecvOnCall.phase = [.returned .zero none] ∧
    r.published = [(str "primary", .zero)]) => ⟨hp.1, hp.2.1, hp.2.2, fun h => ?_⟩) (by decide)
  have hmem := h.publish (str "primary") .zero (by rw [hp.2.2]; exact mem_singleton_self _)
  rw [hp.1] at hmem
  cases hmem

end Relay

end QuicRTC

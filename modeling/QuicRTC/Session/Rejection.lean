import QuicRTC.Client.Client
import QuicRTC.Sdk.Client
import QuicRTC.Session.Inbound
import QuicRTC.Wire.Read

/-! # Rejected Announces

A server that rejects an ANNOUNCE writes an ERROR frame and leaves its other tracks alone. Both
clients take every ERROR frame for the end of the session, whatever its code is.
-/

namespace QuicRTC.Inbound

open Wire Sdk List Registry

/-! ## The parties -/

/-- `writer.Write(TypeError, payload)`; `none` if it is not written. -/
def errorFrame (marshal : ErrorPayload → Option (List UInt8)) (e : ErrorPayload) :
    Option (List UInt8) :=
  (marshal e).bind fun payload => if maxControlPayload < payload.length then none else some payload

def announced (s : Inbound) (a : Announce) (verdict : Option GoString) : Inbound :=
  match (s.handleAnnounce a verdict).reader with
  | .recording a t authorized => (s.handleAnnounce a verdict).recordAnnounce a t authorized
  | .idle => s.handleAnnounce a verdict

def Rejects (s : Inbound) (a : Announce) (verdict : Option GoString) (e : ErrorPayload) : Prop :=
  (s.handleAnnounce a verdict).errors = s.errors ++ [e]

def goReads (c : Client) (frame : Option (List UInt8)) : Client :=
  match frame with
  | none => c
  | some payload => (c.next (.errorFrame payload)).getD c

def tsReads (c : QuicRTCClient) (frame : Option (List UInt8)) : QuicRTCClient :=
  match frame with
  | none => c
  | some _ => (c.next .controlError).getD c

/-! ## The other tracks -/

/-- It is as it was. -/
structure SameTrack (s s' : Inbound) (name : GoString) : Prop where
  drains : s'.drains = s.drains
  calls : s'.calls = s.calls
  entry : ∀ t, s.inboundTracks.lookup name = some t →
             s'.inboundTracks.lookup name = some t ∧ s'.inboundTracks.cell t = s.inboundTracks.cell t

variable {s : Inbound} {name : GoString}

theorem entry_of_wire {tracks tracks' n t r}
    (hwire : inboundTrackChanWire tracks n = some (t, tracks')) (hr : tracks.lookup name = some r) :
    tracks'.lookup name = some r ∧ tracks'.cell r = tracks.cell r ∧ tracks'.lookup n = some t := by
  have heq := inboundTrackChanWire_spec hwire
  have hlookup := lookup_getOrAdd tracks n (.fresh n)
  rw [← heq] at hlookup
  have htracks : tracks' = (tracks.getOrAdd n (.fresh n)).2 := congrArg Prod.snd heq
  subst htracks
  cases hn : tracks.lookup n with
  | some x =>
    rw [getOrAdd_of_some _ hn] at hlookup ⊢
    exact ⟨hr, rfl, hlookup⟩
  | none =>
    rw [getOrAdd_of_none _ hn] at hlookup ⊢
    exact ⟨lookup_add_of_some hn hr, cell_add_of_lt _ _ _ (lookup_lt hr),
      hlookup⟩

theorem handleAnnounce_spec (hidle : s.reader = .idle) (a : Announce) (verdict : Option GoString) :
    (s.handleAnnounce a verdict).drains = s.drains ∧ (s.handleAnnounce a verdict).calls = s.calls ∧
    ((s.handleAnnounce a verdict).reader = .idle ∧
        (s.handleAnnounce a verdict).inboundTracks = s.inboundTracks ∧
        inboundTrackChanWire s.inboundTracks a.name = none ∨
      ∃ t ok, (s.handleAnnounce a verdict).reader = .recording a t ok ∧
        inboundTrackChanWire s.inboundTracks a.name =
          some (t, (s.handleAnnounce a verdict).inboundTracks) ∧
        (ok = true → (s.handleAnnounce a verdict).errors = s.errors)) := by
  unfold handleAnnounce
  split
  · split
    · next hwire => exact ⟨rfl, rfl, .inl ⟨hidle, rfl, hwire⟩⟩
    · next t tracks hwire => exact ⟨rfl, rfl, .inr ⟨t, false, rfl, hwire, fun h => (by cases h)⟩⟩
  · split
    · next hwire => exact ⟨rfl, rfl, .inl ⟨hidle, rfl, hwire⟩⟩
    · next t tracks hwire => exact ⟨rfl, rfl, .inr ⟨t, true, rfl, hwire, fun _ => rfl⟩⟩

theorem sameTrack_announced {a : Announce} (hidle : s.reader = .idle) (verdict : Option GoString)
    (hname : name ≠ a.name) : SameTrack s (s.announced a verdict) name := by
  obtain ⟨hdrains, hcalls, hcases⟩ := handleAnnounce_spec hidle a verdict
  rcases hcases with ⟨hreader, htracks, -⟩ | ⟨t, ok, hreader, hwire, -⟩
  · simp only [announced, hreader]
    exact ⟨hdrains, hcalls, fun r hr => by rw [htracks]; exact ⟨hr, rfl⟩⟩
  · simp only [announced, hreader]
    refine ⟨hdrains, hcalls, fun r hr => ?_⟩
    obtain ⟨hlookup, hcell, hnew⟩ := entry_of_wire hwire hr
    -- two names never share an entry
    have hne : r ≠ t := fun heq => hname (lookup_inj hlookup (heq ▸ hnew))
    refine ⟨(lookup_modify ..).trans hlookup, ?_⟩
    simp only [recordAnnounce, cell_modify_of_ne _ _ hne, hcell]

theorem Rejects.not_admitted {a v e} (hidle : s.reader = .idle) (h : s.Rejects a v e) :
    (s.announced a v).admits a.name = false := by
  obtain ⟨-, -, hcases⟩ := handleAnnounce_spec hidle a v
  rcases hcases with ⟨hreader, htracks, hwire⟩ | ⟨t, ok, hreader, hwire, herrors⟩
  · -- no entry, and none is made
    have hnone : s.inboundTracks.lookup a.name = none := by
      unfold inboundTrackChanWire at hwire
      split at hwire
      · cases hwire
      · assumption
    simp only [announced, hreader, admits, htracks, hnone]
  · cases ok with
    | true =>
      rw [Rejects, herrors rfl] at h
      simp at h
    | false =>
      have hlookup := lookup_getOrAdd s.inboundTracks a.name (.fresh a.name)
      rw [← inboundTrackChanWire_spec hwire] at hlookup
      simp only [announced, hreader, recordAnnounce, admits, (lookup_modify ..).trans hlookup,
        cell_modify_self, InboundTrack.record, Bool.and_false]

/-! ## The clients -/

/-- **Rejected announces.** On the server only the rejected track is shut out; but the ERROR
    frame closes both clients, whatever they receive. -/
theorem rejection_closes_clients (marshal : ErrorPayload → Option (List UInt8)) {a : Announce}
    {v : Option GoString} {e : ErrorPayload} {payload : List UInt8} (hidle : s.reader = .idle)
    (hrejects : s.Rejects a v e) (hframe : errorFrame marshal e = some payload) {c : Client}
    (hc : c.reader = .idle) {ts : QuicRTCClient} (hts : ts.phase = .connected) :
    (goReads c (errorFrame marshal e)).closed = true ∧
      (tsReads ts (errorFrame marshal e)).closed = true ∧
      (s.announced a v).admits a.name = false ∧
      ∀ name, name ≠ a.name → SameTrack s (s.announced a v) name := by
  rw [hframe]
  refine ⟨?_, ?_, hrejects.not_admitted hidle, fun name hname => sameTrack_announced hidle v hname⟩
  · simp only [goReads, Client.next, hc]
    rfl
  · simp only [tsReads, QuicRTCClient.next, if_pos hts]
    rfl

def plainMarshal (e : ErrorPayload) : Option (List UInt8) := some (e.code ++ e.reason)

theorem rejection_closes_clients_cam :
    (start true).Rejects ⟨str "cam", [], []⟩ (some (str "no")) (trackUnauthorized (str "no")) ∧
      (goReads .start (errorFrame plainMarshal (trackUnauthorized (str "no")))).closed = true := by
  have hrejects : (start true).Rejects ⟨str "cam", [], []⟩ (some (str "no"))
    (trackUnauthorized (str "no")) := rfl
  exact ⟨hrejects, (rejection_closes_clients plainMarshal rfl hrejects rfl rfl
    (rfl : { QuicRTCClient.start .defaults none with phase := .connected }.phase = .connected)).1⟩

theorem rejection_closes :
    (start true).Rejects ⟨str "cam", [], []⟩ (some (str "no")) (trackUnauthorized (str "no")) ∧
    (goReads .start (errorFrame plainMarshal (trackUnauthorized (str "no")))).closed = true ∧
    ∃ ts, LTS.Reachable (QuicRTCClient.clientSystem .defaults none) ts ∧ ts.closed = false ∧
      (tsReads ts (errorFrame plainMarshal (trackUnauthorized (str "no")))).closed = true :=
  ⟨by rfl, by decide +kernel, LTS.exists_run [.hello, .sdp none] (by decide +kernel)⟩

end QuicRTC.Inbound

import QuicRTC.Server.Connect

/-! # The Handshake Gate

Nothing is acquired for a peer before its HELLO has passed every check. Each call of `OnResume`,
`OnAllocateID` and `OnFreshSession` is logged; for any callbacks, a handshake that logs a call,
gives the session an identifier or starts a pump had an admissible HELLO.
-/

namespace QuicRTC

open Wire

/-- It acquires something. -/
inductive Invocation where
  | resume
  | allocateID
  | freshSession
  deriving DecidableEq

def Callbacks.logged {σ : Type} (cb : Callbacks σ) : Callbacks (σ × List Invocation) where
  onAllocateID := cb.onAllocateID.map (fun allocate env =>
    let (id, env') := allocate env.1
    (id, env', env.2 ++ [.allocateID]))
  onResume := cb.onResume.map (fun onResume tenant id lastSeen env =>
    let (receivers, env') := onResume tenant id lastSeen env.1
    (receivers, env', env.2 ++ [.resume]))
  onFreshSession := cb.onFreshSession.map (fun onFreshSession env =>
    let (receivers, env') := onFreshSession env.1
    (receivers, env', env.2 ++ [.freshSession]))
  onLookupPriority := cb.onLookupPriority.map (fun lookup env => lookup env.1)
  onLookupTrackID := cb.onLookupTrackID.map (fun lookup env => lookup env.1)
  onLookupKind := cb.onLookupKind.map (fun lookup env => lookup env.1)

/-! ## The gate -/

namespace Session

theorem run_of_not_admissible {σ codec} (cb : Callbacks σ) {io} {s : Session} (env : σ)
    (h : ∀ hello, ¬ Admissible codec s.cfg io hello) :
    ∃ s' err, s.run codec cb io env = (s', env, .error err) ∧
      s'.sessionID = s.sessionID ∧ s'.tracks = s.tracks ∧ s'.pumps = s.pumps := by
  cases hrec : (s.receiveHello codec io).2 with
  | ok hello => exact absurd ((receiveHello_ok_iff codec io s hello).mp hrec).2 (h hello)
  | error err =>
    obtain ⟨s', hs', -, hid, htracks, hpumps⟩ := handshake_of_error cb env hrec
    refine ⟨s', err, ?_, hid, htracks, hpumps⟩
    simp only [run, hs']

/-- It called back, got an identifier, or started a pump. -/
def Acted {σ : Type} (result : Session × (σ × List Invocation) × Except HandshakeError Unit) : Prop :=
  result.2.1.2 ≠ [] ∨ result.1.sessionID ≠ [] ∨ result.1.pumps ≠ []

theorem admissible_of_acted {σ codec cfg} {cb : Callbacks σ} {io} {env : σ}
    (h : Acted ((Session.new cfg).run codec cb.logged io (env, []))) :
    ∃ hello, Admissible codec cfg io hello := by
  by_contra hno
  obtain ⟨s', err, hrun, hid, -, hpumps⟩ := run_of_not_admissible (s := Session.new cfg) cb.logged
    (env, []) (fun hello hadm => hno ⟨hello, hadm⟩)
  rw [hrun] at h
  rcases h with hlog | hid' | hpumps'
  · exact hlog rfl
  · exact hid' hid
  · exact hpumps' hpumps

end Session

def Common (hello : Hello) (v : GoString) : Prop :=
  InRange (Session.clientRange hello).1 (Session.clientRange hello).2 v ∧
    InRange minSupportedVersion currentVersion v

/-- By length, then by bytes. -/
def Earlier (a b : GoString) : Prop := a.length < b.length ∨ a.length = b.length ∧ a < b

theorem runSession_of_not_admissible {codec} (now : Int) (newID : GoString) {io} (s : Server)
    (ref : SessionRef) (h : ∀ hello, ¬ Session.Admissible codec (s.sessionAt ref).cfg io hello) :
    (s.runSession codec now newID io ref).1.store = s.store ∧
      (s.runSession codec now newID io ref).1.broadcasters = s.broadcasters := by
  obtain ⟨sess, err, hrun, -⟩ := Session.run_of_not_admissible (Server.callbacks now newID) s h
  unfold Server.runSession
  rw [hrun]
  exact ⟨rfl, rfl⟩

/-- **Handshake gate.** -/
theorem handshake_gate (codec : Codec) (cfg : SessionConfig) (io : ControlIO) :
    -- Callbacks, identifier and pumps only after an admissible HELLO.
    (∀ (σ : Type) (cb : Callbacks σ) (env : σ),
      Session.Acted ((Session.new cfg).run codec cb.logged io (env, [])) →
        ∃ hello, Session.Admissible codec cfg io hello) ∧
    -- The negotiation: the greatest version in both ranges, if there is one.
    (∀ hello, ((Session.negotiate hello).isSome = true ↔ ∃ v, Common hello v) ∧
      ∀ v, Session.negotiate hello = some v →
        Common hello v ∧ ∀ w, Common hello w → cmpVersion w v ≤ 0) ∧
    IsLinearOrder GoString (fun a b => cmpVersion a b ≤ 0) ∧
    (∀ a b, cmpVersion a b < 0 ↔ Earlier a b) ∧
    -- A rejected handshake changes neither store nor receivers.
    ∀ (now : Int) (newID : GoString) (s : Server) (ref : SessionRef),
      s.sessionAt ref = Session.new cfg → (∀ hello, ¬ Session.Admissible codec cfg io hello) →
        (s.runSession codec now newID io ref).1.store = s.store ∧
          ∀ b, ((s.runSession codec now newID io ref).1.broadcasters b).receivers =
            (s.broadcasters b).receivers := by
  refine ⟨fun σ cb env => Session.admissible_of_acted, fun hello => ⟨?_, fun v hv => ?_⟩,
    cmpVersion_isLinearOrder, fun a b => ?_, fun now newID s ref hnew hno => ?_⟩
  · exact negotiateVersion_isSome_iff _ _ _ _
  · obtain ⟨hc, hs, hmax⟩ := negotiateVersion_greatest hv
    exact ⟨⟨hc, hs⟩, fun w hw => hmax w hw.1 hw.2⟩
  · rw [cmpVersion_neg_iff, rank_lt_iff]
    rfl
  · obtain ⟨hstore, hbc⟩ := runSession_of_not_admissible now newID s ref (by rw [hnew]; exact hno)
    exact ⟨hstore, fun b => by rw [hbc]⟩

end QuicRTC

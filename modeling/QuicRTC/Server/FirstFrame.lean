import QuicRTC.Server.Concurrent

/-! # The First Frame of a Control Stream

The client takes an SDP or an ERROR as its first frame and nothing else (`client/client.go`). The
server gives it one as long as no `AddTrackSpec`, `RemoveTrack` or `Shutdown` copies the session set
while a registered session is still in its handshake: such a call writes to every session of its
copy.
-/

namespace QuicRTC

open Wire LTS Function List

inductive ClientError where
  | readSDP
  | serverRejected (msg : List UInt8)
  | expectedSDP (t : UInt8)
  | badSDP
  deriving DecidableEq

/-- It reads the reply. -/
def clientHandshake (codec : Codec) (received : List ControlFrame) : Except ClientError SDP :=
  match received with
  | [] => .error .readSDP
  | f :: _ =>
    if f.typ = typeError then .error (.serverRejected f.payload)
    else if f.typ ≠ typeSDP then .error (.expectedSDP f.typ)
    else
      match codec.unmarshalSDP f.payload with
      | none => .error .badSDP
      | some sdp => .ok sdp

theorem clientHandshake_of_sdp {codec : Codec} {sdp body} (h : codec.marshalSDP sdp = some body)
    (rest : List ControlFrame) :
    ∃ sdp', clientHandshake codec (⟨typeSDP, body⟩ :: rest) = .ok sdp' := by
  obtain ⟨sdp', hread⟩ := Option.isSome_iff_exists.mp (codec.sdp_readable sdp body h)
  refine ⟨sdp', ?_⟩
  have herr : typeSDP ≠ typeError := by decide
  simp only [clientHandshake, if_neg herr, ne_eq, not_true_eq_false, if_false, hread]

namespace Phase

def isAnswered : Phase → Bool
  | .answered => true
  | .running => true
  | .left ok => ok
  | .leaving ok _ => ok
  | .holding ok _ _ _ _ => ok
  | .releasing ok _ _ => ok
  | .parked ok => ok
  | .gone ok => ok
  | _ => false

def isRejected : Phase → Bool
  | .left ok => !ok
  | .leaving ok _ => !ok
  | .holding ok _ _ _ _ => !ok
  | .releasing ok _ _ => !ok
  | .parked ok => !ok
  | .gone ok => !ok
  | _ => false

/-- A HELLO was accepted, and the handshake has not failed. -/
def isAccepted : Phase → Bool
  | .accepted _ => true
  | .allocating _ => true
  | .subscribing _ => true
  | .attaching _ _ _ => true
  | .replying _ => true
  | p => p.isAnswered

end Phase

/-! ## The invariant of one session -/

structure Orderly (codec : Codec) (phase : Phase) (hello : Option Hello) (sess : Session) : Prop where
  silent : phase.isAnswered = false → phase.isRejected = false → sess.control = []
  admitted : phase.isAccepted = true → ∃ h, hello = some h ∧ Session.Accepts sess.cfg h.slug
  replied : phase.isAnswered = true → ∃ sdp body rest, codec.marshalSDP sdp = some body ∧
               sess.control = ⟨typeSDP, body⟩ :: rest
  errors : phase.isRejected = true → ∀ f ∈ sess.control, f.typ = typeError

theorem Orderly.extend {codec phase hello sess sess'} (h : Orderly codec phase hello sess)
    (hans : phase.isAnswered = true) (hext : sess.Extends sess') :
    Orderly codec phase hello sess' where
  silent := fun hno => absurd (hans.symm.trans hno) (by decide)
  admitted := fun hacc => hext.cfg.symm ▸ h.admitted hacc
  replied := by
    intro _
    obtain ⟨sdp, body, rest, hbody, hctl⟩ := h.replied hans
    obtain ⟨more, hmore⟩ := hext.control
    exact ⟨sdp, body, rest ++ more, hbody, by rw [← hmore, hctl]; rfl⟩
  errors := by
    intro hrej
    cases phase <;> simp_all [Phase.isAnswered, Phase.isRejected]

theorem Orderly.same {codec} {phase' : Phase} {phase hello} {sess' : Session} {sess}
    (h : Orderly codec phase hello sess) (hctl : sess'.control = sess.control)
    (hcfg : sess'.cfg = sess.cfg) (hans : phase'.isAnswered = phase.isAnswered)
    (hrej : phase'.isRejected = phase.isRejected)
    (hacc : phase'.isAccepted = true → phase.isAccepted = true) :
    Orderly codec phase' hello sess' where
  silent := fun h₁ h₂ => hctl.trans (h.silent (hans ▸ h₁) (hrej ▸ h₂))
  admitted := fun h₁ => hcfg.symm ▸ h.admitted (hacc h₁)
  replied := fun h₁ => hctl.symm ▸ h.replied (hans ▸ h₁)
  errors := fun h₁ => hctl.symm ▸ h.errors (hrej ▸ h₁)

theorem orderly_failed (codec : Codec) (hello : Option Hello) {sess : Session}
    (h : ∀ f ∈ sess.control, f.typ = typeError) : Orderly codec (.left false) hello sess where
  silent := nofun
  admitted := nofun
  replied := nofun
  errors := fun _ => h

theorem attachOne_frame (s : Server) (acquired : Session.Acquired) (sess : Session)
    (name : GoString) (r : ReceiverId) :
    (attachOne s acquired sess name r).control = sess.control ∧
      (attachOne s acquired sess name r).cfg = sess.cfg := by
  cases acquired with
  | resumed receivers | fresh receivers =>
    exact ⟨sess.attachTrackWithKind_control .., sess.attachTrackWithKind_cfg ..⟩

/-- No other session is concerned, and it fits what was written. -/
structure Moves (codec : Codec) (s : Server) (ref : SessionRef) (phase : Phase)
    (hello : Option Hello) (s' : Server) (phase' : Phase) : Prop where
  orderly : Orderly codec phase' (phase'.greeting <|> hello) (s'.sessionAt ref)
  others : ∀ ref', ref' ≠ ref → s'.sessionAt ref' = s.sessionAt ref'
  next : s'.nextSession = s.nextSession
  born : phase ≠ .idle
  answered : phase.isAnswered = true → phase'.isAnswered = true

section Moves

variable {codec : Codec} {s s' : Server} {ref : SessionRef} {phase phase' : Phase}
  {hello : Option Hello}

theorem moves_onSession {f : Session → Session} (hborn : phase ≠ .idle)
    (hans : phase.isAnswered = true → phase'.isAnswered = true)
    (ho : Orderly codec phase' (phase'.greeting <|> hello) (f (s.sessionAt ref))) :
    Moves codec s ref phase hello (s.onSession ref f) phase' where
  orderly := by rw [Server.onSession_self]; exact ho
  others := fun _ hne => Server.onSession_of_ne s hne f
  next := rfl
  born := hborn
  answered := hans

theorem Moves.before {s₀ : Server} (h : Moves codec s ref phase hello s' phase')
    (hsame : s₀.SameSessions s) : Moves codec s₀ ref phase hello s' phase' where
  orderly := h.orderly
  others := fun ref' hne => (h.others ref' hne).trans (congrFun hsame.sessionAt ref')
  next := h.next.trans hsame.nextSession
  born := h.born
  answered := h.answered

theorem moves_sameSessions (hsame : s.SameSessions s') (hborn : phase ≠ .idle)
    (hans : phase.isAnswered = true → phase'.isAnswered = true)
    (ho : Orderly codec phase' (phase'.greeting <|> hello) (s.sessionAt ref)) :
    Moves codec s ref phase hello s' phase' where
  orderly := by rw [hsame.sessionAt]; exact ho
  others := fun ref' _ => congrFun hsame.sessionAt ref'
  next := hsame.nextSession
  born := hborn
  answered := hans

section

variable (ho : Orderly codec phase hello (s.sessionAt ref))
include ho

theorem orderly_reject {err} (hp : phase = .refused err) (accepted : Bool) :
    Orderly codec (.left false) hello ((s.sessionAt ref).bestEffortError accepted err) := by
  have hnone := ho.silent (by rw [hp]; rfl) (by rw [hp]; rfl)
  refine orderly_failed codec hello (fun f hf => ?_)
  revert hf
  unfold Session.bestEffortError Session.write
  split
  · split
    · rw [hnone]; exact nofun
    · split
      · rw [hnone]; exact fun hf => by rw [mem_singleton.mp hf]
      · rw [hnone]; exact nofun
  · rw [hnone]; exact nofun

theorem moves_of_sessionStep {step} (h : sessionStep codec s ref phase step = some (s', phase')) :
    Moves codec s ref phase hello s' phase' := by
  have hborn := ne_idle_of_sessionStep h
  have hsame : s.SameSessions s := ⟨rfl, rfl, rfl⟩
  revert h
  -- the teardown writes nothing
  fun_cases sessionStep codec s ref phase step <;> intro h <;> cases h <;>
    try exact moves_sameSessions hsame hborn id (ho.same rfl rfl rfl rfl id)
  · next io sess hello' hrec =>
    obtain ⟨version, tenant, id, lastSeen, hframe⟩ :=
      Session.receiveHello_frame codec io (s.sessionAt ref)
    have hok := (Session.receiveHello_ok_iff codec io (s.sessionAt ref) hello').mp (by rw [hrec])
    simp only [hrec] at hframe
    refine moves_onSession hborn (by rintro ⟨⟩) ?_
    rw [hframe]
    exact ⟨fun _ _ => ho.silent rfl rfl, fun _ => ⟨hello', rfl, hok.2.credential⟩,
      (by rintro ⟨⟩), (by rintro ⟨⟩)⟩
  · next io sess err hrec =>
    obtain ⟨version, tenant, id, lastSeen, hframe⟩ :=
      Session.receiveHello_frame codec io (s.sessionAt ref)
    simp only [hrec] at hframe
    refine moves_onSession hborn (by rintro ⟨⟩) ?_
    exact ho.same (by rw [hframe]) (by rw [hframe]) rfl rfl (by rintro ⟨⟩)
  · exact moves_onSession hborn (by rintro ⟨⟩) (orderly_reject ho rfl _)
  · next now hello' sess receivers s₁ htry =>
    have hresume := s.sameSessions_tryResume (s.sessionAt ref) now [] hello'
    obtain ⟨id, leading, hframe⟩ := Session.tryResume_frame _ _ _ htry
    rw [htry] at hresume
    simp only at hframe
    refine Moves.before (moves_onSession hborn (by rintro ⟨⟩) ?_) hresume
    exact ho.same (by rw [hframe]) (by rw [hframe]) rfl rfl (fun _ => rfl)
  · next now hello' htry =>
    have hresume := s.sameSessions_tryResume (s.sessionAt ref) now [] hello'
    rw [htry] at hresume
    exact moves_sameSessions hresume hborn (by rintro ⟨⟩)
      (ho.same rfl rfl rfl rfl (fun _ => rfl))
  · next halloc =>
    cases halloc
    exact moves_onSession hborn (by rintro ⟨⟩)
      (ho.same rfl rfl rfl rfl (fun _ => rfl))
  · next hfresh =>
    have hsub := s.sameSessions_onFreshSession
    rw [show s.onFreshSession = (_, s') from hfresh] at hsub
    exact moves_sameSessions hsub hborn (by rintro ⟨⟩)
      (ho.same rfl rfl rfl rfl (fun _ => rfl))
  · next hello' acquired e todo =>
    obtain ⟨hctl, hcfg⟩ := attachOne_frame s acquired (s.sessionAt ref) e.1 e.2
    exact moves_onSession hborn (by rintro ⟨⟩)
      (ho.same hctl hcfg rfl rfl (fun _ => rfl))
  · exact moves_onSession hborn (by rintro ⟨⟩)
      (ho.same rfl rfl rfl rfl (fun _ => rfl))
  · next accepted sdp sess hok =>
    obtain ⟨body, hbody, heq⟩ := Session.writeSDP_ok codec (s.sessionAt ref) (by rw [hok])
    simp only [hok] at heq
    refine moves_onSession hborn (by rintro ⟨⟩) ?_
    rw [heq]
    exact ⟨(by rintro ⟨⟩), fun _ => ho.admitted rfl,
      fun _ => ⟨sdp, body, [], hbody, by rw [ho.silent rfl rfl]; rfl⟩, (by rintro ⟨⟩)⟩
  · next accepted sdp sess err herr =>
    have hfail := Session.writeSDP_error codec (s.sessionAt ref) (by rw [herr])
    rw [herr] at hfail
    refine moves_onSession hborn (by rintro ⟨⟩) (orderly_failed _ _ ?_)
    rw [show sess.control = [] from (congrArg Session.control hfail).trans (ho.silent rfl rfl)]
    simp
  · exact moves_onSession hborn (fun _ => rfl) (ho.same rfl rfl rfl rfl (fun _ => rfl))
  · exact moves_sameSessions ⟨rfl, rfl, rfl⟩ hborn id (ho.same rfl rfl rfl rfl id)
  · exact moves_sameSessions (s.sameSessions_unsubscribeAll _) hborn id
      (ho.same rfl rfl rfl rfl id)
  · exact moves_sameSessions (hsame.evict _ _) hborn id (ho.same rfl rfl rfl rfl id)
  · exact ⟨ho.same rfl rfl rfl rfl id, fun _ _ => rfl, rfl, hborn, id⟩

end

end Moves

/-! ## The turns of calls -/

/-- A turn writes to sessions of the call only. -/
structure Touches (s : Server) (refs : List SessionRef) (s' : Server) : Prop where
  extended : ∀ ref, (s.sessionAt ref).Extends (s'.sessionAt ref)
  others : ∀ ref, ref ∉ refs → s'.sessionAt ref = s.sessionAt ref
  next : s'.nextSession = s.nextSession

theorem touches_sameSessions {s s' : Server} (h : s.SameSessions s') (refs : List SessionRef) :
    Touches s refs s' where
  extended := fun ref => by rw [h.sessionAt]; exact Session.Extends.refl _
  others := fun ref _ => congrFun h.sessionAt ref
  next := h.nextSession

theorem touches_onSession (s : Server) {ref refs} (href : ref ∈ refs) {f : Session → Session}
    (hf : ∀ sess : Session, sess.Extends (f sess)) :
    Touches s refs (s.onSession ref f) where
  extended := by
    intro ref'
    by_cases h : ref' = ref
    · rw [h, Server.onSession_self]
      exact hf _
    · rw [Server.onSession_of_ne s h]
      exact Session.Extends.refl _
  others := by
    intro ref' hno
    have hne : ref' ≠ ref := fun h => hno (h.symm ▸ href)
    exact Server.onSession_of_ne s hne f
  next := rfl

/-- Those it had; for `Shutdown` those registered now. -/
def Call.Keeps (s : Server) (c : Call) (rest : Option Call) : Prop :=
  ∀ c' ∈ rest, ∀ ref ∈ c'.refs, ref ∈ c.refs ∨ c = .draining ∧ ref ∈ s.sessions

theorem Call.keeps_none (s : Server) (c : Call) : c.Keeps s none := nofun

theorem Call.keeps_some {s} {c c' : Call} (h : ∀ ref ∈ c'.refs, ref ∈ c.refs) :
    c.Keeps s (some c') := by
  intro c'' hc'' ref href
  cases hc''
  exact .inl (h ref href)

theorem touches_turn (codec : Codec) (accepted : Bool) (s : Server) (c : Call) :
    Touches s c.refs (c.turn codec accepted s).1 ∧ c.Keeps s (c.turn codec accepted s).2 := by
  have hsame : ∀ refs, Touches s refs s := touches_sameSessions ⟨rfl, rfl, rfl⟩
  -- calls that end first, then those that go on, in the order of the source
  fun_cases c.turn codec accepted s <;> try exact ⟨hsame _, Call.keeps_none s _⟩
  · refine ⟨touches_sameSessions ?_ _, Call.keeps_some (fun _ h => h)⟩
    exact ⟨rfl, rfl, rfl⟩
  · exact ⟨touches_onSession s mem_cons_self (fun sess => sess.extends_attach _ _ _ _ _),
      Call.keeps_some (fun _ h => h)⟩
  · exact ⟨touches_onSession s mem_cons_self (fun sess => sess.extends_sendAnnounce codec accepted _ _ []),
      Call.keeps_some (fun _ h => mem_cons_of_mem _ h)⟩
  · refine ⟨touches_sameSessions ?_ _, Call.keeps_none s _⟩
    exact ⟨rfl, rfl, rfl⟩
  · exact ⟨touches_onSession s mem_cons_self (fun sess => sess.extends_detach _),
      Call.keeps_some (fun _ h => h)⟩
  · exact ⟨touches_onSession s mem_cons_self (fun sess => sess.extends_sendUnannounce codec accepted _),
      Call.keeps_some (fun _ h => mem_cons_of_mem _ h)⟩
  · refine ⟨hsame _, fun c' hc' ref href => ?_⟩
    cases hc'
    exact .inr ⟨rfl, href⟩
  · exact ⟨touches_onSession s mem_cons_self (fun sess => sess.extends_write accepted typeClose _),
      Call.keeps_some (fun _ h => mem_cons_of_mem _ h)⟩
  · exact ⟨hsame _, Call.keeps_some (fun _ h => h)⟩
  · exact ⟨touches_onSession s (mem_singleton_self _)
      (fun sess => sess.extends_sendAnnounce codec accepted _ _ []), Call.keeps_some (fun _ h => h)⟩

/-! ## Runs -/

namespace Concurrent

/-- Every registered session has its SDP. -/
def settled (s : Concurrent) : Bool :=
  s.server.sessions.all (fun ref => (s.phase ref).isAnswered)

/-- No call copies the session set during a handshake. -/
def copiesSettled (s : Concurrent) : Event → Bool
  | .addTrackSpec _ => s.settled
  | .removeTrack _ => s.settled
  | .turn i _ =>
    match s.calls[i]? with
    | some .draining => s.settled
    | _ => true
  | _ => true

/-- Calls write only to sessions that have their SDP. -/
structure Inv (codec : Codec) (s : Concurrent) : Prop where
  orderly : ∀ ref, Orderly codec (s.phase ref) (s.hello ref) (s.server.sessionAt ref)
  targets : ∀ c ∈ s.calls, ∀ ref ∈ c.refs, (s.phase ref).isAnswered = true
  unborn : ∀ ref, s.server.nextSession ≤ ref → s.phase ref = .idle

section Inv

variable {codec : Codec} {s : Concurrent}

theorem settled_iff : s.settled = true ↔
    ∀ ref ∈ s.server.sessions, (s.phase ref).isAnswered = true := all_eq_true

variable {server : Server}

theorem Inv.sameSessions (h : Inv codec s) (hsame : s.server.SameSessions server) {calls}
    (hcalls : ∀ c ∈ calls, ∀ ref ∈ c.refs, (s.phase ref).isAnswered = true) :
    Inv codec { s with server := server, calls := s.calls ++ calls } where
  orderly := fun ref => by rw [hsame.sessionAt]; exact h.orderly ref
  targets := by
    intro c hc
    rcases mem_append.mp hc with hc | hc
    · exact h.targets c hc
    · exact hcalls c hc
  unborn := fun ref hle => h.unborn ref (hsame.nextSession ▸ hle)

theorem Inv.connect (h : Inv codec s) :
    Inv codec { s with
      server := s.server.addSession
      phase := update s.phase s.server.nextSession .waiting } := by
  have hidle := h.unborn s.server.nextSession le_rfl
  refine ⟨fun ref => ?_, fun c hc ref href => ?_, fun ref hle => ?_⟩
  · by_cases hnew : ref = s.server.nextSession
    · subst hnew
      show Orderly codec (update s.phase _ _ _) _ (update s.server.sessionAt _ _ _)
      rw [update_self, update_self]
      exact ⟨fun _ _ => rfl, nofun, nofun, nofun⟩
    · show Orderly codec (update s.phase _ _ ref) _ (update s.server.sessionAt _ _ ref)
      rw [update_of_ne hnew, update_of_ne hnew]
      exact h.orderly ref
  · have hans := h.targets c hc ref href
    have hne : ref ≠ s.server.nextSession := by
      intro heq
      rw [heq, hidle] at hans
      cases hans
    show (update s.phase _ _ ref).isAnswered = true
    rw [update_of_ne hne]
    exact hans
  · show update s.phase _ _ ref = _
    have hne : ref ≠ s.server.nextSession := Nat.ne_of_gt hle
    rw [update_of_ne hne]
    exact h.unborn ref (Nat.le_of_succ_le hle)

theorem Inv.session (h : Inv codec s) {ref phase}
    (hm : Moves codec s.server ref (s.phase ref) (s.hello ref) server phase) :
    Inv codec
      { server := server
        phase := update s.phase ref phase
        hello := update s.hello ref (phase.greeting <|> s.hello ref)
        calls := s.calls ++ phase.spawn ref } := by
  refine ⟨fun ref' => ?_, fun c hc ref' href' => ?_, fun ref' hle => ?_⟩
  · by_cases heq : ref' = ref
    · subst heq
      simp only [update_self]
      exact hm.orderly
    · simp only [update_of_ne heq, hm.others ref' heq]
      exact h.orderly ref'
  · by_cases heq : ref' = ref
    · subst heq
      simp only [update_self]
      rcases mem_append.mp hc with hc | hc
      · exact hm.answered (h.targets c hc ref' href')
      · -- The only phase that starts a goroutine is `answered`.
        cases phase with
        | answered => rfl
        | _ => cases hc
    · simp only [update_of_ne heq]
      rcases mem_append.mp hc with hc | hc
      · exact h.targets c hc ref' href'
      · cases phase with
        | answered =>
          obtain rfl := mem_singleton.mp hc
          exact absurd (mem_singleton.mp href') heq
        | _ => cases hc
  · have hidle := h.unborn ref' (hm.next ▸ hle)
    have hne : ref' ≠ ref := fun heq => hm.born (heq ▸ hidle)
    simp only [update_of_ne hne]
    exact hidle

theorem Inv.turn (h : Inv codec s) {c} (hc : c ∈ s.calls) (ht : Touches s.server c.refs server)
    {calls} (hcalls : ∀ c' ∈ calls, ∀ ref ∈ c'.refs, (s.phase ref).isAnswered = true) :
    Inv codec { s with server := server, calls := calls } where
  orderly := by
    intro ref
    by_cases href : ref ∈ c.refs
    · exact (h.orderly ref).extend (h.targets c hc ref href) (ht.extended ref)
    · rw [ht.others ref href]
      exact h.orderly ref
  targets := hcalls
  unborn := fun ref hle => h.unborn ref (ht.next ▸ hle)

theorem Inv.step (h : Inv codec s) {ev s'} (hok : s.copiesSettled ev = true)
    (hstep : s.next codec ev = some s') : Inv codec s' := by
  cases ev with
  | connect =>
    cases hstep
    exact h.connect
  | session ref step =>
    simp only [next] at hstep
    split at hstep
    · cases hstep
    · next server phase hs =>
      cases hstep
      exact h.session (moves_of_sessionStep (h.orderly ref) hs)
  | addTrackSpec spec =>
    have hsettled := settled_iff.mp hok
    have hsame := s.server.sameSessions_registerTrack spec.name (Server.specKind spec)
      (Server.specPriority spec) spec.trackID
    simp only [next] at hstep
    cases hl : s.server.tracks.lookup spec.name with
    | some t =>
      rw [Server.registerTrack_of_some hl] at hstep
      cases hstep
      exact h
    | none =>
      obtain ⟨bc, recorders, -, hreg⟩ := Server.registerTrack_of_none hl (Server.specKind spec)
        (Server.specPriority spec) spec.trackID
      rw [hreg] at hstep hsame
      cases hstep
      refine h.sameSessions hsame (fun c hc => ?_)
      rw [mem_singleton.mp hc]
      exact hsettled
  | removeTrack name =>
    have hsettled := settled_iff.mp hok
    simp only [next, Server.unregisterTrack] at hstep
    cases hl : s.server.tracks.lookup name with
    | none =>
      simp only [hl] at hstep
      cases hstep
      exact h
    | some t =>
      have hsame : s.server.SameSessions { s.server with tracks := s.server.tracks.erase name } :=
        ⟨rfl, rfl, rfl⟩
      simp only [hl] at hstep
      cases hstep
      refine h.sameSessions hsame (fun c hc => ?_)
      rw [mem_singleton.mp hc]
      exact hsettled
  | shutdown =>
    have hsame : s.server.SameSessions { s.server with draining := true } := ⟨rfl, rfl, rfl⟩
    cases hstep
    refine h.sameSessions hsame (fun c hc => ?_)
    rw [mem_singleton.mp hc]
    exact nofun
  | turn i accepted =>
    simp only [next] at hstep
    cases hget : s.calls[i]? with
    | none =>
      rw [hget] at hstep
      cases hstep
    | some c =>
      rw [hget] at hstep
      have hc : c ∈ s.calls := mem_of_getElem? hget
      obtain ⟨htouch, hkeep⟩ := touches_turn codec accepted s.server c
      -- What is left of the call: its own sessions, or a settled copy.
      have hrest : ∀ c' ∈ (c.turn codec accepted s.server).2, ∀ ref ∈ c'.refs,
          (s.phase ref).isAnswered = true := by
        intro c' hc' ref href
        rcases hkeep c' hc' ref href with hold | ⟨rfl, hreg⟩
        · exact h.targets c hc ref hold
        · simp only [copiesSettled, hget] at hok
          exact settled_iff.mp hok ref hreg
      simp only at hstep
      split at hstep
      · next server heq =>
        cases hstep
        rw [heq] at htouch
        exact h.turn hc htouch (fun c' hc' => h.targets c' (mem_of_mem_eraseIdx hc'))
      · next server c' heq =>
        cases hstep
        rw [heq] at htouch hrest
        refine h.turn hc htouch (fun c'' hc'' => ?_)
        rcases mem_or_eq_of_mem_set hc'' with hold | rfl
        · exact h.targets c'' hold
        · exact hrest _ rfl
  | evictExpired now =>
    have hsame : s.server.SameSessions s.server := ⟨rfl, rfl, rfl⟩
    have hevict : s.server.SameSessions (s.server.evictExpired now) := hsame.evict _ _
    cases hstep
    exact ⟨fun ref => by rw [hevict.sessionAt]; exact h.orderly ref, h.targets,
      fun ref hle => h.unborn ref (hevict.nextSession ▸ hle)⟩
  | publish b au =>
    cases hstep
    exact ⟨fun ref => h.orderly ref, h.targets, h.unborn⟩

end Inv

theorem inv_of_reachable {codec cfg resumeWindow} :
    ∀ s, Reachable ((concurrentSystem codec cfg resumeWindow).restrict
      (fun s ev => s.copiesSettled ev = true)) s → Inv codec s := by
  refine invariant_restrict _ ?_ (fun _ _ _ _ h => h.step)
  refine ⟨fun ref => ?_, nofun, fun _ _ => rfl⟩
  exact ⟨fun _ _ => rfl, nofun, nofun, nofun⟩

structure ReplyFirst (codec : Codec) (s : Concurrent) (ref : SessionRef) : Prop where
  pending : (s.phase ref).isAnswered = false → (s.phase ref).isRejected = false →
               (s.server.sessionAt ref).control = []
  /-- An accepted client sees the SDP first, and its handshake succeeds. -/
  accepted : (s.phase ref).isAnswered = true →
               ((s.server.sessionAt ref).control.head?.map ControlFrame.typ = some typeSDP) ∧
               ∃ sdp, clientHandshake codec (s.server.sessionAt ref).control = .ok sdp
  /-- A rejected one sees an ERROR first. -/
  rejected : (s.phase ref).isRejected = true →
               ∀ f, (s.server.sessionAt ref).control.head? = some f → f.typ = typeError
  /-- Track names go to clients with an accepted credential. -/
  names : ∀ f ∈ (s.server.sessionAt ref).control, f.typ = typeAnnounce ∨ f.typ = typeUnannounce →
               ∃ hello, s.hello ref = some hello ∧
                 Session.Accepts (s.server.sessionAt ref).cfg hello.slug

/-- **First frame.** If calls copy the session set only when no registered session is in its
    handshake, the reply of every handshake comes first. -/
theorem reply_first {codec : Codec} {cfg : ServerConfig} {resumeWindow : Int} {s : Concurrent}
    (h : Reachable ((concurrentSystem codec cfg resumeWindow).restrict
      (fun s ev => s.copiesSettled ev = true)) s) (ref : SessionRef) : ReplyFirst codec s ref := by
  have ho := (inv_of_reachable s h).orderly ref
  refine ⟨ho.silent, fun hans => ?_, fun hrej f hf => ?_, fun f hf htyp => ?_⟩
  · obtain ⟨sdp, body, rest, hbody, hctl⟩ := ho.replied hans
    rw [hctl]
    exact ⟨rfl, clientHandshake_of_sdp hbody rest⟩
  · exact ho.errors hrej f (mem_of_head? hf)
  · cases hans : (s.phase ref).isAnswered with
    | true =>
      apply ho.admitted
      cases hp : s.phase ref <;> simp_all [Phase.isAccepted, Phase.isAnswered]
    | false =>
      cases hrej : (s.phase ref).isRejected with
      | false =>
        rw [ho.silent hans hrej] at hf
        cases hf
      | true =>
        rw [ho.errors hrej f hf] at htyp
        exact absurd htyp (by decide)

/-- Once the client has its SDP, a track is announced. -/
def settledRun : List Event :=
  [.connect, .session 0 (.hello (plainClient [])), .session 0 (.resume 0),
    .session 0 (.allocate (str "s")), .session 0 .subscribe, .session 0 .attach,
    .session 0 .offer, .session 0 (.reply true),
    .addTrackSpec ⟨str "audio", .audio, 0, 0⟩, .turn 1 true, .turn 1 true, .turn 1 true]

theorem reply_first_settledRun :
    ∃ s, Reachable ((concurrentSystem plainCodec plainConfig 0).restrict
        (fun s ev => s.copiesSettled ev = true)) s ∧
      (s.server.sessionAt 0).control.map ControlFrame.typ = [typeSDP, typeAnnounce] ∧
      ReplyFirst plainCodec s 0 :=
  exists_run_given_imp settledRun (fun s hs (hctl : (s.server.sessionAt 0).control.map
    ControlFrame.typ = [typeSDP, typeAnnounce]) => ⟨hctl, reply_first hs 0⟩) (by decide)

/-- The track is added before the HELLO arrives. -/
def racingRun : List Event :=
  [.connect, .addTrackSpec ⟨str "audio", .audio, 0, 0⟩, .turn 0 true, .turn 0 true, .turn 0 true,
    .session 0 (.hello (plainClient [])), .session 0 (.resume 0), .session 0 (.allocate (str "s")),
    .session 0 .subscribe, .session 0 .attach, .session 0 .attach, .session 0 .offer,
    .session 0 (.reply true)]

/-- ANNOUNCE is the first frame, so the client's handshake fails; the name was sent before
    any HELLO. -/
theorem announce_first :
    (∃ s, Reachable (concurrentSystem plainCodec plainConfig 0) s ∧
      (s.phase 0).isAnswered = true ∧
      clientHandshake plainCodec (s.server.sessionAt 0).control = .error (.expectedSDP typeAnnounce) ∧
      ¬ ReplyFirst plainCodec s 0) ∧
    ∃ s, Reachable (concurrentSystem plainCodec plainConfig 0) s ∧ s.hello 0 = none ∧
      (s.server.sessionAt 0).control = [⟨typeAnnounce, str "audio"⟩] ∧ ¬ ReplyFirst plainCodec s 0 := by
  constructor
  · refine exists_run_imp racingRun (fun s hs (hp : (s.phase 0).isAnswered = true ∧
      clientHandshake plainCodec (s.server.sessionAt 0).control =
        .error (.expectedSDP typeAnnounce)) => ⟨hp.1, hp.2, fun h => ?_⟩) (by decide)
    obtain ⟨-, sdp, hok⟩ := h.accepted hp.1
    exact absurd (hok.symm.trans hp.2) (by simp)
  · refine exists_run_imp (racingRun.take 5) (fun s hs (hp : s.hello 0 = none ∧
      (s.server.sessionAt 0).control = [⟨typeAnnounce, str "audio"⟩]) => ⟨hp.1, hp.2, fun h => ?_⟩)
      (by decide)
    obtain ⟨hello, hsome, -⟩ := h.names ⟨typeAnnounce, str "audio"⟩
      (by rw [hp.2]; exact mem_singleton_self _) (.inl rfl)
    exact absurd (hp.1.symm.trans hsome) (by simp)

end Concurrent

end QuicRTC

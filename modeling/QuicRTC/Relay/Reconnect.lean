import QuicRTC.Relay.Bridge

/-! # Order across Reconnects

What the relay publishes on a stream-delivered track has increasing Seqs if a session starts only
when the pumps of the ones before it have returned, its cursor covers what they have published, the
server resumes above that cursor, and the drains of a session take turns. The code waits for none of
this.
-/

namespace QuicRTC

open Wire Client LTS List Option Slots

/-! ## Pumps that are done with a track -/

namespace Relay

variable {t : GoString} {r : Relay}

def Silent (t : GoString) (r : Relay) : Prop := ∀ p ∈ r.pumps, ¬ p.Serves t

instance (t : GoString) (r : Relay) : Decidable (r.Silent t) :=
  inferInstanceAs (Decidable (∀ p ∈ r.pumps, _))

theorem Silent.setPump (h : r.Silent t) {i track phase phase'}
    (hget : r.pumps[i]? = some ⟨track, phase⟩) (hphase : phase ≠ .stopped) :
    (r.setPump i ⟨track, phase'⟩).Silent t := by
  refine forall_mem_set h (fun hserves => ?_)
  exact h _ (mem_of_getElem? hget) ⟨hserves.1, hphase⟩

theorem published_startPump (r : Relay) (name : GoString) (claimed : Bool) :
    (r.startPump name claimed).published = r.published := by
  unfold startPump
  split
  · rfl
  · split
    · rfl
    · split <;> rfl

inductive Publishes (t : GoString) (r : Relay) : Action → Relay → Prop where
  | nothing {a r'} (same : r'.published = r.published) : Publishes t r a r'
  | other {p n au} {track : GoString} (ne : track ≠ t) (get : r.pumps[p]? = some ⟨track, .receiving n⟩) :
      Publishes t r (.publish p) (r.publish p track au)
  | own {p n au} (get : r.pumps[p]? = some ⟨t, .receiving n⟩) (returned : r.outcome n = some (au, none)) :
      Publishes t r (.publish p) (r.publish p t au)

theorem publishes_of_effect {a r'} (h : Effect r a r') : Publishes t r a r' := by
  cases h with
  | poll => exact .nothing (published_startPump ..)
  | @publish p track call au hget hout =>
    by_cases htrack : track = t
    · subst htrack
      exact .own hget hout
    · exact .other htrack hget
  | _ => exact .nothing rfl

theorem Silent.step (h : r.Silent t) {a r'} (ha : ∀ name claimed, a ≠ .poll name claimed)
    (hstep : Effect r a r') : r'.Silent t := by
  cases hstep with
  | client => exact h
  | @poll name claimed => exact absurd rfl (ha name claimed)
  | receive hget | publish hget | stop hget => exact h.setPump hget PumpPhase.noConfusion

end Relay

namespace Upstream

variable {u : Upstream} {t : GoString} {i : Nat} {r r' : Relay} {a : Relay.Action}

theorem out_advance (u : Upstream) (t : GoString) (i : Nat) (r : Relay) (a : Relay.Action) (r' : Relay) :
    (u.advance i r a r').out t = u.out t ++
      ((r'.published.drop r.published.length).filter (fun x => decide (x.1 = t))).map (fun x => x.2.seq) := by
  unfold out advance
  rw [filter_append, map_append]

theorem out_of_same (h : r'.published = r.published) : (u.advance i r a r').out t = u.out t := by
  rw [out_advance, h, drop_length]
  exact append_nil _

theorem out_publish_other {p track} (au : AccessUnit) (h : track ≠ t) :
    (u.advance i r a (r.publish p track au)).out t = u.out t := by
  rw [out_advance]
  simp [Relay.publish, h]

theorem out_publish_own {p} (au : AccessUnit) :
    (u.advance i r a (r.publish p t au)).out t = u.out t ++ [au.seq] := by
  rw [out_advance]
  simp [Relay.publish, Relay.forwarded]

theorem out_of_silent (h : r.Silent t) (hstep : Relay.Effect r a r') :
    (u.advance i r a r').out t = u.out t := by
  cases Relay.publishes_of_effect (t := t) hstep with
  | nothing hsame => exact out_of_same hsame
  | other hne => exact out_publish_other _ hne
  | own hget => exact absurd ⟨rfl, PumpPhase.noConfusion⟩ (h _ (mem_of_getElem? hget))

end Upstream

/-! ## The condition -/

namespace Bridge

/-- The unit still on its way to the receiver is not replayed. -/
def splicesOnce (s : ResumeState) : ResumeLabel → Bool
  | .splice q => undelivered q s (.splice q)
  | _ => true

theorem undelivered_of_splicesOnce {s l} (h : splicesOnce s l = true) (r : ReceiverId) :
    undelivered r s l = true := by
  cases l with
  | splice q =>
    simp only [splicesOnce, undelivered] at h ⊢
    split at h
    · simp only [ne_eq, not_true, false_or, decide_eq_true_eq] at h
      simp [h]
    · rfl
  | _ => rfl

def allSilent (cfg : StreamConfig) (s : Bridge) : Bool :=
  s.upstream.sessions.all (fun r => decide (r.Silent cfg.track))

/-- The cursor of the next HELLO covers what was published. -/
def covered (cfg : StreamConfig) (s : Bridge) : Bool :=
  (s.upstream.out cfg.track).all
    (fun y => (s.upstream.nextCursor cfg.track).any (fun m => decide (y ≤ m)))

def orderly (cfg : StreamConfig) (s : Bridge) : Label → Bool
  | .server l => splicesOnce s.server l && s.server.resumesAbove l
  | .dial _ => s.allSilent cfg && s.covered cfg
  | .link i l =>
    match s.links[i]?, s.upstream.sessions[i]? with
    | some x, some r => Connection.takesTurns cfg ⟨x, r.client⟩ l
    | _, _ => true
  | _ => true

/-! ## The invariant -/

structure Dialling (cfg : StreamConfig) (s : Bridge) (q : ReceiverId) : Prop where
  phase : s.upstream.phase = .handshaking
  spare : q ∉ s.receivers
  unread : s.server.yielded q = []
  covered : ∀ y ∈ s.upstream.out cfg.track, ∃ m, s.upstream.cursorSent cfg.track = some m ∧ y ≤ m

def CarriesOn (cfg : StreamConfig) (server : ResumeState) (out : List UInt32) (x : Link) (r : Relay)
    (q : ReceiverId) : Prop :=
  ∃ floor, server.phase q = .live floor ∧ Carries cfg floor (server.yielded q) x r out

/-- Only the last session serves the track. -/
structure Bridged (cfg : StreamConfig) (s : Bridge) : Prop where
  once : ∀ q, OnceInv q s.server
  resumed : ∀ q, ResumedAbove q s.server
  links : s.links.length = s.upstream.sessions.length
  receivers : s.receivers.length = s.upstream.sessions.length
  distinct : s.receivers.Nodup
  ordered : (s.upstream.out cfg.track).Pairwise (· < ·)
  dialling : ∀ q, s.pending = some q → s.Dialling cfg q
  silent : ∀ (i : Nat) (r : Relay), s.upstream.sessions[i]? = some r →
                i + 1 < s.upstream.sessions.length ∨ s.pending ≠ none → r.Silent cfg.track
  carries : ∀ (i : Nat) (x : Link) (r : Relay) (q : ReceiverId), i + 1 = s.upstream.sessions.length →
                s.links[i]? = some x → s.upstream.sessions[i]? = some r → s.receivers[i]? = some q →
                CarriesOn cfg s.server (s.upstream.out cfg.track) x r q

namespace Bridged

variable {cfg : StreamConfig} {s : Bridge}

theorem slots (h : Bridged cfg s) {i} (hi : i < s.upstream.sessions.length) :
    ∃ x r q, s.links[i]? = some x ∧ s.upstream.sessions[i]? = some r ∧ s.receivers[i]? = some q :=
  ⟨_, _, _, getElem?_eq_getElem (h.links ▸ hi), getElem?_eq_getElem hi,
    getElem?_eq_getElem (h.receivers ▸ hi)⟩

theorem upstream (h : Bridged cfg s) {u : Upstream} {pending}
    (hsessions : u.sessions = s.upstream.sessions) (hpublished : u.published = s.upstream.published)
    (hdialling : ∀ q, pending = some q → Dialling cfg { s with upstream := u, pending := pending } q)
    (hsilent : pending ≠ none → ∀ r ∈ s.upstream.sessions, r.Silent cfg.track) :
    Bridged cfg { s with upstream := u, pending := pending } := by
  have hout : u.out cfg.track = s.upstream.out cfg.track := by
    unfold Upstream.out
    rw [hpublished]
  refine ⟨h.once, h.resumed, ?_, ?_, h.distinct, ?_, hdialling, ?_, ?_⟩
  · exact hsessions ▸ h.links
  · exact hsessions ▸ h.receivers
  · exact hout ▸ h.ordered
  · intro i r hr hi
    simp only [hsessions] at hr hi
    rcases hi with hi | hi
    · exact h.silent i r hr (.inl hi)
    · exact hsilent hi r (mem_of_getElem? hr)
  · intro i x r q hi hx hr hq
    simp only [hsessions] at hr hi
    simp only [hout]
    exact h.carries i x r q hi hx hr hq

/-- The other receivers are left alone. -/
structure Spares (s : ResumeState) (q : ReceiverId) (server : ResumeState) : Prop where
  once : ∀ p, OnceInv p server
  resumed : ∀ p, ResumedAbove p server
  others : ∀ p, p ≠ q → server.phase p = s.phase p ∧ server.yielded p = s.yielded p

theorem session (h : Bridged cfg s) {i x x' r r' q server} {u : Upstream}
    (hx : s.links[i]? = some x) (hr : s.upstream.sessions[i]? = some r)
    (hq : s.receivers[i]? = some q) (hserver : Spares s.server q server)
    (hsessions : u.sessions = s.upstream.sessions.set i r') (hphase : u.phase = s.upstream.phase)
    (hhellos : u.hellos = s.upstream.hellos)
    (hsilent : i + 1 ≠ s.upstream.sessions.length ∨ s.pending ≠ none → r.Silent cfg.track →
      r'.Silent cfg.track ∧ u.out cfg.track = s.upstream.out cfg.track)
    (hcarries : CarriesOn cfg s.server (s.upstream.out cfg.track) x r q →
      (u.out cfg.track).Pairwise (· < ·) ∧ CarriesOn cfg server (u.out cfg.track) x' r' q) :
    Bridged cfg ⟨server, u, s.links.set i x', s.receivers, s.pending⟩ := by
  have hlt := lt_of_getElem? hr
  have hlen : u.sessions.length = s.upstream.sessions.length := by rw [hsessions, length_set]
  -- a session that is not the last is done with the track
  have hdone : i + 1 ≠ s.upstream.sessions.length ∨ s.pending ≠ none →
      r'.Silent cfg.track ∧ u.out cfg.track = s.upstream.out cfg.track := by
    intro hi
    apply hsilent hi
    apply h.silent i r hr
    exact hi.imp (fun hne => by omega) id
  have hlast (hi : i + 1 = s.upstream.sessions.length) := hcarries (h.carries i x r q hi hx hr hq)
  refine ⟨hserver.once, hserver.resumed, ?_, hlen ▸ h.receivers, h.distinct, ?_, ?_, ?_, ?_⟩
  · rw [length_set, hlen]
    exact h.links
  · by_cases hi : i + 1 = s.upstream.sessions.length
    · exact (hlast hi).1
    · rw [(hdone (.inl hi)).2]
      exact h.ordered
  · intro p hp
    have hold := h.dialling p hp
    have hne : p ≠ q := by
      rintro rfl
      exact hold.spare (mem_of_getElem? hq)
    refine ⟨hphase.trans hold.phase, hold.spare, (hserver.others p hne).2.trans hold.unread, ?_⟩
    have hp' : s.pending ≠ none := by
      intro hnone
      cases hnone.symm.trans hp
    unfold Upstream.cursorSent
    simp only [(hdone (.inr hp')).2, hhellos]
    exact hold.covered
  · intro j r₁ hr₁ hj
    simp only [hlen] at hj
    simp only [hsessions] at hr₁
    rcases getElem?_set_cases hr₁ with ⟨rfl, rfl⟩ | ⟨-, hr₁⟩
    · exact (hdone (hj.imp_left (fun hlt => by omega))).1
    · exact h.silent j r₁ hr₁ hj
  · intro j x₁ r₁ q₁ hj hx₁ hr₁ hq₁
    simp only [hlen] at hj
    simp only [hsessions] at hr₁
    rcases getElem?_set_cases hr₁ with ⟨rfl, rfl⟩ | ⟨hne, hr₁⟩
    · rcases getElem?_set_cases hx₁ with ⟨-, rfl⟩ | ⟨hne, -⟩
      · obtain rfl := mem_unique hq hq₁
        exact (hlast hj).2
      · exact absurd rfl hne
    · -- the last session is another one
      rcases getElem?_set_cases hx₁ with ⟨heq, -⟩ | ⟨-, hx₁⟩
      · exact absurd heq hne
      · obtain ⟨floor, hlive, hcarried⟩ := h.carries j x₁ r₁ q₁ hj hx₁ hr₁ hq₁
        have hneq : q₁ ≠ q := by
          rintro rfl
          have hjlt := lt_of_getElem? hq₁
          exact hne ((getElem?_inj hjlt h.distinct).mp (hq₁.trans hq.symm))
        obtain ⟨hph, hy⟩ := hserver.others q₁ hneq
        refine ⟨floor, hph.trans hlive, ?_⟩
        simp only [hy, (hdone (.inl (by omega))).2]
        exact hcarried

variable {i : Nat} {x x' : Link} {r : Relay} {q : ReceiverId}

theorem spares_refl (h : Bridged cfg s) (q : ReceiverId) : Spares s.server q s.server :=
  { h with others := fun _ _ => ⟨rfl, rfl⟩ }

/-! ## Every step in order -/

theorem server (h : Bridged cfg s) {l server} (hspares : s.spares l = true)
    (hok : orderly cfg s (.server l) = true) (hstep : s.server.step increasing l = some server) :
    Bridged cfg { s with server := server } := by
  obtain ⟨honce, habove⟩ := Bool.and_eq_true_iff.mp hok
  have hyielded : ∀ p, p ∈ s.receivers ∨ s.pending = some p → server.yielded p = s.server.yielded p := by
    intro p hp
    apply ResumeState.yielded_of_step hstep
    rintro rfl
    obtain ⟨hread, hpending⟩ := Bool.and_eq_true_iff.mp hspares
    rcases hp with hp | hp
    · exact of_decide_eq_true hread hp
    · exact of_decide_eq_true hpending hp
  refine { h with once := fun p => ?_, resumed := fun p => ?_, dialling := fun p hp => ?_, carries := fun i x r q hi hx hr hq => ?_ }
  · exact (h.once p).step (undelivered_of_splicesOnce honce p) hstep
  · exact (h.resumed p).step (h.once p) habove hstep
  · have hold := h.dialling p hp
    exact { hold with unread := (hyielded p (.inr hp)).trans hold.unread }
  · obtain ⟨floor, hlive, hcarried⟩ := h.carries i x r q hi hx hr hq
    refine ⟨floor, ResumeState.live_of_step hstep hlive, ?_⟩
    rw [hyielded q (.inl (mem_of_getElem? hq))]
    exact hcarried

theorem dial (h : Bridged cfg s) (hok : orderly cfg s (.dial q) = true)
    (hparked : s.server.phase q = .parked) (hspare : q ∉ s.receivers) :
    Bridged cfg { s with upstream := s.upstream.dial, pending := some q } := by
  obtain ⟨hsilent, hcovered⟩ := Bool.and_eq_true_iff.mp hok
  refine h.upstream rfl rfl (fun p hp => ?_) (fun _ r hr => ?_)
  · cases hp
    refine ⟨rfl, hspare, (h.once q).unread (fun c hc => ?_), fun y hy => ?_⟩
    · cases hparked.symm.trans hc
    · have hy' := all_eq_true.mp hcovered y hy
      simp only [Option.any_eq_true, decide_eq_true_eq] at hy'
      simpa only [Upstream.cursorSent_dial] using hy'
  · exact of_decide_eq_true (all_eq_true.mp hsilent r hr)

theorem dialed (h : Bridged cfg s) (hloop : cfg.1.loop ≠ .bidiPerCall) (sessionID : GoString)
    (claimed : Bool) (hpending : s.pending = some q)
    (hlive : s.server.phase q = .live (s.upstream.cursorSent cfg.track)) :
    Bridged cfg (s.dialed cfg sessionID claimed q) := by
  have hold := h.dialling q hpending
  have hsome : s.pending ≠ none := by
    rw [hpending]
    exact some_ne_none q
  have hsessions : (s.dialed cfg sessionID claimed q).upstream.sessions =
      s.upstream.sessions ++ [Relay.start s.upstream.cfg.maxTracksPerUpstream claimed] := rfl
  have hlen : (s.dialed cfg sessionID claimed q).upstream.sessions.length =
      s.upstream.sessions.length + 1 := by rw [hsessions, length_append, length_singleton]
  refine ⟨h.once, h.resumed, ?_, ?_, ?_, h.ordered, nofun, ?_, ?_⟩
  · rw [hlen, ← h.links]
    exact length_append
  · rw [hlen, ← h.receivers]
    exact length_append
  · exact pairwise_snoc h.distinct (fun a ha hab => hold.spare (hab ▸ ha))
  · intro i r hr hi
    rw [hlen] at hi
    rcases getElem?_snoc_cases hr with hr | ⟨rfl, -⟩
    · exact h.silent i r hr (.inr hsome)
    · rcases hi with hi | hi
      · exact absurd hi (Nat.lt_irrefl _)
      · exact absurd rfl hi
  · intro i x r p hi hx hr hp
    rw [hlen] at hi
    obtain rfl : i = s.upstream.sessions.length := Nat.succ.inj hi
    have hx' : x = .start (cfg.resuming (s.upstream.cursorSent cfg.track)) := by
      rw [← h.links] at hx
      exact (some.inj (getElem?_concat_length.symm.trans hx)).symm
    have hr' : r = Relay.start s.upstream.cfg.maxTracksPerUpstream claimed :=
      (some.inj (getElem?_concat_length.symm.trans hr)).symm
    have hp' : p = q := by
      rw [← h.receivers] at hp
      exact (some.inj (getElem?_concat_length.symm.trans hp)).symm
    subst hx' hr' hp'
    refine ⟨_, hlive, ?_⟩
    show Carries cfg _ (s.server.yielded p) _ _ _
    rw [hold.unread]
    have hloop' : (cfg.resuming (s.upstream.cursorSent cfg.track)).1.loop ≠ .bidiPerCall := hloop
    exact Carries.start hloop' _ _ hold.covered

theorem dequeue (h : Bridged cfg s) {au y server st} (hq : s.receivers[i]? = some q)
    (hx : s.links[i]? = some x) (hrecv : (s.server.fan.recvAt q).recv = some (au, y))
    (hstep : s.server.step increasing (.read q) = some server)
    (hnext : x.next cfg (.pump (.dequeue au)) = some (x', st)) :
    Bridged cfg { s with server := server, links := s.links.set i x' } := by
  have hlt := lt_of_getElem? hq
  obtain ⟨-, r, -, -, hr, -⟩ := h.slots (i := i) (h.receivers ▸ hlt)
  have hserver : Spares s.server q server := by
    refine ⟨fun p => (h.once p).step rfl hstep, fun p => (h.resumed p).step (h.once p) rfl hstep,
      fun p hp => ⟨?_, ResumeState.yielded_of_step hstep (fun heq => hp (ResumeLabel.read.inj heq).symm)⟩⟩
    cases ResumeState.step_cases hstep
    rfl
  refine h.session hx hr hq hserver (set_self hr).symm rfl rfl (fun _ hs => ⟨hs, rfl⟩) ?_
  rintro ⟨floor, hlive, hcarried⟩
  have hlive' := ResumeState.live_of_step hstep hlive
  have hyielded : server.yielded q = s.server.yielded q ++ [au] := by
    cases ResumeState.step_cases hstep with
    | read _ _ au' y' _ hrecv' =>
      obtain ⟨rfl, -⟩ := Prod.mk.inj (mem_unique hrecv' hrecv)
      exact Function.update_self ..
  refine ⟨h.ordered, floor, hlive', ?_⟩
  rw [hyielded]
  refine hcarried.dequeue hnext ?_ (fun m hm => ?_)
  · -- what was read from the receiver ascends
    rw [← hyielded]
    exact (hserver.once q).ordered.order.sublist (sublist_append_left _ _)
  · obtain ⟨hqueue, -⟩ := Receiver.recv_some hrecv
    have habove := h.resumed q m (hlive.trans (by rw [hm]))
    exact habove.queue au (hqueue ▸ mem_cons_self)

theorem requested (h : Bridged cfg s) {st} (hq : s.receivers[i]? = some q)
    (hx : s.links[i]? = some x) (hnext : x.next cfg (.pump .requested) = some (x', st)) :
    Bridged cfg
      { s with
        server := s.server.setRecv q (s.server.fan.recvAt q).requestKeyframe
        links := s.links.set i x' } := by
  have hlt := lt_of_getElem? hq
  obtain ⟨-, r, -, -, hr, -⟩ := h.slots (i := i) (h.receivers ▸ hlt)
  have hserver : Spares s.server q (s.server.setRecv q (s.server.fan.recvAt q).requestKeyframe) :=
    ⟨fun p => (h.once p).requestKeyframe q, fun p => (h.resumed p).setRecv (fun _ hau => hau),
      fun _ _ => ⟨rfl, rfl⟩⟩
  refine h.session hx hr hq hserver (set_self hr).symm rfl rfl (fun _ hs => ⟨hs, rfl⟩) ?_
  rintro ⟨floor, hlive, hcarried⟩
  obtain ⟨p, hp, heq⟩ := map_eq_some_iff.mp hnext
  obtain ⟨-, rfl⟩ := Prod.mk.inj heq
  exact ⟨h.ordered, floor, hlive, hcarried.link (fun _ heq => by cases heq) rfl hnext rfl⟩

variable {l : LinkLabel}

theorem takesTurns (hok : orderly cfg s (.link i l) = true) (hx : s.links[i]? = some x)
    (hr : s.upstream.sessions[i]? = some r) : Connection.takesTurns cfg ⟨x, r.client⟩ l = true := by
  simpa only [orderly, hx, hr] using hok

theorem ne_dequeue (h : onReceiver l = false) (au : AccessUnit) : l ≠ .pump (.dequeue au) := by
  rintro rfl
  cases h

theorem pump (h : Bridged cfg s) (hok : orderly cfg s (.link i l) = true)
    (hx : s.links[i]? = some x) (hown : onReceiver l = false)
    (hnext : x.next cfg l = some (x', none)) :
    Bridged cfg { s with links := s.links.set i x' } := by
  have hlt := lt_of_getElem? hx
  obtain ⟨-, r, q, -, hr, hq⟩ := h.slots (i := i) (h.links ▸ hlt)
  refine h.session hx hr hq (h.spares_refl q) (set_self hr).symm rfl rfl (fun _ hs => ⟨hs, rfl⟩) ?_
  rintro ⟨floor, hlive, hcarried⟩
  exact ⟨h.ordered, floor, hlive, hcarried.link (ne_dequeue hown) (takesTurns hok hx hr) hnext rfl⟩

theorem client (h : Bridged cfg s) {st c} (hok : orderly cfg s (.link i l) = true)
    (hx : s.links[i]? = some x) (hown : onReceiver l = false)
    (hnext : x.next cfg l = some (x', some st)) (hr : s.upstream.sessions[i]? = some r)
    (hstep : Client.next r.client st = some c) :
    Bridged cfg
      { s with
        upstream := s.upstream.advance i r (.client st) { r with client := c }
        links := s.links.set i x' } := by
  have hlt := lt_of_getElem? hr
  obtain ⟨-, -, q, -, -, hq⟩ := h.slots hlt
  have hout : (s.upstream.advance i r (.client st) { r with client := c }).out cfg.track =
      s.upstream.out cfg.track := Upstream.out_of_same rfl
  refine h.session hx hr hq (h.spares_refl q) rfl rfl rfl (fun _ hs => ⟨hs, hout⟩) ?_
  rw [hout]
  rintro ⟨floor, hlive, hcarried⟩
  exact ⟨h.ordered, floor, hlive, hcarried.link (ne_dequeue hown) (takesTurns hok hx hr) hnext hstep⟩

end Bridged

theorem carriesOn_of_effect {cfg : StreamConfig} {server} {u : Upstream} {i x r r' q a}
    (hown : isClient a = false) (hord : (u.out cfg.track).Pairwise (· < ·))
    (h : CarriesOn cfg server (u.out cfg.track) x r q) (hstep : Relay.Effect r a r') :
    ((u.advance i r a r').out cfg.track).Pairwise (· < ·) ∧
      CarriesOn cfg server ((u.advance i r a r').out cfg.track) x r' q := by
  obtain ⟨floor, hlive, hcarried⟩ := h
  have hquiet : ∀ r' : Relay, r'.published = r.published →
      Carries cfg floor (server.yielded q) x r' (u.out cfg.track) →
      ((u.advance i r a r').out cfg.track).Pairwise (· < ·) ∧
        CarriesOn cfg server ((u.advance i r a r').out cfg.track) x r' q := by
    intro r' hsame hcarried
    rw [Upstream.out_of_same hsame]
    exact ⟨hord, floor, hlive, hcarried⟩
  cases hstep with
  | client => cases hown
  | poll => exact hquiet _ (Relay.published_startPump ..) (hcarried.startPump _ _)
  | receive hget => exact hquiet _ rfl (hcarried.receive hget)
  | @publish p track n au hget hout =>
    by_cases htrack : track = cfg.track
    · subst htrack
      obtain ⟨habove, hcarried⟩ := hcarried.publish_own hget hout
      rw [Upstream.out_publish_own]
      exact ⟨pairwise_snoc hord habove, floor, hlive, hcarried⟩
    · rw [Upstream.out_publish_other _ htrack]
      exact ⟨hord, floor, hlive, hcarried.publish_other au hget⟩
  | stop hget =>
    exact hquiet _ rfl (hcarried.setPump hget PumpPhase.noConfusion (fun n => PumpPhase.noConfusion))

namespace Bridged

variable {cfg : StreamConfig} {s : Bridge} {i : Nat} {r : Relay}

theorem relay (h : Bridged cfg s) {a r'} (hr : s.upstream.sessions[i]? = some r)
    (hown : isClient a = false) (hallowed : s.upstream.allows i a = true)
    (hstep : Relay.Effect r a r') :
    Bridged cfg { s with upstream := s.upstream.advance i r a r' } := by
  have hlt := lt_of_getElem? hr
  obtain ⟨x, -, q, hx, -, hq⟩ := h.slots hlt
  -- only the session that `sessionLoop` runs on is polled
  have hpoll : i + 1 ≠ s.upstream.sessions.length ∨ s.pending ≠ none →
      ∀ name claimed, a ≠ .poll name claimed := by
    rintro hi name claimed rfl
    obtain ⟨hphase, hlast⟩ := Bool.and_eq_true_iff.mp hallowed
    rcases hi with hi | hi
    · exact hi (of_decide_eq_true hlast)
    · obtain ⟨p, hp⟩ := ne_none_iff_exists'.mp hi
      cases (h.dialling p hp).phase.symm.trans (of_decide_eq_true hphase)
  have hmoved : Bridged cfg
      { s with upstream := s.upstream.advance i r a r', links := s.links.set i x } := by
    refine h.session hx hr hq (h.spares_refl q) rfl rfl rfl (fun hi hs => ?_) (fun hc => ?_)
    · exact ⟨hs.step (hpoll hi) hstep, Upstream.out_of_silent hs hstep⟩
    · exact carriesOn_of_effect hown h.ordered hc hstep
  rw [set_self hx] at hmoved
  exact hmoved

theorem closeClient (h : Bridged cfg s) {failed} (hcurrent : s.upstream.current = some r) :
    Bridged cfg { s with upstream := s.upstream.closeClient failed r, pending := none } := by
  have hr : s.upstream.sessions[s.upstream.sessions.length - 1]? = some r :=
    getLast?_eq_getElem?.symm.trans hcurrent
  have hlt := lt_of_getElem? hr
  obtain ⟨x, -, q, hx, -, hq⟩ := h.slots hlt
  let r' : Relay := { r with client := { r.client with closed := true } }
  let sessions := s.upstream.sessions.set (s.upstream.sessions.length - 1) r'
  have hclosed : Bridged cfg
      { s with
        upstream := { s.upstream with sessions := sessions }
        links := s.links.set (s.upstream.sessions.length - 1) x } := by
    refine h.session hx hr hq (h.spares_refl q) rfl rfl rfl (fun _ hs => ⟨hs, rfl⟩) ?_
    rintro ⟨floor, hlive, hcarried⟩
    refine ⟨h.ordered, floor, hlive, ?_⟩
    exact hcarried.link (l := .client .close) nofun rfl rfl rfl
  rw [set_self hx] at hclosed
  exact hclosed.upstream rfl rfl nofun (fun hne => absurd rfl hne)

theorem loop (h : Bridged cfg s) {l : Upstream.Label} {u} (hown : l.inLoop = true)
    (hstep : Upstream.Effect s.upstream l u) :
    Bridged cfg { s with upstream := u, pending := none } := by
  have hkeep : ∀ u : Upstream, u.sessions = s.upstream.sessions → u.published = s.upstream.published →
      Bridged cfg { s with upstream := u, pending := none } := by
    intro u hsessions hpublished
    exact h.upstream hsessions hpublished nofun (fun hne => absurd rfl hne)
  cases hstep with
  | dial => cases hown
  | dialed => cases hown
  | session => cases hown
  | closeClient _ hcurrent => exact h.closeClient hcurrent
  | _ => exact hkeep _ rfl rfl

/-- **Every orderly step** keeps the order. -/
theorem step {l s'} (h : Bridged cfg s) (hloop : cfg.1.loop ≠ .bidiPerCall)
    (hok : s.orderly cfg l = true) (hstep : Effect cfg s l s') : Bridged cfg s' := by
  cases hstep with
  | server hspares hserver => exact h.server hspares hok hserver
  | dial _ hparked hspare => exact h.dial hok hparked hspare
  | dialed hpending hlive => exact h.dialed hloop _ _ hpending hlive
  | dequeue hq hx hrecv hserver hnext => exact h.dequeue hq hx hrecv hserver hnext
  | requested hq hx hnext => exact h.requested hq hx hnext
  | pump hx hown hnext => exact h.pump hok hx hown hnext
  | client hx hown hnext hr hclient => exact h.client hok hx hown hnext hr hclient
  | relay hr hown hallowed hrelay => exact h.relay hr hown hallowed hrelay
  | loop hown hupstream => exact h.loop hown hupstream

end Bridged

/-! ## Results -/

/-- **Published once and in order.** If the producer's Seqs increase and every step is
    orderly, the Seqs published downstream on a stream-delivered track increase. -/
theorem published_in_order {cfg : StreamConfig} (hloop : cfg.1.loop ≠ .bidiPerCall)
    (chanSize maxAUBytes replayMaxBytes : Int) (selfContained : Bool) (chain : List Interceptor)
    (ucfg : UpstreamConfig) :
    ∀ s, Reachable ((bridgeSystem cfg chanSize maxAUBytes replayMaxBytes selfContained chain
        ucfg).restrict (fun s l => s.orderly cfg l = true)) s →
      (s.upstream.out cfg.track).Pairwise (· < ·) := by
  intro s hs
  have hinv : Bridged cfg s := by
    have h := Broadcaster.records_nil chanSize maxAUBytes replayMaxBytes selfContained
    refine invariant_restrict (Bridged cfg) ?_ ?_ s hs
    · exact ⟨onceInv_start { h with }, nofun, rfl, rfl, nodup_nil, Pairwise.nil, nofun, nofun,
        fun i x r q hi => by cases hi⟩
    · intro s l s' _ h hok hstep
      exact h.step hloop hok (effect_of_next hstep)
  exact hinv.ordered

/-- A keyframe gets into the client's queue, as number `n` of the session. -/
def brought (i n : Nat) : List Label :=
  [.dequeue i, .link i (.pump (.call 0 .opened)), .link i (.pump (.call 0 .written)), .link i (.accept n),
    .link i (.client (.lookup n)), .link i (.decode n n Connection.noon), .link i (.client (.deliver n))]

/-- Call `n` of the pump, and its publish. -/
def relayed (i n : Nat) : List Label :=
  [.relay i (.receive 0), .link i (.client (.findDone n)), .link i (.client (.take n)),
    .link i (.client (.observe n)), .relay i (.publish 0)]

def firstSession : List Label :=
  [.server (.fan (.subscribe 0)), .dial 0, .server (.attach 0), .dialed (str "s") true,
    .server (.fan (.publish (.bare true 1))), .server (.fan (.fanout 0))] ++ brought 0 0 ++ relayed 0 0

/-- Resumed with the cursor 1; keyframe 2 is relayed. -/
def resumedSession : List Label :=
  [.server (.fan (.subscribe parkedChanCap)), .dial 1, .server (.replaySince 1 1), .server (.splice 1),
    .dialed (str "s") true] ++ brought 1 0 ++ relayed 1 0

/-- The first pump returns before the next dial. -/
def joined : List Label :=
  firstSession ++ [.relay 0 (.receive 0), .link 0 (.client (.acceptError (str "gone"))),
    .link 0 (.client (.findDone 1)), .link 0 (.client (.takeErr 1)), .relay 0 (.stop 0),
    .loop (.loopEnds true), .loop .snapshot, .loop .closeClient, .loop .wake,
    .server (.fan (.publish (.bare true 2))), .server (.fan (.fanout 0))] ++ resumedSession

theorem published_in_order_joined :
    Connection.videoConfig.1.loop ≠ .bidiPerCall ∧
      ∃ s, Reachable ((bridgeSystem Connection.videoConfig 30 0 0 false [] .fresh).restrict
          (fun s l => s.orderly Connection.videoConfig l = true)) s ∧
        s.upstream.out (str "primary") = [1, 2] ∧
        (s.upstream.out Connection.videoConfig.track).Pairwise (· < ·) := by
  have hloop : Connection.videoConfig.1.loop ≠ .bidiPerCall := by decide
  exact ⟨hloop, exists_run_given_imp joined
    (fun s hs (hp : s.upstream.out (str "primary") = [1, 2]) =>
      ⟨hp, published_in_order hloop 30 0 0 false [] .fresh s hs⟩) (by decide +kernel)⟩

/-- Keyframe 2 is in the client's queue when the session dies; the loop reads the cursor
    before the pump publishes it. -/
def unjoined : List Label :=
  firstSession ++ [.server (.fan (.publish (.bare true 2))), .server (.fan (.fanout 0))] ++ brought 0 1 ++
    [.link 0 (.client (.acceptError (str "gone"))), .loop (.loopEnds true), .loop .snapshot] ++
    relayed 0 1 ++ [.loop .closeClient, .loop .wake] ++ resumedSession

/-- The next session brings keyframe 2 again. -/
theorem published_twice :
    ∃ s, Reachable (bridgeSystem Connection.videoConfig 30 0 0 false [] .fresh) s ∧
      s.upstream.out Connection.videoConfig.track = [1, 2, 2] ∧
      ¬ (s.upstream.out Connection.videoConfig.track).Pairwise (· < ·) := by
  exact exists_run unjoined (by decide +kernel)

end Bridge

end QuicRTC

import QuicRTC.Feed.ServedTrack

/-! # What Was Offered Is Sent

From any state of a run without loss, steps of the fanout and of the pumps lead to one in which all
that was offered to the session is on the wire. Nothing is published meanwhile.
-/

namespace QuicRTC

open LTS Wire List

/-! ## Steps that only finish -/

def ServedLabel.isWork : ServedLabel → Bool
  | .fan (.fanout _) => true
  | .fan .evict => true
  | .fan .resend => true
  | .take _ => true
  | .pump l => l.isWork
  | _ => false

def servedWork (bc : Broadcaster) (cfg : FeedConfig) (rest : List FeedConfig) :
    System ServedTrack ServedLabel :=
  (losslessSystem bc cfg rest).restrict (fun _ l => l.isWork = true)

namespace PumpLabel

variable {l : PumpLabel}

theorem clean_of_isWork (h : l.isWork = true) : l.clean = true := by
  unfold isWork at h
  split at h <;> first | rfl | cases h

theorem others_of_isWork (h : l.isWork = true) : ServedTrack.others l = true := by
  unfold isWork at h
  split at h <;> first | rfl | cases h

end PumpLabel

namespace ServedTrack

variable {bc : Broadcaster} {cfg : FeedConfig} {rest : List FeedConfig} {s s' : ServedTrack}

structure SameOffer (s s' : ServedTrack) : Prop where
  recv : s'.recv = s.recv
  seed : s'.seed = s.seed
  offered : s'.offered = s.offered
  published : s'.fan.published = s.fan.published

theorem sameOffer_of_step {l : ServedLabel} (hl : l.isWork = true) (he : Effect s l s') :
    SameOffer s s' := by
  cases he with
  | @fan l f _ hf =>
    have hhist := Fan.history_step hf
    generalize hp : f.published = p at hhist
    generalize ha : f.accepted = a at hhist
    cases hhist with
    | other _ _ =>
      refine ⟨rfl, rfl, ?_, hp⟩
      show (if s.recv.isSome then s.offered ++ f.accepted.drop s.fan.accepted.length
        else s.offered) = s.offered
      rw [ha, drop_length, append_nil, ite_self]
    | _ => cases hl
  | receive => cases hl
  | attach => cases hl
  | _ => exact ⟨rfl, rfl, rfl, rfl⟩

theorem sameOffer_of_steps (h : (servedWork bc cfg rest).Steps s s') : SameOffer s s' := by
  induction h with
  | refl => exact ⟨rfl, rfl, rfl, rfl⟩
  | tail _ hlast ih =>
    obtain ⟨l, hl, -, hstep⟩ := hlast
    have hsame := sameOffer_of_step hl (effect_of_next hstep)
    exact ⟨hsame.recv.trans ih.recv, hsame.seed.trans ih.seed, hsame.offered.trans ih.offered,
      hsame.published.trans ih.published⟩

theorem steps_of_pumps {p} (h : (pumpWork (cfg :: rest)).Steps s.pumps p) :
    (servedWork bc cfg rest).Steps s { s with pumps := p } := by
  induction h with
  | refl => exact .refl
  | tail _ hlast ih =>
    obtain ⟨l, hl, hstep⟩ := hlast
    refine ih.tail ⟨.pump l, hl, ?_, ?_⟩
    · simp [lossless, unfailing, roomy, suits, PumpLabel.clean_of_isWork hl]
    · have hstep : PumpSet.next _ l = some _ := hstep
      show ServedTrack.next _ _ = _
      simp [next, PumpLabel.others_of_isWork hl, hstep]

variable {r : ReceiverId}

theorem exists_take {ln au queue} (hr : s.recv = some r) (hlane : s.pumps.lanes[0]? = some ln)
    (hpc : ln.pc = .waiting) (hqueue : (s.fan.recvAt r).queue = au :: queue) :
    ∃ s', (servedWork bc cfg rest).Steps s s' ∧ s'.fan.flight = s.fan.flight ∧
      (s'.fan.recvAt r).queue = queue := by
  obtain ⟨x, hx⟩ := Receiver.recv_of_cons hqueue
  obtain ⟨hcons, -⟩ := Receiver.recv_some hx
  have hrest : x.queue = queue := (cons.inj (hcons.symm.trans hqueue)).2
  refine ⟨s.take r ln au x firstTick, .single ⟨.take firstTick, rfl, rfl, ?_⟩, rfl, ?_⟩
  · show s.next _ = _
    simp [next, hr, hlane, hpc, hx]
  · show ((s.fan.setRecv r x).recvAt r).queue = queue
    simp [Fan.setRecv, Fan.recvAt, hrest]

theorem exists_drained (hbc : Passes bc) (hcache : bc.latestKeyframe = none)
    (hname : cfg.trackName.length ≤ maxStreamHeader) (hs : Reachable (losslessSystem bc cfg rest) s)
    (hr : s.recv = some r) :
    ∃ s', (servedWork bc cfg rest).Steps s s' ∧ s'.fan.flight = s.fan.flight ∧
      (s'.fan.recvAt r).queue = [] ∧ ∀ ln ∈ s'.pumps.lanes, ln.Resting := by
  -- on what is in the queue
  generalize hqueue : (s.fan.recvAt r).queue = queue
  induction queue generalizing s with
  | nil =>
    obtain ⟨p, hsteps, hrest⟩ := PumpSet.exists_rest (pumps_reachable s hs.of_restrict)
    exact ⟨_, steps_of_pumps hsteps, rfl, hqueue, hrest⟩
  | cons au queue ih =>
    obtain ⟨p, hsteps, hrest⟩ := PumpSet.exists_rest (pumps_reachable s hs.of_restrict)
    have hsteps : (servedWork bc cfg rest).Steps s { s with pumps := p } := steps_of_pumps hsteps
    have hreach := hs.steps (System.Steps.of_restrict hsteps)
    obtain ⟨ln, hlane, hloop⟩ := (smooth_of_reachable hbc hcache hname _ hreach).loop
    have hpc : ln.pc = .waiting :=
      (hrest ln (mem_of_getElem? hlane)).resolve_right hloop.runs
    obtain ⟨s₁, hstep, hflight, hqueue₁⟩ :=
      @exists_take bc cfg rest { s with pumps := p } r ln au queue hr hlane hpc hqueue
    have hreach₁ := hreach.steps (System.Steps.of_restrict hstep)
    have hr₁ : s₁.recv = some r := (sameOffer_of_steps hstep).recv.trans hr
    obtain ⟨s₂, hsteps₂, hflight₂, hdone⟩ := ih hreach₁ hr₁ hqueue₁
    exact ⟨s₂, (hsteps.trans hstep).trans hsteps₂, hflight₂.trans hflight, hdone⟩

theorem exists_between {f} (hok : s.fan.Ok) (hf : s.fan.flight = some f) (hr : r ∈ f.pending) :
    ∃ s', (servedWork bc cfg rest).Steps s s' ∧ s'.fan.recvAt r = s.fan.recvAt r ∧
      ∃ g, s'.fan.flight = some g ∧ g.current = none ∧ r ∈ g.pending := by
  -- the third select
  have hresend : ∀ (t : ServedTrack) (q : ReceiverId), q ≠ r →
      t.fan.flight = some { f with current := some (q, .resend) } →
      ∃ s', (servedWork bc cfg rest).Steps t s' ∧ s'.fan.recvAt r = t.fan.recvAt r ∧
        ∃ g, s'.fan.flight = some g ∧ g.current = none ∧ r ∈ g.pending := by
    intro t q hq hflight
    have hstep : t.fan.step .resend =
        some (t.fan.resend { f with current := some (q, .resend) } q) := by
      simp [Fan.step, hflight]
    refine ⟨t.fanned (t.fan.resend { f with current := some (q, .resend) } q),
      .single ⟨.fan .resend, rfl, rfl, ?_⟩, Function.update_of_ne hq.symm _ _,
      { f with current := none }, ?_, rfl, hr⟩
    · show t.next _ = _
      simp [next, stays, hstep]
    · show Flight.settle { f with current := none } = _
      unfold Flight.settle
      rw [if_neg]
      rintro ⟨hnil, -⟩
      exact ne_nil_of_mem hr hnil
  cases hcur : f.current with
  | none => exact ⟨s, .refl, rfl, f, hf, hcur, hr⟩
  | some c =>
    obtain ⟨q, st⟩ := c
    have hq : q ≠ r := by
      rintro rfl
      exact hok.once f hf q st hcur hr
    cases st with
    | resend =>
      apply hresend s q hq
      rw [hf, ← hcur]
    | evict =>
      have hstep : s.fan.step .evict = some (s.fan.evict f q) := by
        simp [Fan.step, hf, hcur]
      obtain ⟨s', hsteps, hsame, hrest⟩ := hresend (s.fanned (s.fan.evict f q)) q hq rfl
      refine ⟨s', Relation.ReflTransGen.head ⟨.fan .evict, rfl, rfl, ?_⟩ hsteps, ?_, hrest⟩
      · show s.next _ = _
        simp [next, stays, hstep]
      · exact hsame.trans (Function.update_of_ne hq.symm _ _)

theorem exists_arrived (hs : Smooth cfg s) (hr : s.recv = some r)
    (hempty : (s.fan.recvAt r).queue = []) :
    ∃ s', (servedWork bc cfg rest).Steps s s' ∧ turnOf s'.fan.flight r = .done := by
  have hflow := (hs.order r hr).flow
  rcases hflow.turn with hdone | ⟨au, hwait⟩
  · exact ⟨s, .refl, hdone⟩
  · change turnOf s.fan.flight r = .waiting true au at hwait
    cases hf : s.fan.flight with
    | none =>
      rw [hf] at hwait
      cases hwait
    | some f =>
      have hpending : r ∈ f.pending := by
        rw [hf] at hwait
        change f.turn r = _ at hwait
        unfold Flight.turn at hwait
        split at hwait
        · cases hwait
        · split at hwait
          · cases hwait
          · split at hwait
            · assumption
            · cases hwait
      obtain ⟨s₁, hsteps, hsame, g, hg, hcur, hmem⟩ :=
        @exists_between bc cfg rest s r f hs.fan hf hpending
      have hroom : (s₁.fan.recvAt r).queue.length < (s₁.fan.recvAt r).cap := by
        rw [hsame, hempty]
        exact hflow.cap
      have hstep : s₁.fan.step (.fanout r) = some (s₁.fan.fanout g r) := by
        simp [Fan.step, hg, hcur, hmem]
      refine ⟨s₁.fanned (s₁.fan.fanout g r),
        Relation.ReflTransGen.tail hsteps ⟨.fan (.fanout r), rfl, ?_, ?_⟩, ?_⟩
      · simp [lossless, unfailing, roomy, suits, hroom]
      · show s₁.next _ = _
        simp [next, stays, hstep]
      · show turnOf (s₁.fan.fanout g r).flight r = .done
        unfold Fan.fanout
        simp only [Receiver.fanoutTry_of_room g.selfContained g.au hroom]
        simp [Flight.turn]

theorem exists_sent (hbc : Passes bc) (hcache : bc.latestKeyframe = none)
    (hname : cfg.trackName.length ≤ maxStreamHeader) (hs : Reachable (losslessSystem bc cfg rest) s)
    (hr : s.recv = some r) :
    ∃ s', (servedWork bc cfg rest).Steps s s' ∧ s'.taken = (s.seed ++ s.offered).map some ∧
      ∀ n ∈ s'.mine, PumpSet.OnWire cfg s'.pumps n := by
  obtain ⟨s₁, hsteps₁, -, hempty, -⟩ := exists_drained hbc hcache hname hs hr
  have hreach₁ := hs.steps (System.Steps.of_restrict hsteps₁)
  have hr₁ : s₁.recv = some r := (sameOffer_of_steps hsteps₁).recv.trans hr
  obtain ⟨s₂, hsteps₂, hturn⟩ := @exists_arrived bc cfg rest s₁ r
    (smooth_of_reachable hbc hcache hname s₁ hreach₁) hr₁ hempty
  have hreach₂ := hreach₁.steps (System.Steps.of_restrict hsteps₂)
  have hr₂ : s₂.recv = some r := (sameOffer_of_steps hsteps₂).recv.trans hr₁
  obtain ⟨s₃, hsteps₃, hflight, hempty₃, hrest⟩ := exists_drained hbc hcache hname hreach₂ hr₂
  have hsmooth := smooth_of_reachable hbc hcache hname s₃
    (hreach₂.steps (System.Steps.of_restrict hsteps₃))
  have hall := (hsteps₁.trans hsteps₂).trans hsteps₃
  have hsame := sameOffer_of_steps hall
  refine ⟨s₃, hall, ?_, hsmooth.kept.sent hrest⟩
  -- neither in the queue nor on its way
  have horder := (hsmooth.order r (hsame.recv.trans hr)).flow.order
  change s₃.taken ++ ((s₃.fan.recvAt r).queue ++ onItsWay (turnOf s₃.fan.flight r)).map some = _
    at horder
  rw [hempty₃, hflight, hturn, hsame.seed, hsame.offered] at horder
  exact (append_nil _).symm.trans horder

/-- What was offered to the session are the last of the units published. -/
structure Through (s : ServedTrack) : Prop where
  accepted : s.fan.accepted = s.fan.published
  offered : s.offered <:+ s.fan.accepted

theorem Through.step {l} (h : Through s) (hs : Smooth cfg s) (hl : s.lossless cfg l = true)
    (he : Effect s l s') : Through s' := by
  cases he with
  | @fan l f _ hf =>
    have hhist := Fan.history_step hf
    have hoffered : (s.fanned f).offered =
        if s.recv.isSome then s.offered ++ f.accepted.drop s.fan.accepted.length
        else s.offered := rfl
    generalize hp : f.published = p at hhist
    generalize ha : f.accepted = a at hhist hoffered
    cases hhist with
    | rejected au hacc =>
      rw [lossless, Bool.and_eq_true, Bool.and_eq_true] at hl
      rw [hs.passes.accept au (Smooth.fine_publish hl.1.1 hl.2).size] at hacc
      cases hacc
    | accepted au au' hacc =>
      rw [lossless, Bool.and_eq_true, Bool.and_eq_true] at hl
      rw [hs.passes.accept au (Smooth.fine_publish hl.1.1 hl.2).size] at hacc
      cases hacc
      refine ⟨?_, ?_⟩
      · show f.accepted = f.published
        rw [ha, hp, h.accepted]
      · show (s.fanned f).offered <:+ f.accepted
        rw [ha, hoffered, drop_left]
        obtain ⟨before, hbefore⟩ := h.offered
        split
        · exact ⟨before, by rw [← append_assoc, hbefore]⟩
        · next hnone =>
          have hnone : s.recv = none := Option.not_isSome_iff_eq_none.mp hnone
          rw [(hs.before hnone).2.2]
          exact nil_suffix
    | other _ _ =>
      refine ⟨?_, ?_⟩
      · show f.accepted = f.published
        rw [ha, hp, h.accepted]
      · show (s.fanned f).offered <:+ f.accepted
        rw [ha, hoffered, drop_length, append_nil, ite_self]
        exact h.offered
  | _ => exact { h with }

theorem through_of_reachable (hbc : Passes bc) (hcache : bc.latestKeyframe = none)
    (hname : cfg.trackName.length ≤ maxStreamHeader) :
    ∀ s, Reachable (losslessSystem bc cfg rest) s → Through s := by
  refine invariant_restrict Through ⟨rfl, nil_suffix⟩ ?_
  intro s l s' hs h hok hstep
  exact h.step (smooth_of_reachable hbc hcache hname s hs) hok (effect_of_next hstep)

theorem alone_of_reachable : ∀ s, Reachable (losslessSystem bc cfg rest) s →
    PumpSet.Alone s.pumps := by
  refine invariant_restrict (fun s : ServedTrack => PumpSet.Alone s.pumps)
    (PumpSet.alone_start _) ?_
  intro s l s' hs h hl hstep
  have hreach := pumps_reachable s hs.of_restrict
  have hq := PumpSet.queued_of_reachable _ hreach
  have hsound := PumpSet.sound_of_reachable _ hreach
  cases effect_of_next hstep with
  | @take now r ln au x _ hlane hpc _ =>
    have hnext := PumpSet.next_dequeue hlane hpc au now
    exact h.step hq hsound rfl (PumpSet.effect_of_next hnext)
  | pump _ hp =>
    rw [lossless, Bool.and_eq_true, Bool.and_eq_true] at hl
    exact h.step hq hsound hl.1.1 (PumpSet.effect_of_next hp)
  | _ => exact h

end ServedTrack

end QuicRTC

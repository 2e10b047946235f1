import QuicRTC.Client.DecodeOrder

/-! # The Resume Cursor as an Acknowledgement

A client that resumes with `LastSeenSeq` says that it has everything up to there. That is not so
where frames reach `RecvOn` out of order or with gaps: calls are drained in any order, a stream that
was reset may lose frames, and of two concurrent calls the higher Seq may return first.
-/

namespace QuicRTC

open Wire Client LTS List Option Slots

/-! ## The condition -/

def Conveys (cfg : StreamConfig) (au y : AccessUnit) : Prop :=
  ∃ now, y = feedUnit (cfg.frame now au)

theorem Conveys.seq_eq {cfg au y} (h : Conveys cfg au y) : y.seq = au.seq := by
  obtain ⟨now, rfl⟩ := h
  rfl

namespace Link

def Logged (cfg : StreamConfig) (x : Link) (m : Nat) (y : AccessUnit) : Prop :=
  ∃ k au, x.log[m]? = some (k, au) ∧ Conveys cfg au y

/-- A frame is decoded when all completed before it are in the queue. -/
def gapless (v : TrackView) : LinkLabel → Bool
  | .decode _ j _ => !v.busy && decide (v.ch.sent.length = j)
  | _ => true

end Link

/-- The call has received a unit with a Seq not above `seq`. -/
def RecvOnPhase.owes (seq : UInt32) : RecvOnPhase → Bool
  | .taken y => decide (¬ seq < y.seq)
  | _ => false

namespace Client.TrackView

def Taken (v : TrackView) (i : Nat) (y : AccessUnit) : Prop := v.calls[i]? = some (some (.taken y))

def Returned (v : TrackView) (i : Nat) (y : AccessUnit) : Prop :=
  v.calls[i]? = some (some (.returned y none))

/-- Every other call that has a unit in hand has one above `seq`. -/
def settled (v : TrackView) (i : Nat) (seq : UInt32) : Bool :=
  v.calls.zipIdx.all (fun p => decide (p.2 = i) || !p.1.any (RecvOnPhase.owes seq))

def returnsInOrder (v : TrackView) : LinkLabel → Bool
  | .client (.observe i) =>
    match v.calls[i]? with
    | some (some (.taken au)) => v.settled i au.seq
    | _ => true
  | _ => true

end Client.TrackView

/-! ## The invariant -/

/-- The queue has had a prefix of the log, and the cursor is below all that was taken and
    not returned. -/
structure Acknowledged (cfg : StreamConfig) (x : Link) (v : TrackView) : Prop where
  log : x.log.Pairwise (fun e e' => e.2.seq < e'.2.seq)
  sent : ∀ (m : Nat) (y : AccessUnit), v.ch.sent[m]? = some y → x.Logged cfg m y
  held : ∀ i y, v.Holding i y → x.Logged cfg v.ch.sent.length y
  one : ∀ i j y z, v.Holding i y → v.Holding j z → i = j
  got : ∀ y ∈ v.ch.got, ∃ i, v.Received i y
  taken : ∀ i y, v.Taken i y → y ∈ v.ch.got
  cursor : ∀ m, v.cursor = some m → ∃ y ∈ v.ch.got, y.seq = m
  above : ∀ i y m, v.Taken i y → v.cursor = some m → m < y.seq

namespace Acknowledged

variable {cfg : StreamConfig} {x : Link} {v : TrackView}

theorem init (cfg : StreamConfig) (t : GoString) :
    Acknowledged cfg (.start cfg) (Client.start.view t) := by
  have hsent : (Client.start.view t).ch.sent = [] := sent_queue_start t
  have hgot : (Client.start.view t).ch.got = [] := prefix_nil.mp (hsent ▸ LoggedChan.got_prefix _)
  refine ⟨Pairwise.nil, fun m y hm => ?_, nofun, nofun,
    fun y hy => ?_, nofun, fun m hm => ?_, nofun⟩
  · rw [hsent] at hm
    cases hm
  · rw [hgot] at hy
    cases hy
  · have hnone : (Client.start.view t).cursor = none := rfl
    cases hm

variable {au y : AccessUnit} {ch : LoggedChan AccessUnit} {i m : Nat} {phase : RecvOnPhase}

theorem seq_lt (h : Acknowledged cfg x v) {n z} (hm : v.ch.sent[m]? = some y)
    (hn : v.ch.sent[n]? = some z) (hlt : m < n) : y.seq < z.seq := by
  obtain ⟨k, au, he, hy⟩ := h.sent m y hm
  obtain ⟨k', au', he', hz⟩ := h.sent n z hn
  rw [hy.seq_eq, hz.seq_eq]
  exact seq_lt_of_place h.log he he' hlt

theorem sent_of_got (h : ch.got[m]? = some y) : ch.sent[m]? = some y := by
  have hlt := lt_of_getElem? h
  rw [ch.fifo, getElem?_append_left hlt, h]

section

variable (h : Acknowledged cfg x v)
include h

theorem returned {k} (hau : (k, au) ∈ x.log) {m} (hm : v.cursor = some m) (hle : au.seq ≤ m) :
    ∃ i y, Conveys cfg au y ∧ v.Returned i y := by
  obtain ⟨b, hb⟩ := mem_iff_getElem?.mp hau
  obtain ⟨y, hy, hyseq⟩ := h.cursor m hm
  obtain ⟨a, ha⟩ := mem_iff_getElem?.mp hy
  obtain ⟨k', au', ha', hconv⟩ := h.sent a y (sent_of_got ha)
  -- in the log it does not come after what the cursor stands for
  have hba : b ≤ a := by
    apply Nat.le_of_not_lt
    intro hlt
    have hlt' : au'.seq < au.seq := seq_lt_of_place h.log ha' hb hlt
    rw [← hconv.seq_eq, hyseq] at hlt'
    exact UInt32.not_lt.mpr hle hlt'
  -- so it has been taken as well
  have hlen := lt_of_getElem? ha
  obtain ⟨z, hz⟩ : ∃ z, v.ch.got[b]? = some z :=
    ⟨_, getElem?_eq_getElem (Nat.lt_of_le_of_lt hba hlen)⟩
  obtain ⟨k'', au'', hb', hconv'⟩ := h.sent b z (sent_of_got hz)
  rw [hb] at hb'
  obtain ⟨-, rfl⟩ := Prod.mk.inj (some.inj hb')
  obtain ⟨i, hi⟩ := h.got z (mem_of_getElem? hz)
  rcases hi with htaken | hret
  · have hlt := h.above i z m htaken hm
    rw [hconv'.seq_eq] at hlt
    exact absurd hlt (UInt32.not_lt.mpr hle)
  · exact ⟨i, z, hconv', hret⟩

theorem pump {l} (hasc : x.ascends (.pump l) = true) (p : StreamPump) :
    Acknowledged cfg { x with pump := p, log := x.log ++ (x.pump.completes l).toList } v := by
  have hgrow : ∀ m y, x.Logged cfg m y →
      Link.Logged cfg { x with pump := p, log := x.log ++ (x.pump.completes l).toList } m y := by
    rintro m y ⟨k, au, hm, hconv⟩
    exact ⟨k, au, getElem?_append_some hm, hconv⟩
  exact { h with log := pairwise_completes h.log hasc, sent := fun m y hm => hgrow m y (h.sent m y hm), held := fun i y hi => hgrow _ y (h.held i y hi) }

theorem drains {sources ds}
    (hds : ∀ i y, TrackView.Holding { v with drains := ds } i y → v.Holding i y) :
    Acknowledged cfg { x with sources := sources } { v with drains := ds } :=
  { h with held := fun i y hi => h.held i y (hds i y hi), one := fun i j y z hi hj => h.one i j y z (hds i y hi) (hds j z hj) }

theorem decode {j k now} (hgap : Link.gapless v (.decode i j now) = true)
    (hframe : x.log[j]? = some (k, au)) :
    Acknowledged cfg (x.read i j) (v.setDrain i (some (.holding (feedUnit (cfg.frame now au))))) := by
  obtain ⟨hidle, hdue⟩ := Bool.and_eq_true_iff.mp hgap
  have hdue' : v.ch.sent.length = j := of_decide_eq_true hdue
  have honly : ∀ m y, (v.setDrain i (some (.holding (feedUnit (cfg.frame now au))))).Holding m y →
      m = i ∧ y = feedUnit (cfg.frame now au) := by
    intro m y hm
    rcases getElem?_set_cases hm with ⟨rfl, heq⟩ | ⟨-, hold⟩
    · exact ⟨rfl, DrainView.holding.inj (some.inj heq)⟩
    · rw [busy_of_holding hold] at hidle
      cases hidle
  refine { h with held := fun m y hm => ?_, one := fun m n y z hm hn => ?_ }
  · obtain ⟨-, rfl⟩ := honly m y hm
    refine ⟨k, au, ?_, now, rfl⟩
    show x.log[v.ch.sent.length]? = _
    rw [hdue', hframe]
  · exact (honly m y hm).1.trans (honly n z hn).1.symm

theorem deliver (hget : v.Holding i au) (hsent : v.ch.trySend au = some ch) :
    Acknowledged cfg x { v.setDrain i (some .reading) with ch := ch } := by
  obtain ⟨-, hch, hgot⟩ := LoggedChan.trySend_spec hsent
  have hnone : ∀ m y, ¬ TrackView.Holding { v.setDrain i (some .reading) with ch := ch } m y := by
    intro m y hm
    rcases getElem?_set_cases hm with ⟨-, heq⟩ | ⟨hne, hold⟩
    · cases heq
    · exact hne (h.one m i y au hold hget)
  refine ⟨h.log, ?_, fun m y hm => absurd hm (hnone m y), fun m n y z hm => absurd hm (hnone m y), ?_,
    fun m y hm => ?_, fun m hm => ?_, h.above⟩
  · rw [hch]
    exact forall_getElem?_snoc h.sent (h.held i au hget)
  · rw [hgot]
    exact h.got
  · rw [hgot]
    exact h.taken m y hm
  · rw [hgot]
    exact h.cursor m hm

end

theorem ne_of_received
    (hget : v.calls[i]? = some (some phase)) (hpending : ∀ z, phase ≠ .taken z ∧ phase ≠ .returned z none)
    (hm : v.Received m y) : m ≠ i := by
  rintro rfl
  rcases hm with hm | hm
  · exact (hpending y).1 (some.inj (mem_unique hget hm))
  · exact (hpending y).2 (some.inj (mem_unique hget hm))

theorem received_of_ne {cursor} (hne : m ≠ i) (hm : v.Received m y) :
    TrackView.Received { v.setCall i phase with ch := ch, cursor := cursor } m y := by
  have hget : (v.calls.set i (some phase))[m]? = v.calls[m]? := getElem?_set_ne hne.symm
  rcases hm with hm | hm
  · exact .inl (hget.trans hm)
  · exact .inr (hget.trans hm)

theorem setCall (h : Acknowledged cfg x v) {phase'} (hget : v.calls[i]? = some (some phase))
    (hpending : ∀ z, phase ≠ .taken z ∧ phase ≠ .returned z none) (hempty : ∀ z, phase' ≠ .taken z) :
    Acknowledged cfg x (v.setCall i phase') := by
  have htaken : ∀ m y, (v.setCall i phase').Taken m y → v.Taken m y := by
    intro m y hm
    rcases getElem?_set_cases hm with ⟨-, heq⟩ | ⟨-, hold⟩
    · exact absurd (some.inj heq).symm (hempty y)
    · exact hold
  refine { h with got := fun y hy => ?_, taken := fun m y hm => h.taken m y (htaken m y hm), above := fun m y k hm => h.above m y k (htaken m y hm) }
  obtain ⟨m, hm⟩ := h.got y hy
  exact ⟨m, received_of_ne (ne_of_received hget hpending hm) hm⟩

theorem take (h : Acknowledged cfg x v) {d} (hget : v.calls[i]? = some (some (.waiting d)))
    (hrecv : v.ch.tryRecv = some (au, ch)) :
    Acknowledged cfg x { v.setCall i (.taken au) with ch := ch } := by
  obtain ⟨hbuf, hch, hgot⟩ := LoggedChan.tryRecv_spec hrecv
  have hself : TrackView.Taken { v.setCall i (.taken au) with ch := ch } i au :=
    getElem?_set_some hget
  have hcases : ∀ m y, TrackView.Taken { v.setCall i (.taken au) with ch := ch } m y →
      y = au ∨ v.Taken m y := by
    intro m y hm
    rcases getElem?_set_cases hm with ⟨-, heq⟩ | ⟨-, hold⟩
    · exact .inl (RecvOnPhase.taken.inj (some.inj heq))
    · exact .inr hold
  -- it is above all that was taken before
  have hnew : ∀ y ∈ v.ch.got, y.seq < au.seq := by
    intro y hy
    obtain ⟨a, ha⟩ := mem_iff_getElem?.mp hy
    have hlen := lt_of_getElem? ha
    have hau : v.ch.sent[v.ch.got.length]? = some au := by
      rw [v.ch.fifo, hbuf, getElem?_append_right (Nat.le_refl _), Nat.sub_self]
      rfl
    exact h.seq_lt (sent_of_got ha) hau hlen
  refine ⟨h.log, ?_, ?_, h.one, ?_, fun m y hm => ?_, fun m hm => ?_, fun m y k hm hk => ?_⟩
  · rw [hch]
    exact h.sent
  · rw [hch]
    exact h.held
  · rw [hgot]
    refine forall_mem_snoc (fun y hy => ?_) ⟨i, .inl hself⟩
    obtain ⟨m, hm⟩ := h.got y hy
    exact ⟨m, received_of_ne (ne_of_received hget (fun z => ⟨nofun, nofun⟩) hm) hm⟩
  · rw [hgot]
    rcases hcases m y hm with rfl | hold
    · exact mem_concat_self
    · exact mem_append_left _ (h.taken m y hold)
  · rw [hgot]
    obtain ⟨y, hy, hseq⟩ := h.cursor m hm
    exact ⟨y, mem_append_left _ hy, hseq⟩
  · rcases hcases m y hm with rfl | hold
    · obtain ⟨z, hz, rfl⟩ := h.cursor k hk
      exact hnew z hz
    · exact h.above m y k hold hk

theorem raise_cases (c : Option UInt32) (seq : UInt32) : raise c seq = seq ∨ c = some (raise c seq) := by
  cases c with
  | none => exact .inl rfl
  | some prev =>
    by_cases hlt : prev < seq
    · exact .inl (if_pos hlt)
    · exact .inr (congrArg some (if_neg hlt).symm)

theorem lt_of_settled {seq} (h : v.settled i seq = true) (hm : v.Taken m y) (hne : m ≠ i) :
    seq < y.seq := by
  have hmem := all_eq_true.mp h (some (.taken y), m) (mem_zipIdx_iff_getElem?.mpr hm)
  simpa [hne, RecvOnPhase.owes] using hmem

theorem observe (h : Acknowledged cfg x v) (hget : v.Taken i au)
    (hsettled : v.settled i au.seq = true) :
    Acknowledged cfg x
      { v.setCall i (.returned au none) with cursor := some (raise v.cursor au.seq) } := by
  have htaken : ∀ m y, TrackView.Taken
      { v.setCall i (.returned au none) with cursor := some (raise v.cursor au.seq) } m y →
      m ≠ i ∧ v.Taken m y := by
    intro m y hm
    rcases getElem?_set_cases hm with ⟨-, heq⟩ | ⟨hne, hold⟩
    · cases heq
    · exact ⟨hne, hold⟩
  refine ⟨h.log, h.sent, h.held, h.one, fun y hy => ?_, fun m y hm => h.taken m y (htaken m y hm).2,
    fun m hm => ?_, fun m y k hm hk => ?_⟩
  · obtain ⟨m, hm⟩ := h.got y hy
    by_cases hmi : m = i
    · subst hmi
      refine ⟨m, .inr ?_⟩
      -- the call had `y` in hand, which is `au`
      obtain rfl : y = au := by
        rcases hm with hm | hm
        · exact RecvOnPhase.taken.inj (some.inj (mem_unique hm hget))
        · cases hm.symm.trans hget
      exact getElem?_set_some hget
    · exact ⟨m, received_of_ne hmi hm⟩
  · cases hm
    rcases raise_cases v.cursor au.seq with heq | hold
    · exact ⟨au, h.taken i au hget, heq.symm⟩
    · exact h.cursor _ hold
  · obtain ⟨hne, hold⟩ := htaken m y hm
    cases hk
    rcases raise_cases v.cursor au.seq with heq | hprev
    · rw [heq]
      exact lt_of_settled hsettled hold hne
    · exact h.above m y _ hold hprev

theorem call (h : Acknowledged cfg x v) {phase} (hphase : phase = none ∨ phase = some .looked) :
    Acknowledged cfg x { v with calls := v.calls ++ [phase] } := by
  have htaken : ∀ m y, TrackView.Taken { v with calls := v.calls ++ [phase] } m y → v.Taken m y := by
    intro m y hm
    rcases getElem?_snoc_cases hm with hold | ⟨-, heq⟩
    · exact hold
    · rcases hphase with rfl | rfl <;> cases heq
  have hkeep : ∀ (m : Nat) (a : Option RecvOnPhase), v.calls[m]? = some a →
      (v.calls ++ [phase])[m]? = some a := by
    intro m a hm
    exact getElem?_append_some hm
  refine { h with got := fun y hy => ?_, taken := fun m y hm => h.taken m y (htaken m y hm), above := fun m y k hm => h.above m y k (htaken m y hm) }
  obtain ⟨m, hm⟩ := h.got y hy
  exact ⟨m, hm.imp (hkeep m _) (hkeep m _)⟩

theorem view {t slot st v'} (h : Acknowledged cfg x v)
    (horder : v.returnsInOrder (.client st) = true) (hquiet : accepts st = false)
    (hundecoded : ∀ i f, st ≠ .decode i f) (hstep : TrackStep t slot v st v') :
    Acknowledged cfg x v' := by
  cases hstep with
  | same => exact h
  | lookup | stop => exact h.drains (holding_of_setDrain nofun)
  | @decode i f => exact absurd rfl (hundecoded i f)
  | deliver hget hsent => exact h.deliver hget hsent
  | called => exact h.call (.inr rfl)
  | foreignCall => exact h.call (.inl rfl)
  | moved _ hget hpending hempty =>
    refine h.setCall hget (fun z => ?_) (fun z => ?_)
    · rcases hpending with rfl | ⟨d, rfl⟩ | rfl <;> exact ⟨nofun, nofun⟩
    · rcases hempty with ⟨d, rfl⟩ | rfl | ⟨err, rfl⟩ <;> nofun
  | take hget hrecv => exact h.take hget hrecv
  | observe hget =>
    refine h.observe hget ?_
    simp only [TrackView.returnsInOrder, hget] at horder
    exact horder
  | nilError _ hget hpending =>
    refine h.setCall hget (fun z => ?_) (fun z => nofun)
    rcases hpending with ⟨d, rfl⟩ | rfl <;> exact ⟨nofun, nofun⟩
  | _ => cases hquiet

theorem step {slot l x' v'} (h : Acknowledged cfg x v) (hasc : x.ascends l = true)
    (hgap : Link.gapless v l = true) (horder : v.returnsInOrder l = true)
    (hstep : LinkStep cfg slot x v l x' v') : Acknowledged cfg x' v' := by
  cases hstep with
  | pump => exact h.pump hasc _
  | decode _ hframe => exact h.decode hgap hframe
  | foreignDecode => exact h
  | client hquiet hundecoded hview => exact h.view horder hquiet hundecoded hview
  | _ => exact h.drains (holding_of_snoc nofun)

end Acknowledged

/-! ## What the cursor says -/

namespace Connection

/-- Frames complete in Seq order and are decoded in order, and calls return in order. -/
def acknowledges (cfg : StreamConfig) (s : Connection) (l : LinkLabel) : Bool :=
  s.link.ascends l && Link.gapless (s.view cfg) l && (s.view cfg).returnsInOrder l && keepsLabel cfg l

theorem acknowledged_of_reachable {cfg} :
    ∀ s, Reachable ((connectionSystem cfg).restrict (fun s l => s.acknowledges cfg l = true)) s →
      Single cfg.track s.client ∧ Aligned cfg s.link s.client ∧
        Acknowledged cfg s.link (s.view cfg) := by
  refine invariant_restrict _ ⟨Single.init _, Aligned.init cfg, Acknowledged.init cfg _⟩ ?_
  intro s l s' _ ⟨hsingle, haligned, hack⟩ hok hnext
  simp only [acknowledges, Bool.and_eq_true] at hok
  obtain ⟨⟨⟨hasc, hgap⟩, horder⟩, hkeeps⟩ := hok
  obtain ⟨st, hlink, hclient⟩ := next_eq_some hnext
  obtain ⟨hlinkStep, hsingle', haligned'⟩ :=
    linkStep_of_next hsingle haligned hkeeps hlink hclient
  exact ⟨hsingle', haligned', hack.step hasc hgap horder hlinkStep⟩

/-- **The cursor is a safe acknowledgement.** Every complete unit that is not above it has
    been returned. -/
theorem cursor_acknowledges {cfg : StreamConfig} {s : Connection}
    (h : Reachable ((connectionSystem cfg).restrict (fun s l => s.acknowledges cfg l = true)) s)
    {k : Nat} {au : AccessUnit} (hau : (k, au) ∈ s.link.log) {m : UInt32}
    (hm : s.client.lastSeenSeq.lookup cfg.track = some m) (hle : au.seq ≤ m) :
    ∃ i y, Conveys cfg au y ∧ s.Returns cfg i y := by
  obtain ⟨-, -, hack⟩ := acknowledged_of_reachable s h
  exact hack.returned hau hm hle

/-- A stream for every unit. -/
def toolConfig : StreamConfig :=
  ⟨{ FeedConfig.zero with delivery := .bidiPerCall, bidiOpener := true }, by decide⟩

/-- Two units, each on a stream of its own. -/
def twoCalls : List LinkLabel :=
  [.pump (.dequeue (.bare true 1)), .pump (.dequeue (.bare true 2)), .pump (.call 0 .opened),
    .pump (.call 1 .opened), .pump (.call 0 .written), .pump (.call 1 .written), .accept 0, .accept 1,
    .client (.lookup 0), .client (.lookup 1)]

def drainedInOrder : List LinkLabel :=
  twoCalls ++ [.decode 0 0 noon, .client (.deliver 0), .decode 1 1 noon, .client (.deliver 1)] ++
    receives 0 ++ receives 1

theorem cursor_acknowledges_drainedInOrder :
    ∃ s, Reachable ((connectionSystem toolConfig).restrict
        (fun s l => s.acknowledges toolConfig l = true)) s ∧
      (0, AccessUnit.bare true 1) ∈ s.link.log ∧
      s.client.lastSeenSeq.lookup toolConfig.track = some 2 ∧
      ∃ i y, Conveys toolConfig (.bare true 1) y ∧ s.Returns toolConfig i y :=
  exists_run_given_imp drainedInOrder (fun s hs (hp : (0, AccessUnit.bare true 1) ∈ s.link.log ∧
    s.client.lastSeenSeq.lookup toolConfig.track = some 2) =>
      ⟨hp.1, hp.2, cursor_acknowledges hs hp.1 hp.2 (by decide)⟩) (by decide +kernel)

def secondFirst : List LinkLabel :=
  twoCalls ++ [.decode 1 1 noon, .client (.deliver 1)] ++ receives 0

/-- The cursor is 2, and the complete unit with Seq 1 was not returned. -/
theorem first_call_skipped :
    ∃ s, Reachable (connectionSystem toolConfig) s ∧ (0, AccessUnit.bare true 1) ∈ s.link.log ∧
      s.client.lastSeenSeq.lookup toolConfig.track = some 2 ∧
      (s.view toolConfig).calls = [some (.returned (.bare true 2) none)] ∧
      ¬ ∃ i y, Conveys toolConfig (.bare true 1) y ∧ s.Returns toolConfig i y := by
  refine exists_run_imp secondFirst (fun s hs (hp : (0, AccessUnit.bare true 1) ∈ s.link.log ∧
    s.client.lastSeenSeq.lookup toolConfig.track = some 2 ∧
    (s.view toolConfig).calls = [some (.returned (.bare true 2) none)]) => ?_) (by decide +kernel)
  obtain ⟨hlog, hcursor, hcalls⟩ := hp
  refine ⟨hlog, hcursor, hcalls, ?_⟩
  rintro ⟨i, y, hconv, hret⟩
  -- the only call has returned the other unit
  have hmem := mem_of_getElem? (hret : (s.view toolConfig).calls[i]? = _)
  rw [hcalls, mem_singleton] at hmem
  obtain ⟨rfl, -⟩ := RecvOnPhase.returned.inj (some.inj hmem)
  exact absurd hconv.seq_eq (by decide)

end Connection

end QuicRTC

import QuicRTC.Client.Link

/-! # Decode Order at the Client

The pump writes in Seq order, every stream is read in order, and the queue of a track is FIFO. What
is not ordered is the hand-over: a drain that has decoded a frame may wait while the drain of the
next GOP delivers its keyframe and more.
-/

namespace QuicRTC

open Wire Client LTS List Option Slots

/-! ## Turns -/

def DrainView.holds : DrainView → Bool
  | .holding _ => true
  | _ => false

namespace Client.TrackView

def busy (v : TrackView) : Bool := v.drains.any (fun d => d.any DrainView.holds)

def Received (v : TrackView) (i : Nat) (au : AccessUnit) : Prop :=
  v.calls[i]? = some (some (.taken au)) ∨ v.calls[i]? = some (some (.returned au none))

def Holding (v : TrackView) (i : Nat) (au : AccessUnit) : Prop :=
  v.drains[i]? = some (some (.holding au))

end Client.TrackView

namespace Link

/-- A frame completes only with a Seq above those before it. -/
def ascends (x : Link) : LinkLabel → Bool
  | .pump l =>
    match x.pump.completes l with
    | some e => x.log.all (fun e' => decide (e'.2.seq < e.2.seq))
    | none => true
  | _ => true

/-- No drain of the track has a frame in hand, and none has read past this one. -/
def inTurn (x : Link) (v : TrackView) : LinkLabel → Bool
  | .decode _ j _ => !v.busy && x.sources.all (fun s => s.all (fun s => decide (s.2 ≤ j)))
  | _ => true

end Link

/-! ## Who has what -/

/-- What a step of the client does to the queue and to those who have a unit. -/
inductive QueueMove (v : TrackView) : TrackView → Prop where
  /-- Nobody has anything new. -/
  | quiet {v'} (ch : v'.ch = v.ch) (held : ∀ i au, v'.Holding i au → v.Holding i au)
      (received : ∀ i au, v'.Received i au → v.Received i au) : QueueMove v v'
  | deliver {i au ch} (get : v.Holding i au) (sent : v.ch.trySend au = some ch) :
      QueueMove v { v.setDrain i (some .reading) with ch := ch }
  | take {i au ch} (received : v.ch.tryRecv = some (au, ch)) :
      QueueMove v { v.setCall i (.taken au) with ch := ch }

variable {i : Nat} {d : Option DrainView} {v : TrackView}

theorem received_setCall {m phase y ch cursor}
    (h : TrackView.Received { v.setCall i phase with ch := ch, cursor := cursor } m y) :
    (m = i ∧ (phase = .taken y ∨ phase = .returned y none)) ∨ v.Received m y := by
  rcases h with h | h
  · rcases getElem?_set_cases h with ⟨rfl, heq⟩ | ⟨-, hold⟩
    · exact .inl ⟨rfl, .inl (some.inj heq).symm⟩
    · exact .inr (.inl hold)
  · rcases getElem?_set_cases h with ⟨rfl, heq⟩ | ⟨-, hold⟩
    · exact .inl ⟨rfl, .inr (some.inj heq).symm⟩
    · exact .inr (.inr hold)

theorem holding_of_setDrain
    (hd : ∀ au, d ≠ some (.holding au)) : ∀ m au, (v.setDrain i d).Holding m au → v.Holding m au := by
  intro m au hm
  rcases getElem?_set_cases hm with ⟨-, heq⟩ | ⟨-, hold⟩
  · exact absurd heq.symm (hd au)
  · exact hold

theorem holding_of_snoc (hd : ∀ au, d ≠ some (.holding au)) :
    ∀ m au, TrackView.Holding { v with drains := v.drains ++ [d] } m au → v.Holding m au := by
  intro m au hm
  rcases getElem?_snoc_cases hm with hold | ⟨-, heq⟩
  · exact hold
  · exact absurd heq.symm (hd au)

theorem moves_setDrain (hd : ∀ au, d ≠ some (.holding au)) : QueueMove v (v.setDrain i d) :=
  .quiet rfl (holding_of_setDrain hd) (fun _ _ hm => hm)

theorem queueMove_setCall {phase cursor}
    (hphase : ∀ au, phase = .taken au ∨ phase = .returned au none → v.Received i au) :
    QueueMove v { v.setCall i phase with cursor := cursor } := by
  refine .quiet rfl (fun m au hm => hm) (fun m au hm => ?_)
  have hm' : TrackView.Received { v.setCall i phase with ch := v.ch, cursor := cursor } m au := hm
  rcases received_setCall hm' with ⟨rfl, heq⟩ | hold
  · exact hphase au heq
  · exact hold

theorem moves_call {phase} (hphase : phase = none ∨ phase = some .looked) :
    QueueMove v { v with calls := v.calls ++ [phase] } := by
  refine .quiet rfl (fun m au hm => hm) (fun m au hm => ?_)
  rcases hm with hm | hm
  · rcases getElem?_snoc_cases hm with hold | ⟨-, heq⟩
    · exact .inl hold
    · rcases hphase with rfl | rfl <;> cases heq
  · rcases getElem?_snoc_cases hm with hold | ⟨-, heq⟩
    · exact .inr hold
    · rcases hphase with rfl | rfl <;> cases heq

theorem not_received_of_le {n} (h : v.calls.length ≤ n) (z : AccessUnit) : ¬ v.Received n z := by
  have hnone : v.calls[n]? = none := getElem?_eq_none h
  intro hz
  rcases hz with hz | hz <;> (rw [hnone] at hz; cases hz)

theorem queueMove_of_trackStep {t slot st v'} (hslot : slot ≠ some none)
    (hquiet : accepts st = false) (hundecoded : ∀ i f, st ≠ .decode i f)
    (hstep : TrackStep t slot v st v') : QueueMove v v' := by
  cases hstep with
  | same => exact .quiet rfl (fun i au h => h) (fun i au h => h)
  | lookup | stop => exact moves_setDrain nofun
  | @decode i f => exact absurd rfl (hundecoded i f)
  | deliver hget hsent => exact .deliver hget hsent
  | called => exact moves_call (.inr rfl)
  | foreignCall => exact moves_call (.inl rfl)
  | moved _ _ _ hempty =>
    refine queueMove_setCall (fun au heq => ?_)
    rcases hempty with ⟨d, rfl⟩ | rfl | ⟨err, rfl⟩ <;> rcases heq with heq | heq <;> cases heq
  | take _ hrecv => exact .take hrecv
  | @observe i au hget =>
    refine queueMove_setCall (fun y heq => ?_)
    rcases heq with heq | heq
    · cases heq
    · obtain ⟨rfl, -⟩ := RecvOnPhase.returned.inj heq
      exact .inl hget
  | nilError _ _ _ hnil => exact absurd hnil hslot
  | _ => cases hquiet

/-! ## The invariant -/

def HasRead (x : Link) (seq : UInt32) : Prop :=
  ∃ k p m e, some (k, p) ∈ x.sources ∧ m < p ∧ x.log[m]? = some e ∧ e.2.seq = seq

/-- The log and the queue ascend, and a frame in hand is above the queue. -/
structure InOrder (x : Link) (v : TrackView) : Prop where
  log : x.log.Pairwise (fun e e' => e.2.seq < e'.2.seq)
  queued : ∀ au ∈ v.ch.sent, HasRead x au.seq
  held : ∀ i au, v.Holding i au → HasRead x au.seq
  one : ∀ i j au au', v.Holding i au → v.Holding j au' → i = j
  sorted : v.ch.sent.Pairwise (fun au au' => au.seq < au'.seq)
  above : ∀ i au, v.Holding i au → ∀ y ∈ v.ch.sent, y.seq < au.seq
  received : ∀ i au, v.Received i au → au ∈ v.ch.got

theorem seq_lt_of_place {log : List (Nat × AccessUnit)} (h : log.Pairwise (fun e e' => e.2.seq < e'.2.seq))
    {m j : Nat} {e e' : Nat × AccessUnit} (hm : log[m]? = some e) (hj : log[j]? = some e') (hlt : m < j) :
    e.2.seq < e'.2.seq := by
  obtain ⟨hm', rfl⟩ := List.getElem?_eq_some_iff.mp hm
  obtain ⟨hj', rfl⟩ := List.getElem?_eq_some_iff.mp hj
  exact pairwise_iff_getElem.mp h m j hm' hj' hlt

theorem pairwise_completes {x : Link} {l} (h : x.log.Pairwise (fun e e' => e.2.seq < e'.2.seq))
    (hasc : x.ascends (.pump l) = true) :
    (x.log ++ (x.pump.completes l).toList).Pairwise (fun e e' => e.2.seq < e'.2.seq) := by
  simp only [Link.ascends] at hasc
  split at hasc
  · next e he =>
    rw [he]
    exact pairwise_snoc h (fun a ha => of_decide_eq_true (all_eq_true.mp hasc a ha))
  · next hnone =>
    rw [hnone, toList_none, append_nil]
    exact h

theorem HasRead.mono {x' : Link} {x seq} (h : HasRead x seq) (hlog : x.log <+: x'.log)
    (hsources : ∀ k p, some (k, p) ∈ x.sources → ∃ p', p ≤ p' ∧ some (k, p') ∈ x'.sources) :
    HasRead x' seq := by
  obtain ⟨k, p, m, e, hs, hlt, hm, hseq⟩ := h
  obtain ⟨p', hle, hs'⟩ := hsources k p hs
  have hm' := lt_of_getElem? hm
  obtain ⟨rest, hrest⟩ := hlog
  refine ⟨k, p', m, e, hs', Nat.lt_of_lt_of_le hlt hle, ?_, hseq⟩
  rw [← hrest, getElem?_append_left hm', hm]

theorem busy_of_holding {au} (h : v.Holding i au) : v.busy = true := by
  apply any_eq_true.mpr
  exact ⟨_, mem_of_getElem? h, rfl⟩

namespace InOrder

variable {x : Link} {v : TrackView}

theorem init (cfg : StreamConfig) (t : GoString) : InOrder (.start cfg) (Client.start.view t) := by
  have hch : (Client.start.view t).ch.sent = [] := sent_queue_start t
  have hidle : ∀ i au, ¬ (Client.start.view t).Holding i au := nofun
  refine ⟨Pairwise.nil, fun au hau => ?_, fun i au h => absurd h (hidle i au),
    fun i j au au' h => absurd h (hidle i au), ?_, fun i au h => absurd h (hidle i au), fun i au h => ?_⟩
  · rw [hch] at hau
    cases hau
  · rw [hch]
    exact Pairwise.nil
  · rcases h with h | h <;> cases h

theorem relink {x' : Link} (h : InOrder x v) (hlog : x.log <+: x'.log)
    (hpair : x'.log.Pairwise (fun e e' => e.2.seq < e'.2.seq))
    (hsources : ∀ k p, some (k, p) ∈ x.sources → ∃ p', p ≤ p' ∧ some (k, p') ∈ x'.sources) :
    InOrder x' v :=
  ⟨hpair, fun au hau => (h.queued au hau).mono hlog hsources,
    fun i au hi => (h.held i au hi).mono hlog hsources, h.one, h.sorted, h.above, h.received⟩

variable {au : AccessUnit} {i j k p : Nat} {v' : TrackView}

theorem frame (h : InOrder x v) (hch : v'.ch = v.ch)
    (hdrains : ∀ i au, v'.Holding i au → v.Holding i au)
    (hcalls : ∀ i au, v'.Received i au → v.Received i au) : InOrder x v' := by
  refine ⟨h.log, ?_, fun i au hi => h.held i au (hdrains i au hi),
    fun i j au au' hi hj => h.one i j au au' (hdrains i au hi) (hdrains j au' hj), ?_,
    fun i au hi => ?_, fun i au hi => ?_⟩
  · rw [hch]
    exact h.queued
  · rw [hch]
    exact h.sorted
  · rw [hch]
    exact h.above i au (hdrains i au hi)
  · rw [hch]
    exact h.received i au (hcalls i au hi)

theorem pump (h : InOrder x v) {l} (hasc : x.ascends (.pump l) = true) (p : StreamPump) :
    InOrder { x with pump := p, log := x.log ++ (x.pump.completes l).toList } v := by
  exact h.relink (prefix_append _ _) (pairwise_completes h.log hasc) (fun k p hs => ⟨p, le_rfl, hs⟩)

theorem accept (h : InOrder x v) (source : Option (Nat × Nat)) {d}
    (hd : ∀ au, d ≠ some (.holding au)) :
    InOrder { x with sources := x.sources ++ [source] } { v with drains := v.drains ++ [d] } := by
  have h' : InOrder { x with sources := x.sources ++ [source] } v :=
    h.relink prefix_rfl h.log (fun k p hs => ⟨p, le_rfl, mem_append_left _ hs⟩)
  exact h'.frame rfl (holding_of_snoc hd) (fun i au hi => hi)

theorem mem_read (hsource : x.sources[i]? = some (some (k, p))) :
    some (k, j + 1) ∈ (x.read i j).sources := by
  apply mem_of_getElem? (i := i)
  show (x.sources.modify i _)[i]? = _
  rw [getElem?_modify_eq, hsource]
  rfl

theorem read_sources (hsource : x.sources[i]? = some (some (k, p))) (hle : p ≤ j) :
    ∀ k' p', some (k', p') ∈ x.sources → ∃ p'', p' ≤ p'' ∧ some (k', p'') ∈ (x.read i j).sources := by
  intro k' p' hmem
  obtain ⟨m, hm⟩ := mem_iff_getElem?.mp hmem
  by_cases him : i = m
  · subst him
    rw [hsource] at hm
    obtain ⟨rfl, rfl⟩ := Prod.mk.inj (some.inj (some.inj hm))
    exact ⟨j + 1, Nat.le_succ_of_le hle, mem_read hsource⟩
  · refine ⟨p', le_rfl, mem_of_getElem? (i := m) ?_⟩
    show (x.sources.modify i _)[m]? = _
    rw [getElem?_modify_ne _ _ him, hm]

theorem decode (h : InOrder x v) {e : AccessUnit} {now : WallClock}
    (hturn : x.inTurn v (.decode i j now) = true) (hsource : x.sources[i]? = some (some (k, p)))
    (hframe : x.log[j]? = some (k, e)) (hle : p ≤ j) (hseq : au.seq = e.seq) :
    InOrder (x.read i j) (v.setDrain i (some (.holding au))) := by
  obtain ⟨hidle, hall⟩ := Bool.and_eq_true_iff.mp hturn
  -- nobody else has a frame in hand
  have hnone : ∀ m y, ¬ v.Holding m y := by
    intro m y hm
    rw [busy_of_holding hm] at hidle
    cases hidle
  have honly : ∀ m y, (v.setDrain i (some (.holding au))).Holding m y → m = i ∧ y = au := by
    intro m y hm
    rcases getElem?_set_cases hm with ⟨rfl, heq⟩ | ⟨-, hold⟩
    · exact ⟨rfl, DrainView.holding.inj (some.inj heq)⟩
    · exact absurd hold (hnone m y)
  -- all that has been read is below the frame
  have hbelow : ∀ seq, HasRead x seq → seq < au.seq := by
    rintro seq ⟨k', p', m, e', hs, hlt, hm, rfl⟩
    have hp : p' ≤ j := of_decide_eq_true (all_eq_true.mp hall (some (k', p')) hs)
    rw [hseq]
    exact seq_lt_of_place h.log hm hframe (Nat.lt_of_lt_of_le hlt hp)
  have h' : InOrder (x.read i j) v := h.relink prefix_rfl h.log (read_sources hsource hle)
  refine ⟨h'.log, h'.queued, fun m y hm => ?_, fun m n y z hm hn => ?_, h'.sorted, fun m y hm z hz => ?_,
    h'.received⟩
  · obtain ⟨-, rfl⟩ := honly m y hm
    exact ⟨k, j + 1, j, (k, e), mem_read hsource, Nat.lt_succ_self j, hframe, hseq.symm⟩
  · exact (honly m y hm).1.trans (honly n z hn).1.symm
  · obtain ⟨-, rfl⟩ := honly m y hm
    exact hbelow z.seq (h.queued z hz)

theorem deliver (h : InOrder x v) {ch} (hget : v.Holding i au) (hsent : v.ch.trySend au = some ch) :
    InOrder x { v.setDrain i (some .reading) with ch := ch } := by
  obtain ⟨-, hch, hgot⟩ := LoggedChan.trySend_spec hsent
  -- it was the only one
  have hnone : ∀ m y, ¬ TrackView.Holding { v.setDrain i (some .reading) with ch := ch } m y := by
    intro m y hm
    rcases getElem?_set_cases hm with ⟨-, heq⟩ | ⟨hne, hold⟩
    · cases heq
    · exact hne (h.one m i y au hold hget)
  refine ⟨h.log, ?_, fun m y hm => absurd hm (hnone m y), fun m n y z hm => absurd hm (hnone m y), ?_,
    fun m y hm => absurd hm (hnone m y), fun m y hm => ?_⟩
  · rw [hch]
    exact forall_mem_snoc h.queued (h.held i au hget)
  · rw [hch]
    exact pairwise_snoc h.sorted (h.above i au hget)
  · rw [hgot]
    exact h.received m y hm

theorem take (h : InOrder x v) {ch} (hrecv : v.ch.tryRecv = some (au, ch)) :
    InOrder x { v.setCall i (.taken au) with ch := ch } := by
  obtain ⟨-, hch, hgot⟩ := LoggedChan.tryRecv_spec hrecv
  refine ⟨h.log, ?_, h.held, h.one, ?_, fun m y hm => ?_, fun m y hm => ?_⟩
  · rw [hch]
    exact h.queued
  · rw [hch]
    exact h.sorted
  · rw [hch]
    exact h.above m y hm
  · rw [hgot]
    rcases received_setCall hm with ⟨-, heq⟩ | hold
    · obtain rfl : y = au := by
        rcases heq with heq | heq
        · exact (RecvOnPhase.taken.inj heq).symm
        · cases heq
      exact mem_concat_self
    · exact mem_append_left _ (h.received m y hold)

theorem moves (h : InOrder x v) (hmoves : QueueMove v v') : InOrder x v' := by
  cases hmoves with
  | quiet hch hheld hreceived => exact h.frame hch hheld hreceived
  | deliver hget hsent => exact h.deliver hget hsent
  | take hrecv => exact h.take hrecv

theorem step {cfg slot l x'} (h : InOrder x v) (hslot : slot ≠ some none)
    (hasc : x.ascends l = true) (hturn : x.inTurn v l = true)
    (hstep : LinkStep cfg slot x v l x' v') : InOrder x' v' := by
  cases hstep with
  | pump => exact h.pump hasc _
  | decode hsource hframe hle => exact h.decode hturn hsource hframe hle rfl
  | foreignDecode => exact h
  | client hquiet hundecoded hview => exact h.moves (queueMove_of_trackStep hslot hquiet hundecoded hview)
  | _ => exact h.accept _ nofun

end InOrder

/-! ## The returns of later calls -/

/-- Every call from number `n` on has received only what is above `seq`. -/
structure Later (n : Nat) (seq : UInt32) (v : TrackView) : Prop where
  got : ∃ y ∈ v.ch.got, y.seq = seq
  after : ∀ j au, n ≤ j → v.Received j au → seq < au.seq

namespace Later

variable {n : Nat} {seq : UInt32} {x : Link} {v : TrackView}

theorem mono {v' : TrackView} (h : Later n seq v) (hgot : v'.ch.got = v.ch.got)
    (hcalls : ∀ j au, n ≤ j → v'.Received j au → v.Received j au) : Later n seq v' := by
  refine ⟨?_, fun j au hj hau => h.after j au hj (hcalls j au hj hau)⟩
  rw [hgot]
  exact h.got

theorem take (h : Later n seq v) (hord : InOrder x v) {i au ch}
    (hrecv : v.ch.tryRecv = some (au, ch)) :
    Later n seq { v.setCall i (.taken au) with ch := ch } := by
  obtain ⟨hbuf, -, hgot⟩ := LoggedChan.tryRecv_spec hrecv
  obtain ⟨y, hy, hyseq⟩ := h.got
  have hsorted := hord.sorted
  rw [v.ch.fifo, hbuf, pairwise_append] at hsorted
  have hlt : seq < au.seq := hyseq ▸ hsorted.2.2 y hy au mem_cons_self
  refine ⟨⟨y, hgot ▸ mem_append_left _ hy, hyseq⟩, fun j z hj hz => ?_⟩
  rcases received_setCall hz with ⟨-, heq⟩ | hold
  · rcases heq with heq | heq
    · exact RecvOnPhase.taken.inj heq ▸ hlt
    · cases heq
  · exact h.after j z hj hold

theorem moves {v'} (h : Later n seq v) (hord : InOrder x v) (hmoves : QueueMove v v') :
    Later n seq v' := by
  cases hmoves with
  | quiet hch _ hreceived => exact h.mono (by rw [hch]) (fun j au _ hau => hreceived j au hau)
  | deliver _ hsent =>
    obtain ⟨-, -, hgot⟩ := LoggedChan.trySend_spec hsent
    exact h.mono hgot (fun j au _ hau => hau)
  | take hrecv => exact h.take hord hrecv

theorem step {cfg slot l x' v'} (h : Later n seq v) (hord : InOrder x v) (hslot : slot ≠ some none)
    (hstep : LinkStep cfg slot x v l x' v') : Later n seq v' := by
  cases hstep with
  | client hquiet hundecoded hview =>
    exact h.moves hord (queueMove_of_trackStep hslot hquiet hundecoded hview)
  | _ => exact h.mono rfl (fun j au _ hau => hau)

end Later

namespace Connection

def Returns (cfg : StreamConfig) (s : Connection) (i : Nat) (au : AccessUnit) : Prop :=
  (s.view cfg).calls[i]? = some (some (.returned au none))

instance (cfg : StreamConfig) (s : Connection) (i : Nat) (au : AccessUnit) :
    Decidable (s.Returns cfg i au) := inferInstanceAs (Decidable (_ = _))

/-- The drains take turns, the track is not unannounced, and no CLOSE frame puts nil into
    the slot. -/
def takesTurns (cfg : StreamConfig) (s : Connection) (l : LinkLabel) : Bool :=
  s.link.inTurn (s.view cfg) l && keepsLabel cfg l &&
    match l with
    | .client st => s.client.slotTaken st
    | _ => true

structure Delivery (cfg : StreamConfig) (s : Connection) : Prop where
  single : Single cfg.track s.client
  aligned : Aligned cfg s.link s.client
  sourced : Sourced s.client
  order : InOrder s.link (s.view cfg)

/-- The pump writes in Seq order, and the condition holds. -/
def orderlySystem (cfg : StreamConfig) : System Connection LinkLabel :=
  (connectionSystem cfg).restrict (fun s l => (s.link.ascends l && s.takesTurns cfg l) = true)

theorem sourced_after {cfg} {s : Connection} {l x c st} (h : Sourced s.client)
    (hturns : s.takesTurns cfg l = true) (hlink : s.link.next cfg l = some (x, st))
    (hclient : s.client.after st = some c) : Sourced c := by
  obtain ⟨-, hslot⟩ := Bool.and_eq_true_iff.mp hturns
  cases l with
  | pump l =>
    obtain ⟨p, -, heq⟩ := map_eq_some_iff.mp hlink
    obtain ⟨rfl, rfl⟩ := Prod.mk.inj heq
    exact some.inj hclient ▸ h
  | accept k =>
    obtain ⟨-, heq⟩ := ite_none_right_eq_some.mp hlink
    cases heq
    have heffect : Client.Effect s.client (.stream cfg.1.trackName) c := effect_of_next hclient
    exact h.step rfl heffect
  | decode i j now =>
    obtain ⟨au, -, heq⟩ := map_eq_some_iff.mp hlink
    obtain ⟨rfl, rfl⟩ := Prod.mk.inj heq
    have heffect : Client.Effect s.client (.decode i (cfg.frame now au)) c := effect_of_next hclient
    exact h.step rfl heffect
  | client st' =>
    obtain ⟨-, heq⟩ := ite_none_right_eq_some.mp hlink
    cases heq
    exact h.step hslot (effect_of_next hclient)

namespace Delivery

variable {cfg : StreamConfig} {s s' : Connection} {l : LinkLabel}

theorem init (cfg : StreamConfig) : Delivery cfg (start cfg) :=
  ⟨Single.init _, Aligned.init cfg, Sourced.init, InOrder.init cfg _⟩

theorem linkStep (h : Delivery cfg s) (hturns : s.takesTurns cfg l = true)
    (hnext : next cfg s l = some s') :
    LinkStep cfg s.client.feedErr s.link (s.view cfg) l s'.link (s'.view cfg) := by
  obtain ⟨hrest, -⟩ := Bool.and_eq_true_iff.mp hturns
  obtain ⟨-, hkeeps⟩ := Bool.and_eq_true_iff.mp hrest
  obtain ⟨st, hlink, hclient⟩ := next_eq_some hnext
  exact (linkStep_of_next h.single h.aligned hkeeps hlink hclient).1

theorem step (h : Delivery cfg s) (hasc : s.link.ascends l = true) (hturns : s.takesTurns cfg l = true)
    (hnext : next cfg s l = some s') : Delivery cfg s' := by
  have hstep := h.linkStep hturns hnext
  obtain ⟨hrest, -⟩ := Bool.and_eq_true_iff.mp hturns
  obtain ⟨hturn, hkeeps⟩ := Bool.and_eq_true_iff.mp hrest
  obtain ⟨st, hlink, hclient⟩ := next_eq_some hnext
  obtain ⟨-, hsingle, haligned⟩ := linkStep_of_next h.single h.aligned hkeeps hlink hclient
  exact ⟨hsingle, haligned, sourced_after h.sourced hturns hlink hclient,
    h.order.step h.sourced.slot hasc hturn hstep⟩

end Delivery

theorem delivery_of_reachable {cfg} : ∀ s, Reachable (orderlySystem cfg) s → Delivery cfg s := by
  refine invariant_restrict _ (Delivery.init cfg) ?_
  intro s l s' _ h hok hnext
  obtain ⟨hasc, hturns⟩ := Bool.and_eq_true_iff.mp hok
  exact h.step hasc hturns hnext

/-- **Decode order.** Once `RecvOn` has returned an access unit, no call made after that
    returns one with a lower Seq. -/
theorem recvOn_decode_order {cfg : StreamConfig} {s s' : Connection}
    (h : Reachable (orderlySystem cfg) s) (hsteps : (orderlySystem cfg).Steps s s')
    {i : Nat} {k : AccessUnit} (hreturned : s.Returns cfg i k) {j : Nat} {au : AccessUnit}
    (hlater : s.client.calls.length ≤ j) (hau : s'.Returns cfg j au) : ¬ au.seq < k.seq := by
  have hinv := delivery_of_reachable s h
  -- the keyframe has been received, and no later call has been made yet
  have hstart : Later s.client.calls.length k.seq (s.view cfg) := by
    have hlen : (s.view cfg).calls.length = s.client.calls.length := length_map _
    refine ⟨⟨k, hinv.order.received i k (.inr hreturned), rfl⟩, fun m y hm hy => ?_⟩
    exact absurd hy (not_received_of_le (hlen ▸ hm) y)
  have hend : Later s.client.calls.length k.seq (s'.view cfg) := by
    refine h.keeps (Delivery cfg) (fun s => Later _ k.seq (s.view cfg)) delivery_of_reachable ?_ hstart hsteps
    intro s l s' hd hl hstep
    obtain ⟨hok, hnext⟩ := hstep
    obtain ⟨-, hturns⟩ := Bool.and_eq_true_iff.mp hok
    exact hl.step hd.order hd.sourced.slot (hd.linkStep hturns hnext)
  have hlt := hend.after j au hlater (.inr hau)
  exact UInt32.not_lt.mpr (UInt32.le_of_lt hlt)

/-- A stream per GOP and no headers. -/
def videoConfig : StreamConfig := ⟨FeedConfig.zero, by decide⟩

theorem noon_ne_zero : (1 : UInt64) ≠ 0 := by decide

def noon : WallClock := ⟨1, noon_ne_zero⟩

def firstGOP : List LinkLabel :=
  [.pump (.dequeue (.bare true 1)), .pump (.call 0 .opened), .pump (.call 0 .written),
    .pump (.dequeue (.bare false 2)), .pump (.call 0 .written)]

/-- It resets that stream and writes units 3 and 4 on the next one. -/
def secondGOP : List LinkLabel :=
  [.pump (.dequeue (.bare true 3)), .pump (.call 0 .opened), .pump (.call 0 .written),
    .pump (.dequeue (.bare false 4)), .pump (.call 0 .written)]

def receives (call : Nat) : List LinkLabel :=
  [.client (.recvOn (str "primary")), .client (.findDone call), .client (.take call),
    .client (.observe call)]

/-- The first drain delivers its frames, then the second its keyframe. -/
def inTurns : List LinkLabel :=
  firstGOP ++ [.accept 0, .client (.lookup 0), .decode 0 0 noon, .client (.deliver 0), .decode 0 1 noon,
    .client (.deliver 0)] ++ secondGOP ++ [.accept 1, .client (.lookup 1), .decode 1 2 noon,
    .client (.deliver 1)] ++ receives 0 ++ receives 1 ++ receives 2

theorem recvOn_decode_order_inTurns :
    ∃ s s', Reachable (orderlySystem videoConfig) s ∧ (orderlySystem videoConfig).Steps s s' ∧
      s.Returns videoConfig 2 (.bare true 3) ∧ s.client.calls.length ≤ 3 ∧
      s'.Returns videoConfig 3 (.bare false 4) ∧ ¬ (AccessUnit.bare false 4).seq < (AccessUnit.bare true 3).seq := by
  obtain ⟨s, s', hs, hsteps, hp⟩ := exists_steps (start videoConfig) (next videoConfig)
    (fun s l => s.link.ascends l && s.takesTurns videoConfig l)
    (fun s s' => decide (s.Returns videoConfig 2 (.bare true 3)) && decide (s.client.calls.length ≤ 3) &&
      decide (s'.Returns videoConfig 3 (.bare false 4)))
    inTurns ([.decode 1 3 noon, .client (.deliver 1)] ++ receives 3) (by decide +kernel)
  simp only [Bool.and_eq_true, decide_eq_true_eq] at hp
  obtain ⟨⟨hk, hlen⟩, hau⟩ := hp
  exact ⟨s, s', hs, hsteps, hk, hlen, hau, recvOn_decode_order hs hsteps hk hlen hau⟩

/-- Frame 2 is in hand while the second drain delivers its keyframe, which is returned. -/
def overtaken : List LinkLabel :=
  firstGOP ++ [.accept 0, .client (.lookup 0), .decode 0 0 noon, .client (.deliver 0),
    .decode 0 1 noon] ++ secondGOP ++ [.accept 1, .client (.lookup 1), .decode 1 2 noon,
    .client (.deliver 1)] ++ receives 0 ++ receives 1

/-- After the keyframe with Seq 3 a later call returns the P-frame with
    Seq 2. -/
theorem pframe_after_keyframe :
    ∃ s s', Reachable ((connectionSystem videoConfig).restrict
        (fun s l => s.link.ascends l = true)) s ∧
      ((connectionSystem videoConfig).restrict (fun s l => s.link.ascends l = true)).Steps s s' ∧
      s.Returns videoConfig 1 (.bare true 3) ∧ s.client.calls.length ≤ 2 ∧
      s'.Returns videoConfig 2 (.bare false 2) := by
  obtain ⟨s, s', hs, hsteps, hp⟩ := exists_steps (start videoConfig) (next videoConfig)
    (fun s l => s.link.ascends l)
    (fun s s' => decide (s.Returns videoConfig 1 (.bare true 3)) && decide (s.client.calls.length ≤ 2) &&
      decide (s'.Returns videoConfig 2 (.bare false 2)))
    overtaken ([.client (.deliver 0)] ++ receives 2) (by decide +kernel)
  simp only [Bool.and_eq_true, decide_eq_true_eq] at hp
  obtain ⟨⟨hk, hlen⟩, hau⟩ := hp
  exact ⟨s, s', hs, hsteps, hk, hlen, hau⟩

end Connection

end QuicRTC

import QuicRTC.Client.DecodeOrder
import QuicRTC.Relay.Relay

/-! # One Session of the Relay in Order

What the server's pump has read ascends, the frames it completes are some of that, the client hands
them on in order, and the one pump of the relay for the track publishes what its calls return. The
floor is the cursor of the session's HELLO, above which the server resumes.
-/

namespace QuicRTC

open Wire Client List Option Slots

/-! ## What the pump has read -/

/-- On the streams, and then in hand, is some of what the pump has read. -/
structure Reads (read : List AccessUnit) (x : Link) : Prop where
  sequential : x.pump.isSequential = true
  sub : (x.log.map Prod.snd ++ x.pump.inHand.toList).Sublist read

namespace Reads

variable {read : List AccessUnit} {x : Link} {named : Bool} {p : StreamPump} {l : SendLabel}

theorem ascends (h : Reads read x) (hread : read.Pairwise (fun a b => a.seq < b.seq))
    (hnext : x.pump.next named l = some p) : x.ascends (.pump l) = true := by
  obtain hnone | ⟨⟨k, au⟩, hdone⟩ := eq_none_or_eq_some (x.pump.completes l)
  · simp only [Link.ascends, hnone]
  · simp only [Link.ascends, hdone]
    have hhand : x.pump.inHand = some au := by
      cases (StreamPump.handles_of_next h.sequential hnext).1 with
      | dequeue => cases hdone
      | works hopen => cases hopen.symm.trans hdone
      | completes hdone' hhand =>
        obtain ⟨-, rfl⟩ := Prod.mk.inj (mem_unique hdone' hdone)
        exact hhand
    have hsorted := hread.sublist h.sub
    rw [hhand] at hsorted
    apply all_eq_true.mpr
    intro e he
    exact decide_eq_true ((pairwise_append.mp hsorted).2.2 e.2 (mem_map_of_mem he) au
      (mem_singleton_self au))

theorem pump (h : Reads read x) (hl : ∀ au, l ≠ .dequeue au) (hnext : x.pump.next named l = some p) :
    Reads read { x with pump := p, log := x.log ++ (x.pump.completes l).toList } := by
  obtain ⟨hhandles, hseq⟩ := StreamPump.handles_of_next h.sequential hnext
  refine ⟨hseq, ?_⟩
  cases hhandles with
  | @dequeue au => exact absurd rfl (hl au)
  | works hopen hhand =>
    simp only [hopen, toList_none, append_nil]
    rcases hhand with hhand | hhand
    · rw [hhand]
      exact h.sub
    · rw [hhand]
      exact ((Sublist.refl _).append (nil_sublist _)).trans h.sub
  | completes hdone hhand hidle =>
    have hsub := h.sub
    rw [hhand] at hsub
    simpa only [hdone, hidle, toList_some, toList_none, map_append, map_cons,
      map_nil, append_nil] using hsub

theorem dequeue (h : Reads read x) {au} (hnext : x.pump.next named (.dequeue au) = some p) :
    Reads (read ++ [au]) { x with pump := p, log := x.log ++ (x.pump.completes (.dequeue au)).toList } := by
  obtain ⟨hhandles, hseq⟩ := StreamPump.handles_of_next h.sequential hnext
  have hlog : x.log ++ (x.pump.completes (.dequeue au)).toList = x.log := append_nil _
  have hold : (x.log.map Prod.snd).Sublist read := (sublist_append_left _ _).trans h.sub
  refine ⟨hseq, ?_⟩
  rw [hlog]
  have hhand : p.inHand = some au ∨ p.inHand = x.pump.inHand ∨ p.inHand = none := by
    cases hhandles with
    | dequeue _ hhand => exact hhand.imp_right .inr
    | works _ hhand => exact .inr hhand
    | completes hdone => cases hdone
  rcases hhand with hhand | hhand | hhand
  · rw [hhand]
    exact hold.append (Sublist.refl _)
  · rw [hhand]
    exact h.sub.trans (sublist_append_left _ _)
  · rw [hhand, toList_none, append_nil]
    exact hold.trans (sublist_append_left _ _)

end Reads

theorem received_of_linkStep {cfg slot x x' v v' l} (hord : InOrder x v) (hslot : slot ≠ some none)
    (hstep : LinkStep cfg slot x v l x' v') {n z} (hz : v'.Received n z) :
    v.Received n z ∨ z ∈ v.ch.sent ∧ ∀ y ∈ v.ch.got, y.seq < z.seq := by
  cases hstep with
  | client hquiet hundecoded hview =>
    cases queueMove_of_trackStep hslot hquiet hundecoded hview with
    | quiet _ _ hreceived => exact .inl (hreceived n z hz)
    | deliver => exact .inl hz
    | take hrecv =>
      obtain ⟨hbuf, -, -⟩ := LoggedChan.tryRecv_spec hrecv
      rcases received_setCall hz with ⟨-, heq⟩ | hold
      · right
        rcases heq with heq | heq
        · obtain rfl := RecvOnPhase.taken.inj heq
          have hsorted := hord.sorted
          rw [v.ch.fifo, hbuf] at hsorted ⊢
          exact ⟨mem_append_right _ mem_cons_self,
            fun y hy => (pairwise_append.mp hsorted).2.2 y hy _ mem_cons_self⟩
        · cases heq
      · exact .inl hold
  | _ => exact .inl hz

theorem got_of_linkStep {cfg slot x x' v v' l} (hslot : slot ≠ some none)
    (hstep : LinkStep cfg slot x v l x' v') : v.ch.got <+: v'.ch.got := by
  cases hstep with
  | client hquiet hundecoded hview =>
    cases queueMove_of_trackStep hslot hquiet hundecoded hview with
    | quiet hch => exact hch ▸ prefix_rfl
    | deliver _ hsent =>
      obtain ⟨-, -, hgot⟩ := LoggedChan.trySend_spec hsent
      exact hgot ▸ prefix_rfl
    | take hrecv =>
      obtain ⟨-, -, hgot⟩ := LoggedChan.tryRecv_spec hrecv
      exact hgot ▸ prefix_append _ _
  | _ => exact prefix_rfl

/-! ## The pumps of the relay -/

def Pump.Serves (t : GoString) (p : Pump) : Prop := p.track = t ∧ p.phase ≠ .stopped

instance (t : GoString) (p : Pump) : Decidable (p.Serves t) := inferInstanceAs (Decidable (_ ∧ _))

/-- A pump waits for a call on its own track, and one at most serves the track. -/
structure PumpsOk (t : GoString) (r : Relay) : Prop where
  calls : ∀ p ∈ r.pumps, ∀ n, p.phase = .receiving n →
            (r.client.calls.map RecvOnCall.track)[n]? = some p.track
  lone : ∀ (a b : Nat) (p p' : Pump), r.pumps[a]? = some p → r.pumps[b]? = some p' →
            p.Serves t → p'.Serves t → a = b

namespace PumpsOk

variable {t : GoString} {r : Relay}

theorem startPump (h : PumpsOk t r) (name : GoString) (claimed : Bool) :
    PumpsOk t (r.startPump name claimed) := by
  unfold Relay.startPump
  split
  · exact h
  · next hfree =>
    split
    · exact h
    · split
      · -- nobody serves the name yet
        have hnone : ∀ p ∈ r.pumps, p.Serves t → name ≠ t := by
          rintro p hp ⟨rfl, hphase⟩ rfl
          apply hfree
          exact mem_map_of_mem (mem_filter.mpr ⟨hp, decide_eq_true hphase⟩)
        refine ⟨?_, fun a b p p' ha hb hp hp' => ?_⟩
        · exact forall_mem_snoc h.calls (fun n hn => PumpPhase.noConfusion hn)
        · rcases getElem?_snoc_cases ha with ha | ⟨rfl, rfl⟩
          · rcases getElem?_snoc_cases hb with hb | ⟨rfl, rfl⟩
            · exact h.lone a b p p' ha hb hp hp'
            · exact absurd hp'.1 (hnone p (mem_of_getElem? ha) hp)
          · rcases getElem?_snoc_cases hb with hb | ⟨rfl, rfl⟩
            · exact absurd hp.1 (hnone p' (mem_of_getElem? hb) hp')
            · rfl
      · exact h

theorem client (h : PumpsOk t r) {c} (hgrows : Grows r.client c) :
    PumpsOk t { r with client := c } := by
  refine ⟨fun p hp n hn => ?_, h.lone⟩
  have hold := h.calls p hp n hn
  have hlt := lt_of_getElem? hold
  obtain ⟨more, hmore⟩ := hgrows.1
  rw [← hmore, getElem?_append_left hlt]
  exact hold

theorem setPump (h : PumpsOk t r) {i track phase phase'} (hget : r.pumps[i]? = some ⟨track, phase⟩)
    (hphase : phase ≠ .stopped)
    (hcall : ∀ n, phase' = .receiving n → (r.client.calls.map RecvOnCall.track)[n]? = some track) :
    PumpsOk t (r.setPump i ⟨track, phase'⟩) := by
  refine ⟨forall_mem_set h.calls hcall, fun a b p p' ha hb hp hp' => ?_⟩
  have hold : ∀ (c : Nat) (q : Pump), (r.pumps.set i ⟨track, phase'⟩)[c]? = some q → q.Serves t →
      ∃ q₀ : Pump, r.pumps[c]? = some q₀ ∧ q₀.Serves t := by
    intro c q hc hq
    rcases getElem?_set_cases hc with ⟨rfl, rfl⟩ | ⟨-, hc⟩
    · exact ⟨_, hget, hq.1, hphase⟩
    · exact ⟨q, hc, hq⟩
  obtain ⟨q, hq, hqs⟩ := hold a p ha hp
  obtain ⟨q', hq', hqs'⟩ := hold b p' hb hp'
  exact h.lone a b q q' hq hq' hqs hqs'

end PumpsOk

/-! ## The session -/

/-- A session with floor `floor` whose pump has read `read`; `out` has the Seqs published so
    far, by earlier sessions too. -/
structure Carries (cfg : StreamConfig) (floor : Option UInt32) (read : List AccessUnit) (x : Link)
    (r : Relay) (out : List UInt32) : Prop where
  delivery : Connection.Delivery cfg ⟨x, r.client⟩
  reads : Reads read x
  ascending : read.Pairwise (fun a b => a.seq < b.seq)
  resumed : ∀ m, floor = some m → ∀ d ∈ read, m < d.seq
  pumps : PumpsOk cfg.track r
  below : ∀ y ∈ out, (∃ z ∈ (r.client.view cfg.track).ch.got, z.seq = y) ∨ ∃ m, floor = some m ∧ y ≤ m
  ahead : ∀ p ∈ r.pumps, p.track = cfg.track → ∀ n, p.phase = .receiving n →
                ∀ z, (r.client.view cfg.track).Received n z → ∀ y ∈ out, y < z.seq

namespace Carries

variable {cfg : StreamConfig} {floor : Option UInt32} {read : List AccessUnit} {x x' : Link}
  {r : Relay} {out : List UInt32} {l : LinkLabel} {st : Option Client.Step} {c : Client}

theorem fresh (h : Carries cfg floor read x r out) {z} (hz : z ∈ (r.client.view cfg.track).ch.sent)
    (hnew : ∀ y ∈ (r.client.view cfg.track).ch.got, y.seq < z.seq) : ∀ y ∈ out, y < z.seq := by
  intro y hy
  rcases h.below y hy with ⟨w, hw, rfl⟩ | ⟨m, hm, hle⟩
  · exact hnew w hw
  · -- the pump has read it, so it is above the floor
    obtain ⟨k, p, n, e, -, -, he, hseq⟩ := h.delivery.order.queued z hz
    have hmem : e.2 ∈ read :=
      h.reads.sub.subset (mem_append_left _ (mem_map_of_mem (mem_of_getElem? he)))
    exact hseq ▸ UInt32.lt_of_le_of_lt hle (h.resumed m hm e.2 hmem)

theorem next_eq (hlink : x.next cfg l = some (x', st)) (hclient : r.client.after st = some c) :
    Connection.next cfg ⟨x, r.client⟩ l = some ⟨x', c⟩ := by
  simp only [Connection.next, hlink, hclient, map_some]

theorem advance (h : Carries cfg floor read x r out) {read'} (hasc : x.ascends l = true)
    (hturns : Connection.takesTurns cfg ⟨x, r.client⟩ l = true)
    (hlink : x.next cfg l = some (x', st)) (hclient : r.client.after st = some c)
    (hreads : Reads read' x') (hread : read'.Pairwise (fun a b => a.seq < b.seq))
    (hfloor : ∀ m, floor = some m → ∀ d ∈ read', m < d.seq) :
    Carries cfg floor read' x' { r with client := c } out := by
  have hnext := next_eq hlink hclient
  have hstep := h.delivery.linkStep hturns hnext
  refine ⟨h.delivery.step hasc hturns hnext, hreads, hread, hfloor, h.pumps.client ?_, fun y hy => ?_,
    fun p hp htrack n hn z hz => ?_⟩
  · cases st with
    | none => exact some.inj hclient ▸ .of_eq rfl rfl
    | some st => exact grows_of_effect (effect_of_next hclient)
  · refine (h.below y hy).imp (fun ⟨z, hz, hseq⟩ => ?_) id
    exact ⟨z, (got_of_linkStep h.delivery.sourced.slot hstep).subset hz, hseq⟩
  · rcases received_of_linkStep h.delivery.order h.delivery.sourced.slot hstep hz with hold | ⟨hsent, hnew⟩
    · exact h.ahead p hp htrack n hn z hold
    · exact h.fresh hsent hnew

theorem link (h : Carries cfg floor read x r out) (hl : ∀ au, l ≠ .pump (.dequeue au))
    (hturns : Connection.takesTurns cfg ⟨x, r.client⟩ l = true)
    (hlink : x.next cfg l = some (x', st)) (hclient : r.client.after st = some c) :
    Carries cfg floor read x' { r with client := c } out := by
  cases l with
  | pump sl =>
    obtain ⟨p, hp, heq⟩ := map_eq_some_iff.mp hlink
    have hreads : Reads read x' := by
      obtain ⟨rfl, -⟩ := Prod.mk.inj heq
      exact h.reads.pump (fun au heq => hl au (congrArg _ heq)) hp
    exact h.advance (h.reads.ascends h.ascending hp) hturns hlink hclient hreads h.ascending h.resumed
  | accept k =>
    have hreads : Reads read x' := by
      obtain ⟨-, heq⟩ := ite_none_right_eq_some.mp hlink
      obtain ⟨rfl, -⟩ := Prod.mk.inj (some.inj heq)
      exact ⟨h.reads.sequential, h.reads.sub⟩
    exact h.advance rfl hturns hlink hclient hreads h.ascending h.resumed
  | decode i j now =>
    have hreads : Reads read x' := by
      obtain ⟨au, -, heq⟩ := map_eq_some_iff.mp hlink
      obtain ⟨rfl, -⟩ := Prod.mk.inj heq
      exact ⟨h.reads.sequential, h.reads.sub⟩
    exact h.advance rfl hturns hlink hclient hreads h.ascending h.resumed
  | client st' =>
    have hreads : Reads read x' := by
      obtain ⟨-, heq⟩ := ite_none_right_eq_some.mp hlink
      obtain ⟨rfl, -⟩ := Prod.mk.inj (some.inj heq)
      cases st' <;> exact ⟨h.reads.sequential, h.reads.sub⟩
    exact h.advance rfl hturns hlink hclient hreads h.ascending h.resumed

variable {au : AccessUnit} {track : GoString} {i n : Nat}

section

variable (h : Carries cfg floor read x r out)
include h

theorem dequeue (hlink : x.next cfg (.pump (.dequeue au)) = some (x', st))
    (hread : (read ++ [au]).Pairwise (fun a b => a.seq < b.seq))
    (hfloor : ∀ m, floor = some m → m < au.seq) : Carries cfg floor (read ++ [au]) x' r out := by
  obtain ⟨p, hp, heq⟩ := map_eq_some_iff.mp hlink
  obtain ⟨rfl, rfl⟩ := Prod.mk.inj heq
  exact h.advance (c := r.client) (h.reads.ascends h.ascending hp) rfl hlink rfl (h.reads.dequeue hp) hread
    (fun m hm => forall_mem_snoc (h.resumed m hm) (hfloor m hm))

theorem setPumps {r' : Relay} (hclient : r'.client = r.client) (hpumps : PumpsOk cfg.track r')
    (hahead : ∀ p ∈ r'.pumps, p.track = cfg.track → ∀ n, p.phase = .receiving n →
      ∀ z, (r.client.view cfg.track).Received n z → ∀ y ∈ out, y < z.seq) :
    Carries cfg floor read x r' out := by
  refine ⟨?_, h.reads, h.ascending, h.resumed, hpumps, ?_, ?_⟩
  · rw [hclient]
    exact h.delivery
  · rw [hclient]
    exact h.below
  · rw [hclient]
    exact hahead

theorem setPump {phase phase'} (hget : r.pumps[i]? = some ⟨track, phase⟩)
    (hphase : phase ≠ .stopped) (hidle : ∀ n, phase' ≠ .receiving n) :
    Carries cfg floor read x (r.setPump i ⟨track, phase'⟩) out := by
  refine h.setPumps rfl (h.pumps.setPump hget hphase (fun n hn => absurd hn (hidle n))) ?_
  exact forall_mem_set h.ahead (fun _ n hn => absurd hn (hidle n))

theorem startPump (name : GoString) (claimed : Bool) :
    Carries cfg floor read x (r.startPump name claimed) out := by
  refine h.setPumps (Relay.client_startPump r name claimed) (h.pumps.startPump name claimed) ?_
  unfold Relay.startPump
  split
  · exact h.ahead
  · split
    · exact h.ahead
    · split
      · exact forall_mem_snoc h.ahead (fun _ n hn => PumpPhase.noConfusion hn)
      · exact h.ahead

end

theorem start {cfg' : StreamConfig} (hloop : cfg'.1.loop ≠ .bidiPerCall) (maxTracksPerUpstream : Int)
    (claimed : Bool) (hcovered : ∀ y ∈ out, ∃ m, floor = some m ∧ y ≤ m) :
    Carries cfg floor [] (.start cfg') (Relay.start maxTracksPerUpstream claimed) out := by
  apply startPump
  have hreads : Reads [] (.start cfg') := by
    refine ⟨StreamPump.isSequential_start hloop, ?_⟩
    show ([] ++ (StreamPump.start cfg').inHand.toList).Sublist []
    rw [StreamPump.inHand_start]
    exact Sublist.refl _
  refine ⟨⟨Single.init _, ⟨rfl, nofun⟩, Sourced.init, InOrder.init cfg' _⟩,
    hreads, Pairwise.nil,
    nofun,
    ⟨nofun, fun a b p p' ha => (by cases ha)⟩,
    fun y hy => .inr (hcovered y hy), nofun⟩

section

variable (h : Carries cfg floor read x r out)
include h

theorem receive (hget : r.pumps[i]? = some ⟨track, .ready⟩) :
    Carries cfg floor read x (r.receive i track) out := by
  have hlink : x.next cfg (.client (.recvOn track)) = some (x, some (.recvOn track)) := rfl
  have hclient : r.client.after (some (.recvOn track)) = some (r.client.recvOn track) := rfl
  have h' := h.link (fun au => LinkLabel.noConfusion) rfl hlink hclient
  have hstep := h.delivery.linkStep (l := .client (.recvOn track)) rfl (next_eq hlink hclient)
  refine h'.setPumps rfl ?_ ?_
  · refine h'.pumps.setPump (i := i) hget PumpPhase.noConfusion (fun n hn => ?_)
    obtain rfl := PumpPhase.receiving.inj hn
    simp [Client.recvOn]
  · refine forall_mem_set h'.ahead (fun _ n hn z hz => ?_)
    -- the call has just been made
    obtain rfl := PumpPhase.receiving.inj hn
    rcases received_of_linkStep h.delivery.order h.delivery.sourced.slot hstep hz with hold | ⟨hsent, hnew⟩
    · have hlen : (r.client.view cfg.track).calls.length = r.client.calls.length := length_map _
      exact absurd hold (not_received_of_le (Nat.le_of_eq hlen) z)
    · exact h.fresh hsent hnew

theorem received_of_outcome (hget : r.pumps[i]? = some ⟨cfg.track, .receiving n⟩)
    (hout : r.outcome n = some (au, none)) : (r.client.view cfg.track).Received n au := by
  have htrack := h.pumps.calls _ (mem_of_getElem? hget) n rfl
  unfold Relay.outcome at hout
  split at hout
  · next call hcall =>
    rw [getElem?_map, hcall] at htrack
    split at hout
    · next au' err hret =>
      cases hout
      exact .inr ((view_call_own (some.inj htrack) hcall).trans (by rw [hret]))
    · cases hout
  · cases hout

theorem publish_own (hget : r.pumps[i]? = some ⟨cfg.track, .receiving n⟩)
    (hout : r.outcome n = some (au, none)) :
    (∀ y ∈ out, y < au.seq) ∧
      Carries cfg floor read x (r.publish i cfg.track au) (out ++ [au.seq]) := by
  have hreceived := h.received_of_outcome hget hout
  have hpumps : PumpsOk cfg.track (r.setPump i ⟨cfg.track, .ready⟩) :=
    h.pumps.setPump hget PumpPhase.noConfusion (fun n hn => PumpPhase.noConfusion hn)
  refine ⟨h.ahead _ (mem_of_getElem? hget) rfl n rfl au hreceived, h.delivery, h.reads, h.ascending,
    h.resumed, { hpumps with }, ?_, fun p hp htrack m hm => ?_⟩
  · exact forall_mem_snoc h.below (.inl ⟨au, h.delivery.order.received n au hreceived, rfl⟩)
  · -- no other pump serves the track, and this one is between two calls
    obtain ⟨j, hj⟩ := mem_iff_getElem?.mp hp
    have hserves : p.Serves cfg.track := ⟨htrack, by rw [hm]; exact PumpPhase.noConfusion⟩
    have hself : (r.pumps.set i ⟨cfg.track, .ready⟩)[i]? = some ⟨cfg.track, .ready⟩ := by
      exact getElem?_set_some hget
    obtain rfl := hpumps.lone j i p _ hj hself hserves ⟨rfl, PumpPhase.noConfusion⟩
    rw [← mem_unique hself hj] at hm
    cases hm

theorem publish_other (au : AccessUnit) (hget : r.pumps[i]? = some ⟨track, .receiving n⟩) :
    Carries cfg floor read x (r.publish i track au) out := by
  have h' : Carries cfg floor read x (r.setPump i ⟨track, .ready⟩) out :=
    h.setPump hget PumpPhase.noConfusion (fun n => PumpPhase.noConfusion)
  exact h'.setPumps rfl ⟨h'.pumps.calls, h'.pumps.lone⟩ h'.ahead

end

end Carries

end QuicRTC

import QuicRTC.Feed.Completion
import QuicRTC.Pubsub.Fan

/-! # A Track That Is Not Video, from Publish to the Wire

The broadcaster of one track and the pumps of one session that subscribes to it; the first pump is
the track's. The broadcaster does not gate: if the session's queue never overflows and nothing
fails, the units the track's pump took, the queue and the unit on its way are what was offered to
the session, in this order (`Order`). `RequestKeyframe` sets a flag that such a broadcaster does not
read; it is no step here.
-/

namespace QuicRTC

open LTS Wire List Option Slots

/-! ## The system -/

/-- The last three are history: what the queue had at the subscription, what was accepted
    since, and what the track's pump took. -/
structure ServedTrack where
  fan : Fan
  recv : Option ReceiverId
  pumps : PumpSet
  seed : List AccessUnit
  offered : List AccessUnit
  mine : List Nat

inductive ServedLabel where
  | fan (l : FanLabel)
  | receive (r : ReceiverId)
  | attach (want : Nat)
  | take (now : WallClock)
  | pump (l : PumpLabel)

namespace ServedTrack

def start (bc : Broadcaster) (cfgs : List FeedConfig) : ServedTrack where
  fan := Fan.start bc
  recv := none
  pumps := PumpSet.start cfgs
  seed := []
  offered := []
  mine := []

def stays (s : ServedTrack) : FanLabel → Bool
  | .unsubscribe r => s.recv != some r
  | .closeRecv r => s.recv != some r
  | _ => true

/-- The track's pump receives only from its queue, and is not stopped. -/
def others : PumpLabel → Bool
  | .dequeue i _ _ => i != 0
  | .stop i => i != 0
  | _ => true

def fanned (s : ServedTrack) (f : Fan) : ServedTrack :=
  { s with
    fan := f
    offered := if s.recv.isSome then s.offered ++ f.accepted.drop s.fan.accepted.length
               else s.offered }

/-- `Subscribe`. -/
def attach (s : ServedTrack) (want : Nat) : ServedTrack :=
  { s with
    fan := s.fan.subscribe want
    recv := some s.fan.ps.fresh
    seed := ((s.fan.subscribe want).recvAt s.fan.ps.fresh).queue }

def take (s : ServedTrack) (r : ReceiverId) (ln : Lane) (au : AccessUnit) (x : Receiver)
    (now : WallClock) : ServedTrack :=
  { s with
    fan := s.fan.setRecv r x
    pumps := s.pumps.dequeue 0 ln au now
    mine := s.mine ++ [s.pumps.units.length] }

def next (s : ServedTrack) : ServedLabel → Option ServedTrack
  | .fan l => if s.stays l then (s.fan.step l).map s.fanned else none
  | .receive r =>
    if s.recv != some r then
      (s.fan.recvAt r).recv.map (fun y => { s with fan := s.fan.setRecv r y.2 })
    else none
  | .attach want => if s.recv.isNone then some (s.attach want) else none
  | .take now =>
    match s.recv, s.pumps.lanes[0]? with
    | some r, some ln =>
      if ln.pc = .waiting then (s.fan.recvAt r).recv.map (fun y => s.take r ln y.1 y.2 now)
      else none
    | _, _ => none
  | .pump l =>
    if others l then (s.pumps.next l).map (fun p => { s with pumps := p }) else none

inductive Effect (s : ServedTrack) : ServedLabel → ServedTrack → Prop where
  | fan {l f} (stays : s.stays l = true) (step : s.fan.step l = some f) :
      Effect s (.fan l) (s.fanned f)
  | receive {r au x} (other : s.recv ≠ some r) (got : (s.fan.recvAt r).recv = some (au, x)) :
      Effect s (.receive r) { s with fan := s.fan.setRecv r x }
  | attach (want : Nat) (new : s.recv = none) : Effect s (.attach want) (s.attach want)
  | take {now r ln au x} (recv : s.recv = some r) (lane : s.pumps.lanes[0]? = some ln)
      (pc : ln.pc = .waiting) (got : (s.fan.recvAt r).recv = some (au, x)) :
      Effect s (.take now) (s.take r ln au x now)
  | pump {l p} (others : others l = true) (step : s.pumps.next l = some p) :
      Effect s (.pump l) { s with pumps := p }

theorem effect_of_next {s : ServedTrack} {s' l} : s.next l = some s' → Effect s l s' := by
  fun_cases s.next l <;> intro h <;> try cases h
  · next l hstays =>
    obtain ⟨f, hf, rfl⟩ := map_eq_some_iff.mp h
    exact .fan hstays hf
  · next r hother =>
    obtain ⟨⟨au, x⟩, hx, rfl⟩ := map_eq_some_iff.mp h
    exact .receive (bne_iff_ne.mp hother) hx
  · next want hnew => exact .attach want (isNone_iff_eq_none.mp hnew)
  · next now r ln hlane hr hpc =>
    obtain ⟨⟨au, x⟩, hx, rfl⟩ := map_eq_some_iff.mp h
    exact .take hr hlane hpc hx
  · next l hothers =>
    obtain ⟨p, hp, rfl⟩ := map_eq_some_iff.mp h
    exact .pump hothers hp

end ServedTrack

/-- The first pump is the track's. -/
def servedSystem (bc : Broadcaster) (cfg : FeedConfig) (rest : List FeedConfig) :
    System ServedTrack ServedLabel :=
  ofFun (ServedTrack.start bc (cfg :: rest)) ServedTrack.next

namespace ServedTrack

variable {bc : Broadcaster} {cfg : FeedConfig} {rest : List FeedConfig}

theorem pumps_reachable : ∀ s, Reachable (servedSystem bc cfg rest) s →
    Reachable (pumpSetSystem (cfg :: rest)) s.pumps := by
  refine invariant_ofFun _ (.init rfl) ?_
  intro s l s' _ h hstep
  cases effect_of_next hstep with
  | @take now r ln au x _ hlane hpc _ =>
    exact h.step (.dequeue 0 au now) (PumpSet.next_dequeue hlane hpc au now)
  | pump _ hp => exact h.step _ hp
  | _ => exact h

/-! ## The order from the fanout to the pump -/

/-- It does not gate, and lets every payload through that fits the wire. -/
structure Passes (b : Broadcaster) : Prop where
  selfContained : b.selfContained = true
  accept : ∀ au, au.size ≤ maxFeedPayload → b.accept au = some au

def onItsWay : Turn → List AccessUnit
  | .waiting _ au => [au]
  | _ => []

def taken (s : ServedTrack) : List (Option AccessUnit) :=
  s.mine.map (fun n => s.pumps.units[n]?)

/-- What was taken, what is queued and what is on its way are all that was offered. -/
structure InOrder (v : View) (taken : List (Option AccessUnit)) (offered : List AccessUnit) :
    Prop where
  open' : v.recv.closed = false
  cap : 0 < v.recv.cap
  listed : v.listed = true
  turn : v.turn = .done ∨ ∃ au, v.turn = .waiting true au
  order : taken ++ (v.recv.queue ++ onItsWay v.turn).map some = offered.map some

namespace InOrder

variable {v : View} {taken : List (Option AccessUnit)} {offered : List AccessUnit}
  {au : AccessUnit}

theorem published (h : InOrder v taken offered) (hdone : v.turn = .done)
    (cached : Option AccessUnit) (accepted : List AccessUnit) :
    InOrder { v with turn := .waiting true au, cached := cached, accepted := accepted } taken
      (offered ++ [au]) where
  open' := h.open'
  cap := h.cap
  listed := h.listed
  turn := .inr ⟨au, rfl⟩
  order := by
    have horder := h.order
    rw [hdone] at horder
    change taken ++ (v.recv.queue ++ []).map some = offered.map some at horder
    rw [append_nil] at horder
    show taken ++ (v.recv.queue ++ [au]).map some = (offered ++ [au]).map some
    rw [map_append, map_append, ← horder, append_assoc]

theorem tried (h : InOrder v taken offered) (hwait : v.turn = .waiting true au)
    (hroom : v.recv.queue.length < v.recv.cap) :
    (v.recv.fanoutTry true au).2 = false ∧
      InOrder { v with recv := (v.recv.fanoutTry true au).1, turn := .done } taken offered := by
  obtain ⟨ch, hsend, hbuf, hcap⟩ := Chan.trySend_of_lt au hroom
  have htry : v.recv.fanoutTry true au = ({ v.recv with ch := ch }, false) := by
    have hopen : ¬ v.recv.closed = true := by rw [h.open']; exact Bool.false_ne_true
    unfold Receiver.fanoutTry
    rw [if_neg hopen, if_pos rfl, hsend]
  rw [htry]
  refine ⟨rfl, h.open', ?_, h.listed, .inl rfl, ?_⟩
  · show 0 < ch.cap
    rw [hcap]
    exact h.cap
  · have horder := h.order
    rw [hwait] at horder
    show taken ++ (ch.buf ++ []).map some = _
    rw [hbuf, append_nil]
    exact horder

theorem received (h : InOrder v taken offered) {x} (hrecv : v.recv.recv = some (au, x)) :
    InOrder { v with recv := x } (taken ++ [some au]) offered := by
  obtain ⟨hqueue, hcap, hclosed, -⟩ := Receiver.recv_some hrecv
  refine ⟨hclosed.trans h.open', hcap.symm ▸ h.cap, h.listed, h.turn, ?_⟩
  have horder := h.order
  rw [hqueue] at horder
  rw [append_assoc]
  exact horder

end InOrder

structure Order (s : ServedTrack) (r : ReceiverId) : Prop where
  flow : InOrder (s.fan.view r) s.taken (s.seed ++ s.offered)
  old : r < s.fan.ps.fresh

end ServedTrack

/-! ## The loop of the track's pump -/

namespace Lane

variable {ln : Lane} {k : Nat} {now : WallClock}

theorem hand_of_resting (h : ln.Resting) : ln.hand = [] := by
  rcases h with hpc | hpc <;> rw [hand, hpc]

theorem ready_current {u} (h : ∀ x ∈ u, Accepts ln.cfg x.au) (hrest : (ln.ready k now u).Resting) :
    (ln.ready k now u).current = some k := by
  cases u with
  | none => rfl
  | some u =>
    have hhand := hand_of_resting hrest
    rw [ready_keeps (h u rfl)] at hhand
    cases hhand

theorem opened_current {u} (hname : ln.cfg.trackName.length ≤ maxStreamHeader)
    (h : ∀ x ∈ u, Accepts ln.cfg x.au) (hrest : (ln.opened k now u).Resting) :
    (ln.opened k now u).current = some k := by
  unfold opened at hrest ⊢
  split at hrest
  · next hne =>
    unfold writeStreamHeader headThenBody at hrest ⊢
    rw [if_neg (Nat.not_lt.mpr hname)] at hrest ⊢
    rcases hrest with hpc | hpc <;> cases hpc
  · next hempty =>
    rw [if_neg hempty]
    exact ready_current h hrest

end Lane

/-- A stream per GOP is open after the first unit. -/
structure Loop (cfg : FeedConfig) (mine : List Nat) (ln : Lane) : Prop where
  owner : ln.cfg = cfg
  call : ln.call = false
  runs : ln.pc ≠ .done
  hand : ∀ n ∈ ln.hand, n ∈ mine
  gop : cfg.loop = .streamGOP → ln.pc = .waiting → mine ≠ [] → ln.current ≠ none
  lead : mine = [] → ln.leadingAllowed = cfg.allowLeadingPFrames

namespace Loop

variable {cfg : FeedConfig} {mine : List Nat} {ln m : Lane}

theorem start (cfg : FeedConfig) : Loop cfg [] (Lane.start cfg) where
  owner := rfl
  call := rfl
  runs := by
    unfold Lane.start
    split <;> nofun
  hand := by
    rw [Lane.start_hand]
    exact nofun
  gop := fun _ _ hne => absurd rfl hne
  lead := fun _ => rfl

theorem move (h : Loop cfg mine ln) (hsame : Lane.Same ln m) (hhand : m.hand.Sublist ln.hand)
    (hlead : m.leadingAllowed = ln.leadingAllowed)
    (hgop : cfg.loop = .streamGOP → m.pc = .waiting → m.current ≠ none) : Loop cfg mine m where
  owner := hsame.1.trans h.owner
  call := hsame.2.1.trans h.call
  runs := hsame.2.2 h.call h.runs
  hand := fun n hn => h.hand n (hhand.subset hn)
  gop := fun hloop hpc _ => hgop hloop hpc
  lead := fun hnil => hlead.trans (h.lead hnil)

theorem good (h : Loop cfg mine ln) (hserves : ln.Serves cfg mine) {n} (hn : n ∈ ln.hand) :
    ln.pc.Good cfg := (hserves n hn (h.hand n hn)).2

theorem opened (h : Loop cfg mine ln) (hserves : ln.Serves cfg mine)
    (hname : cfg.trackName.length ≤ maxStreamHeader) {u} (hpc : ln.pc = .opening u) (k : Nat)
    (now : WallClock) : Loop cfg mine (ln.opened k now u) := by
  refine h.move (ln.opened_same k now u) ?_ (ln.opened_frame k now u).2 (fun _ hwait => ?_)
  · rw [show ln.hand = (u.map InHand.index).toList by simp [Lane.hand, hpc]]
    exact ln.opened_hand k now u
  · have haccepts : ∀ x ∈ u, Accepts ln.cfg x.au := by
      rintro x rfl
      have hgood := h.good hserves (n := x.index) (by simp [Lane.hand, hpc])
      rw [hpc] at hgood
      exact h.owner.symm ▸ hgood x rfl
    rw [Lane.opened_current (h.owner.symm ▸ hname) haccepts (.inl hwait)]
    simp

theorem resumed (h : Loop cfg mine ln) (hserves : ln.Serves cfg mine) {units streams}
    (hfits : ln.Fits units streams) (now : WallClock) {bytes} (hat : ln.bytes? = some bytes) :
    Loop cfg mine (ln.resume now .ok) := by
  have hsame := ln.resume_same now .ok
  have hres := Lane.resumed hat now .ok
  generalize ln.resume now .ok = m at hsame hres
  cases hres with
  | @headerDone k item w u hpc =>
    refine h.move hsame ?_ (Lane.ready_frame _ k now u).2 (fun _ hwait => ?_)
    · rw [show ln.hand = (u.map InHand.index).toList by simp [Lane.hand, hpc]]
      exact Lane.ready_hand _ k now u
    · have haccepts : ∀ x ∈ u, Accepts ({ ln with gate := .free } : Lane).cfg x.au := by
        rintro x rfl
        have hgood := h.good hserves (n := x.index) (by simp [Lane.hand, hpc])
        rw [hpc] at hgood
        exact h.owner.symm ▸ hgood x rfl
      rw [Lane.ready_current haccepts (.inl hwait)]
      simp
  | headerMore hpc => exact h.move hsame (by simp [Lane.hand, hpc]) rfl (by simp)
  | frameDone hpc =>
    rw [Lane.Fits, hpc] at hfits
    refine h.move hsame ?_ rfl (fun _ _ => by simp [Lane.idle, hfits.2.1])
    rw [Lane.idle_hand]
    exact nil_sublist _
  | frameMore hpc => exact h.move hsame (by simp [Lane.hand, hpc]) rfl (by simp)
  | @sent u datagram hpc =>
    refine h.move hsame ?_ rfl (fun hloop => ?_)
    · rw [Lane.idle_hand]
      exact nil_sublist _
    · -- only the datagram loop sends
      have hgood := h.good hserves (n := u.index) (by simp [Lane.hand, hpc])
      rw [hpc] at hgood
      cases hloop.symm.trans hgood

end Loop

/-! ### What the loop takes -/

/-- A unit that fits the wire the pump sends it on. -/
structure Fine (cfg : FeedConfig) (au : AccessUnit) : Prop where
  size : au.size ≤ maxFeedPayload
  datagram : cfg.loop = .datagramOrStream →
    cfg.fallbackOpener = true ∨ au.size ≤ maxDatagramPayload

section takes

variable {cfg : FeedConfig} {mine : List Nat} {ln : Lane} {au : AccessUnit} {n : Nat}
  {now : WallClock}

theorem Fine.accepts (h : Fine cfg au) (hname : cfg.trackName.length ≤ maxStreamHeader)
    (hfallback : cfg.loop = .datagramOrStream → cfg.fallbackOpener = true) : Accepts cfg au where
  header := hname
  frame := by
    intro now
    obtain ⟨typ, keyframe, hframe⟩ := pumpFrame_eq cfg now au hfallback
    have hflat := feedWrites_flatten cfg now au
    have hsize : ¬ maxFeedPayload < au.bytes.length := Nat.not_lt.mpr h.size
    unfold writeFeedFramePooled at hframe
    rw [hframe, if_neg hsize] at hflat
    obtain ⟨ws, hws, -⟩ := map_eq_some_iff.mp hflat
    exact ⟨ws, hws⟩

def Leads (cfg : FeedConfig) (au : AccessUnit) : Prop :=
  cfg.loop = .streamGOP → au.keyframe = true ∨ cfg.allowLeadingPFrames = true

theorem writes_or_opens (haccepts : Accepts ln.cfg au) (howner : ln.cfg = cfg) :
    (∀ k, (ln.write k now ⟨n, au⟩).hand = [n] ∧ (ln.write k now ⟨n, au⟩).pc.Good cfg) ∧
    ∀ leading, ({ ln with leadingAllowed := leading, pc := .opening (some ⟨n, au⟩) } :
        Lane).hand = [n] ∧
      ({ ln with leadingAllowed := leading, pc := .opening (some ⟨n, au⟩) } : Lane).pc.Good cfg := by
  refine ⟨fun k => ⟨Lane.write_keeps haccepts, Lane.write_good _⟩, fun _ => ⟨rfl, ?_⟩⟩
  intro x hx
  cases hx
  exact howner ▸ haccepts

theorem Loop.receive_keeps (h : Loop cfg mine ln) (hpc : ln.pc = .waiting)
    (hname : cfg.trackName.length ≤ maxStreamHeader) (hfine : Fine cfg au)
    (hleads : mine = [] → Leads cfg au) (hown : cfg.loop ≠ .bidiPerCall) :
    (ln.receive now ⟨n, au⟩).hand = [n] ∧ (ln.receive now ⟨n, au⟩).pc.Good cfg := by
  have hloop : ln.cfg.loop = cfg.loop := by rw [h.owner]
  unfold Lane.receive
  rw [hloop]
  cases hl : cfg.loop with
  | bidiPerCall => exact absurd hl hown
  | streamGOP =>
    have haccepts : Accepts ln.cfg au :=
      h.owner.symm ▸ hfine.accepts hname (fun hd => by rw [hl] at hd; cases hd)
    obtain ⟨hwrite, hopen⟩ := @writes_or_opens cfg ln au n now haccepts h.owner
    show (ln.receiveGOP now _).hand = _ ∧ _
    unfold Lane.receiveGOP
    split
    · exact hopen false
    · next hkey =>
      split
      · next k _ => exact hwrite k
      · next hnone =>
        -- without a stream it is the first unit, and it may lead
        have hfirst : mine = [] := by
          by_contra hne
          exact h.gop hl hpc hne hnone
        have hlead : ln.leadingAllowed = true := by
          rw [h.lead hfirst]
          exact (hleads hfirst hl).resolve_left hkey
        rw [if_pos hlead]
        exact hopen false
  | streamLowLatency =>
    have haccepts : Accepts ln.cfg au :=
      h.owner.symm ▸ hfine.accepts hname (fun hd => by rw [hl] at hd; cases hd)
    obtain ⟨hwrite, hopen⟩ := @writes_or_opens cfg ln au n now haccepts h.owner
    show (ln.receiveLowLatency now _).hand = _ ∧ _
    unfold Lane.receiveLowLatency
    split
    · next k _ => exact hwrite k
    · exact hopen ln.leadingAllowed
  | datagramOrStream =>
    show (ln.receiveDatagram now _).hand = _ ∧ _
    unfold Lane.receiveDatagram
    split
    · exact ⟨rfl, hl⟩
    · next hlarge =>
      -- too large for a datagram: it goes on the fallback stream
      have hsize : ¬ au.size ≤ maxDatagramPayload := by
        intro hle
        have hlen : ¬ maxDatagramPayload < au.bytes.length := Nat.not_lt.mpr hle
        unfold encodeDatagram at hlarge
        rw [if_neg hlen] at hlarge
        cases hlarge
      have hfallback := (hfine.datagram hl).resolve_right hsize
      have haccepts : Accepts ln.cfg au := h.owner.symm ▸ hfine.accepts hname (fun _ => hfallback)
      have hopener : ln.cfg.fallbackOpener = true := by rw [h.owner]; exact hfallback
      obtain ⟨hwrite, hopen⟩ :=
        @writes_or_opens cfg { ln with seq := ln.seq + 1 } au n now haccepts h.owner
      unfold Lane.fallbackOrDrop
      simp only [hopener, Bool.not_true, Bool.false_eq_true, if_false]
      split
      · next k _ => exact hwrite k
      · exact hopen ln.leadingAllowed

theorem Loop.receive (h : Loop cfg mine ln) (hhand : (ln.receive now ⟨n, au⟩).hand = [n]) :
    Loop cfg (mine ++ [n]) (ln.receive now ⟨n, au⟩) where
  owner := (ln.receive_same now _).1.trans h.owner
  call := (ln.receive_same now _).2.1.trans h.call
  runs := (ln.receive_same now _).2.2 h.call h.runs
  hand := by
    intro j hj
    rw [hhand] at hj
    exact mem_append_right _ hj
  gop := by
    intro _ hwait
    simp [Lane.hand, hwait] at hhand
  lead := fun hnil => absurd hnil (append_ne_nil_of_right_ne_nil _ (cons_ne_nil _ _))

end takes

/-! ### The loop among the pumps -/

theorem Loop.gate {cfg mine ln bytes} (h : Loop cfg mine ln) (hat : ln.bytes? = some bytes)
    (g : Gate) : Loop cfg mine { ln with gate := g } := by
  refine h.move ⟨rfl, rfl, fun _ hpc => hpc⟩ (Sublist.refl _) rfl ?_
  intro _ hwait
  exact absurd (.inl hwait) (Lane.not_resting_of_bytes hat)

namespace PumpSet

variable {cfg : FeedConfig} {mine : List Nat} {s s' : PumpSet}

def HasLoop (cfg : FeedConfig) (mine : List Nat) (s : PumpSet) : Prop :=
  ∃ ln, s.lanes[0]? = some ln ∧ Loop cfg mine ln

theorem HasLoop.set {t : PumpSet} {i x m} (h : HasLoop cfg mine s) (hx : s.lanes[i]? = some x)
    (hlanes : t.lanes = s.lanes.set i m) (hm : i = 0 → Loop cfg mine x → Loop cfg mine m) :
    HasLoop cfg mine t := by
  obtain ⟨ln, hlane, hloop⟩ := h
  by_cases hi : i = 0
  · subst hi
    obtain rfl := mem_unique hx hlane
    refine ⟨m, ?_, hm rfl hloop⟩
    rw [hlanes]
    exact getElem?_set_some hlane
  · refine ⟨ln, ?_, hloop⟩
    rw [hlanes, getElem?_set_ne hi]
    exact hlane

theorem HasLoop.step (h : HasLoop cfg mine s) (hkept : Kept cfg mine s) (hq : Queued s)
    (hsound : Sound s) (hname : cfg.trackName.length ≤ maxStreamHeader) {l : PumpLabel}
    (hl : l.clean = true) (hothers : ServedTrack.others l = true) (he : Effect s l s') :
    HasLoop cfg mine s' := by
  cases he with
  | dequeue hlane _ _ | stop hlane _ =>
    exact h.set hlane rfl (fun hi => absurd hi (bne_iff_ne.mp hothers))
  | call hlane _ _ =>
    obtain ⟨ln, hln, hloop⟩ := h
    exact ⟨ln, getElem?_append_some hln, hloop⟩
  | opened hlane hpc =>
    have hserves := hkept.lanes _ (mem_of_getElem? hlane)
    exact h.set hlane rfl (fun _ hloop => hloop.opened hserves hname hpc _ _)
  | openFailed => cases hl
  | queue hlane hat _ _ _ | refuse hlane hat _ _ _ =>
    exact h.set hlane rfl (fun _ hloop => hloop.gate hat _)
  | @write i now r ln bytes hlane hat _ =>
    cases r with
    | failed n => cases hl
    | ok =>
      have hmem := mem_of_getElem? hlane
      exact h.set hlane rfl
        (fun _ hloop => hloop.resumed (hkept.lanes ln hmem) (hsound.lanes ln hmem) now hat)
  | @done now r e ln hbusy hlane =>
    cases r with
    | failed n => cases hl
    | ok =>
      have hmem := mem_of_getElem? hlane
      exact h.set hlane rfl (fun _ hloop => hloop.resumed (hkept.lanes ln hmem)
        (hsound.lanes ln hmem) now (hq.busy hbusy hlane))
  | sched => exact h

theorem not_held_of_once (h : Once s) : ∀ x ∈ s.lanes, s.units.length ∉ x.hand := by
  intro x hx hmem
  have hcount := h s.units.length
  rw [if_neg (Nat.lt_irrefl _)] at hcount
  have hpos : 0 < (s.lanes.flatMap Lane.hand).count s.units.length :=
    count_pos_iff.mpr (mem_flatMap.mpr ⟨x, hx, hmem⟩)
  unfold tally at hcount
  omega

theorem Kept.dequeue {ln au} (h : Kept cfg mine s) (hloop : Loop cfg mine ln) (honce : Once s)
    (hname : cfg.trackName.length ≤ maxStreamHeader) (hlane : s.lanes[0]? = some ln)
    (hpc : ln.pc = .waiting) (hfine : Fine cfg au) (hleads : mine = [] → Leads cfg au)
    (now : WallClock) :
    Kept cfg (mine ++ [s.units.length]) (s.dequeue 0 ln au now) ∧
      HasLoop cfg (mine ++ [s.units.length]) (s.dequeue 0 ln au now) := by
  -- The pump does not refuse the unit.
  have hfree : ln.hand = [] := by simp only [Lane.hand, hpc]
  unfold PumpSet.dequeue
  split
  · next hbidi =>
    -- a goroutine of its own
    rw [hloop.owner] at hbidi
    have haccepts : Accepts cfg au := hfine.accepts hname (fun hd => by rw [hbidi] at hd; cases hd)
    constructor
    · refine h.take (m := Lane.forCall ln.cfg ⟨s.units.length, au⟩) (fun _ hn => hn)
        (mem_concat_self) ?_
        (fun x hx _ => mem_append_left _ hx) (not_held_of_once honce) rfl ?_
      · intro x hx
        exact (mem_append.mp hx).imp id mem_singleton.mp
      · refine ⟨hloop.owner, ?_⟩
        intro u hu
        cases hu
        exact haccepts
    · refine ⟨ln, getElem?_append_some hlane, hloop.owner, hloop.call, hloop.runs,
        ?_, ?_, fun hnil => absurd hnil (append_ne_nil_of_right_ne_nil _ (cons_ne_nil _ _))⟩
      · rw [hfree]
        simp
      · intro hgop
        rw [hbidi] at hgop
        cases hgop
  · next hown =>
    rw [hloop.owner] at hown
    have hkeeps : (ln.receive now ⟨s.units.length, au⟩).hand = [s.units.length] ∧
        (ln.receive now ⟨s.units.length, au⟩).pc.Good cfg :=
      hloop.receive_keeps hpc hname hfine hleads hown
    obtain ⟨hhand, hgood⟩ := hkeeps
    constructor
    · refine h.take (m := ln.receive now ⟨s.units.length, au⟩) (fun _ hn => hn)
        (mem_of_getElem? (getElem?_set_some hlane)) ?_ ?_ (not_held_of_once honce) hhand
        ⟨(hloop.receive hhand).owner, hgood⟩
      · exact fun x hx => mem_or_eq_of_mem_set hx
      · intro x hx hbusy
        obtain ⟨j, hj⟩ := mem_iff_getElem?.mp hx
        have hne : 0 ≠ j := by
          rintro rfl
          obtain rfl := mem_unique hlane hj
          exact hbusy hfree
        exact mem_of_getElem? ((getElem?_set_ne hne).trans hj)
    · exact ⟨_, getElem?_set_some hlane, hloop.receive hhand⟩

end PumpSet

/-! ## Runs without loss -/

namespace ServedTrack

def unfailing (_ : ServedTrack) : ServedLabel → Bool
  | .fan (.publish au) => decide (au.size ≤ maxFeedPayload)
  | .pump l => l.clean
  | _ => true

def roomy (s : ServedTrack) : ServedLabel → Bool
  | .fan (.fanout r) =>
    s.recv != some r || decide ((s.fan.recvAt r).queue.length < (s.fan.recvAt r).cap)
  | _ => true

/-- A first unit that cannot start a stream, and a payload too large for a datagram without
    fallback, are not published. -/
def suits (cfg : FeedConfig) (s : ServedTrack) : ServedLabel → Bool
  | .fan (.publish au) =>
    decide (cfg.loop = .datagramOrStream →
      cfg.fallbackOpener = true ∨ au.size ≤ maxDatagramPayload) &&
    decide (cfg.loop = .streamGOP → s.recv ≠ none → s.seed ++ s.offered = [] →
      au.keyframe = true ∨ cfg.allowLeadingPFrames = true)
  | _ => true

theorem suits_of_bidi {cfg : FeedConfig} (h : cfg.loop = .bidiPerCall) (s : ServedTrack)
    (l : ServedLabel) : s.suits cfg l = true := by
  unfold suits
  split
  · simp [h]
  · rfl

structure Smooth (cfg : FeedConfig) (s : ServedTrack) : Prop where
  passes : Passes s.fan.ps.bc
  fan : s.fan.Ok
  cached : ∀ k ∈ s.fan.ps.bc.latestKeyframe, Fine cfg k ∧ k.keyframe = true
  fine : ∀ au ∈ s.seed ++ s.offered, Fine cfg au
  lead : ∀ au ∈ (s.seed ++ s.offered).head?, Leads cfg au
  order : ∀ r, s.recv = some r → s.Order r
  before : s.recv = none → s.mine = [] ∧ s.seed = [] ∧ s.offered = []
  bound : ∀ n ∈ s.mine, n < s.pumps.units.length
  nodup : s.mine.Nodup
  kept : PumpSet.Kept cfg s.mine s.pumps
  loop : PumpSet.HasLoop cfg s.mine s.pumps

section fan

variable {cfg : FeedConfig} {s : ServedTrack} {l : FanLabel} {f : Fan} {au : AccessUnit}

theorem Smooth.fine_publish (hun : s.unfailing (.fan (.publish au)) = true)
    (hsuits : s.suits cfg (.fan (.publish au)) = true) : Fine cfg au := by
  unfold suits at hsuits
  rw [Bool.and_eq_true, decide_eq_true_eq, decide_eq_true_eq] at hsuits
  exact ⟨of_decide_eq_true hun, hsuits.1⟩

theorem Smooth.order_fan {r} (h : Smooth cfg s) (hr : s.recv = some r) (hstays : s.stays l = true)
    (hroom : s.roomy (.fan l) = true) (hstep : s.fan.step l = some f) : (s.fanned f).Order r := by
  obtain ⟨hflow, hold⟩ := h.order r hr
  have hview := Fan.step_view h.fan hstep r
  have hoffered : (s.fanned f).offered =
      s.offered ++ (f.view r).accepted.drop (s.fan.view r).accepted.length := by
    show (if s.recv.isSome then _ else _) = _
    rw [hr]
    rfl
  refine ⟨?_, Nat.lt_of_lt_of_le hold (Fan.fresh_le (Fan.step_cases hstep))⟩
  show InOrder (f.view r) s.taken (s.seed ++ (s.fanned f).offered)
  rw [hoffered]
  generalize f.view r = v at hview ⊢
  have hsame : InOrder (s.fan.view r) s.taken (s.seed ++ (s.offered ++
      (s.fan.view r).accepted.drop (s.fan.view r).accepted.length)) := by
    rw [drop_length, append_nil]
    exact hflow
  cases hview with
  | published au au' hacc hdone =>
    rw [if_pos hflow.listed, h.passes.selfContained, drop_left, ← append_assoc]
    exact hflow.published hdone _ _
  | tried sc au hwait =>
    have hsc : sc = true := by
      rcases hflow.turn with hdone | ⟨au₁, hturn⟩
      · rw [hdone] at hwait; cases hwait
      · rw [hturn] at hwait; cases hwait; rfl
    subst hsc
    have hlt : (s.fan.view r).recv.queue.length < (s.fan.view r).recv.cap := by
      simp only [roomy, hr, bne_self_eq_false, Bool.false_or] at hroom
      exact of_decide_eq_true hroom
    obtain ⟨hsent, hflow'⟩ := hflow.tried hwait hlt
    rw [drop_length, append_nil, hsent]
    exact hflow'
  | evicted sc au hat | resent sc au hat =>
    rcases hflow.turn with hturn | ⟨au₁, hturn⟩ <;> rw [hturn] at hat <;> cases hat
  | subscribed want hnew _ => exact absurd hold (hnew ▸ Nat.lt_irrefl _)
  | unsubscribed | closed =>
    simp only [stays, hr, bne_self_eq_false, Bool.false_eq_true] at hstays
  | _ => exact hsame

theorem head?_append_of_ne_nil {α : Type} {l m : List α} (h : l ≠ []) :
    (l ++ m).head? = l.head? := by
  cases l with
  | nil => exact absurd rfl h
  | cons a l => rfl

theorem Smooth.fanned (h : Smooth cfg s) (hstays : s.stays l = true)
    (hun : s.unfailing (.fan l) = true) (hroom : s.roomy (.fan l) = true)
    (hsuits : s.suits cfg (.fan l) = true) (hstep : s.fan.step l = some f) :
    Smooth cfg (s.fanned f) := by
  obtain ⟨hself, haccept⟩ := Fan.config_step hstep
  -- what is offered by the step
  have hoffered : (s.fanned f).offered = s.offered ∨ ∃ au, l = .publish au ∧ s.recv ≠ none ∧
      Fine cfg au ∧ (s.fanned f).offered = s.offered ++ [au] := by
    show (if s.recv.isSome then _ else _) = _ ∨ _
    split
    · next hsome =>
      have hhist := Fan.history_step hstep
      generalize hp : f.published = p at hhist
      generalize ha : f.accepted = a at hhist
      cases hhist with
      | accepted au au' hacc =>
        have hfine := Smooth.fine_publish hun hsuits
        rw [h.passes.accept au hfine.size] at hacc
        cases hacc
        refine .inr ⟨au, rfl, isSome_iff_ne_none.mp hsome, hfine, ?_⟩
        show (if s.recv.isSome then _ else _) = _
        rw [if_pos hsome, ha, drop_left]
      | _ => rw [drop_length, append_nil]; exact .inl rfl
    · exact .inl rfl
  refine ⟨⟨hself.trans h.passes.selfContained, ?_⟩, Fan.ok_step h.fan hstep, ?_, ?_, ?_, ?_, ?_,
    h.bound, h.nodup, h.kept, h.loop⟩
  · intro au hau
    show f.ps.bc.accept au = some au
    rw [haccept]
    exact h.passes.accept au hau
  · -- the keyframe cache
    intro k hk
    have hview := Fan.step_view h.fan hstep 0
    have hcached : (f.view 0).cached = some k := hk
    generalize f.view 0 = v at hview hcached
    cases hview with
    | published au au' hacc _ =>
      have hfine := Smooth.fine_publish hun hsuits
      rw [h.passes.accept au hfine.size] at hacc
      cases hacc
      change (if au.keyframe then some au else s.fan.ps.bc.latestKeyframe) = some k at hcached
      split at hcached
      · next hkey =>
        cases hcached
        exact ⟨hfine, hkey⟩
      · exact h.cached k hcached
    | _ => exact h.cached k hcached
  · intro au hau
    rcases hoffered with heq | ⟨au', -, -, hfine, heq⟩
    · exact h.fine au (heq ▸ hau)
    · rw [heq] at hau
      rw [← append_assoc] at hau
      exact forall_mem_snoc h.fine hfine au hau
  · intro au hau
    rcases hoffered with heq | ⟨au', rfl, hrecv, -, heq⟩
    · exact h.lead au (heq ▸ hau)
    · rw [heq] at hau
      change au ∈ (s.seed ++ (s.offered ++ [au'])).head? at hau
      rw [← append_assoc] at hau
      by_cases hnil : s.seed ++ s.offered = []
      · -- it is the first
        rw [hnil] at hau
        cases hau
        unfold suits at hsuits
        rw [Bool.and_eq_true, decide_eq_true_eq, decide_eq_true_eq] at hsuits
        exact fun hloop => hsuits.2 hloop hrecv hnil
      · rw [head?_append_of_ne_nil hnil] at hau
        exact h.lead au hau
  · exact fun r hr => h.order_fan hr hstays hroom hstep
  · intro hnone
    have hnone : s.recv = none := hnone
    obtain ⟨hmine, hseed, hoff⟩ := h.before hnone
    refine ⟨hmine, hseed, ?_⟩
    show (if s.recv.isSome then _ else _) = _
    rw [hnone]
    exact hoff

theorem attach_recv (s : ServedTrack) (want : Nat) :
    (s.fan.subscribe want).recvAt s.fan.ps.fresh =
      s.fan.ps.bc.newReceiver (s.fan.ps.bc.capacityFor want) := by
  simp [Fan.recvAt, Fan.subscribe, PubSub.subscribeWithCapacity, PubSub.subscribeWithCap]

theorem attach_seed (s : ServedTrack) (want : Nat) :
    (s.attach want).seed = s.fan.ps.bc.latestKeyframe.toList := by
  show ((s.fan.subscribe want).recvAt s.fan.ps.fresh).queue = _
  rw [attach_recv]
  exact (Broadcaster.newReceiver_spec s.fan.ps.bc
    (Broadcaster.capacityFor_pos s.fan.ps.bc want)).1

theorem Smooth.attached (h : Smooth cfg s) (hnew : s.recv = none) (want : Nat) :
    Smooth cfg (s.attach want) := by
  obtain ⟨hmine, hseed, hoffered⟩ := h.before hnew
  have hstep : s.fan.step (.subscribe want) = some (s.fan.subscribe want) := rfl
  obtain ⟨hqueue, hcap, hclosed, -⟩ := Broadcaster.newReceiver_spec s.fan.ps.bc
    (Broadcaster.capacityFor_pos s.fan.ps.bc want)
  have hrecv : ((s.fan.subscribe want).view s.fan.ps.fresh).recv =
      s.fan.ps.bc.newReceiver (s.fan.ps.bc.capacityFor want) := s.attach_recv want
  have hturn : ((s.fan.subscribe want).view s.fan.ps.fresh).turn = .done := by
    by_contra hne
    exact absurd (h.fan.turn s.fan.ps.fresh hne) (Nat.lt_irrefl _)
  have hall : (s.attach want).seed ++ (s.attach want).offered =
      s.fan.ps.bc.latestKeyframe.toList := by
    show _ ++ s.offered = _
    rw [hoffered, append_nil, s.attach_seed]
  refine ⟨⟨h.passes.selfContained, h.passes.accept⟩, Fan.ok_step h.fan hstep, h.cached, ?_, ?_, ?_,
    (fun hno => absurd hno (some_ne_none _)), h.bound, h.nodup, h.kept, h.loop⟩
  · intro au hau
    rw [hall] at hau
    exact (h.cached au (mem_toList.mp hau)).1
  · intro au hau
    rw [hall] at hau
    have hmem : au ∈ s.fan.ps.bc.latestKeyframe.toList := mem_of_mem_head? hau
    exact fun _ => .inl (h.cached au (mem_toList.mp hmem)).2
  · intro r hr
    cases hr
    refine ⟨⟨?_, ?_, ?_, .inl hturn, ?_⟩, Nat.lt_succ_self _⟩
    · show ((s.fan.subscribe want).view _).recv.closed = false
      rw [hrecv]
      exact hclosed
    · show 0 < ((s.fan.subscribe want).view _).recv.cap
      rw [hrecv, hcap]
      exact Broadcaster.capacityFor_pos s.fan.ps.bc want
    · simp [Fan.view, attach, Fan.subscribe, PubSub.subscribeWithCapacity,
        PubSub.subscribeWithCap]
    · have htaken : (s.attach want).taken = [] := by
        unfold taken
        rw [show (s.attach want).mine = s.mine from rfl, hmine]
        rfl
      rw [htaken, hall]
      show map some (((s.fan.subscribe want).view _).recv.queue ++
        onItsWay ((s.fan.subscribe want).view _).turn) = _
      rw [hrecv, hqueue, hturn]
      exact congrArg (map some) (append_nil _)

theorem Smooth.receive (h : Smooth cfg s) {q} (hq : s.recv ≠ some q) (x : Receiver) :
    Smooth cfg { s with fan := s.fan.setRecv q x } := by
  refine { h with passes := { h.passes with }, fan := Fan.ok_setRecv h.fan q x, order := ?_ }
  intro r hr
  have hne : r ≠ q := fun heq => hq (heq ▸ hr)
  refine ⟨?_, (h.order r hr).old⟩
  rw [Fan.view_setRecv_of_ne s.fan hne]
  exact (h.order r hr).flow

theorem taken_of_units {mine : List Nat} {units more : List AccessUnit}
    (hbound : ∀ n ∈ mine, n < units.length) :
    mine.map (fun n => (units ++ more)[n]?) = mine.map (fun n => units[n]?) :=
  map_congr_left (fun n hn => getElem?_append_left (hbound n hn))

theorem Smooth.pump (h : Smooth cfg s) (hname : cfg.trackName.length ≤ maxStreamHeader)
    {cfgs : List FeedConfig} (hreach : Reachable (pumpSetSystem cfgs) s.pumps) {l : PumpLabel}
    {p : PumpSet} (hun : s.unfailing (.pump l) = true) (hothers : others l = true)
    (hstep : s.pumps.next l = some p) : Smooth cfg { s with pumps := p } := by
  have hq := PumpSet.queued_of_reachable _ hreach
  have hsound := PumpSet.sound_of_reachable _ hreach
  have he := PumpSet.effect_of_next hstep
  obtain ⟨more, hunits⟩ := PumpSet.units_prefix he
  have hbound : ∀ n ∈ s.mine, n < p.units.length := by
    intro n hn
    rw [← hunits, length_append]
    exact Nat.lt_add_right _ (h.bound n hn)
  refine { h with order := ?_, bound := hbound, kept := h.kept.step hq hsound h.bound hun he, loop := h.loop.step h.kept hq hsound hname hun hothers he }
  intro r hr
  refine ⟨?_, (h.order r hr).old⟩
  have htaken : ({ s with pumps := p } : ServedTrack).taken = s.taken := by
    show s.mine.map (fun n => p.units[n]?) = _
    rw [← hunits]
    exact taken_of_units h.bound
  rw [htaken]
  exact (h.order r hr).flow

theorem Smooth.next_unit {r x} (h : Smooth cfg s) (hr : s.recv = some r)
    (hx : (s.fan.recvAt r).recv = some (au, x)) : Fine cfg au ∧ (s.mine = [] → Leads cfg au) := by
  obtain ⟨hqueue, -⟩ := Receiver.recv_some hx
  have horder := (h.order r hr).flow.order
  change s.taken ++ ((s.fan.recvAt r).queue ++ _).map some = _ at horder
  rw [hqueue] at horder
  constructor
  · apply h.fine
    have hmem : some au ∈ (s.seed ++ s.offered).map some := by
      rw [← horder]
      exact mem_append_right _ mem_cons_self
    obtain ⟨au', hmem', heq⟩ := mem_map.mp hmem
    exact some.inj heq ▸ hmem'
  · intro hnil
    apply h.lead
    rw [taken, hnil] at horder
    cases hall : s.seed ++ s.offered with
    | nil =>
      rw [hall] at horder
      cases horder
    | cons a rest =>
      rw [hall] at horder
      exact some.inj (cons.inj horder).1 ▸ rfl

theorem Smooth.take (h : Smooth cfg s) (hname : cfg.trackName.length ≤ maxStreamHeader)
    (honce : PumpSet.Once s.pumps) {r : ReceiverId} {ln : Lane} {x : Receiver}
    (hr : s.recv = some r) (hlane : s.pumps.lanes[0]? = some ln) (hpc : ln.pc = .waiting)
    (hx : (s.fan.recvAt r).recv = some (au, x)) (now : WallClock) :
    Smooth cfg (s.take r ln au x now) := by
  obtain ⟨hfine, hleads⟩ := h.next_unit hr hx
  have hunits : (s.take r ln au x now).pumps.units = s.pumps.units ++ [au] := by
    show (s.pumps.dequeue 0 ln au now).units = _
    unfold PumpSet.dequeue
    split <;> rfl
  have htaken : (s.take r ln au x now).taken = s.taken ++ [some au] := by
    show (s.mine ++ [s.pumps.units.length]).map
      (fun n => (s.take r ln au x now).pumps.units[n]?) = _
    rw [hunits, map_append, taken_of_units h.bound]
    simp [taken]
  obtain ⟨ln', hlane', hloop⟩ := h.loop
  obtain rfl := mem_unique hlane' hlane
  obtain ⟨hkept, hloop'⟩ := h.kept.dequeue hloop honce hname hlane hpc hfine hleads now
  refine ⟨⟨h.passes.selfContained, h.passes.accept⟩, Fan.ok_setRecv h.fan r x, h.cached, h.fine,
    h.lead, ?_, (fun hno => absurd (hr.symm.trans hno) (some_ne_none _)), ?_, ?_, hkept, hloop'⟩
  · intro r' hr'
    obtain rfl := mem_unique hr hr'
    refine ⟨?_, (h.order r hr).old⟩
    rw [htaken]
    show InOrder ((s.fan.setRecv r x).view r) _ _
    rw [Fan.view_setRecv_self]
    exact (h.order r hr).flow.received hx
  · rw [hunits, length_append]
    apply forall_mem_snoc
    · exact fun n hn => Nat.lt_succ_of_lt (h.bound n hn)
    · exact Nat.lt_succ_self _
  · exact pairwise_snoc h.nodup (fun n hn => Nat.ne_of_lt (h.bound n hn))

end fan

def lossless (cfg : FeedConfig) (s : ServedTrack) (l : ServedLabel) : Bool :=
  s.unfailing l && s.roomy l && s.suits cfg l

end ServedTrack

def losslessSystem (bc : Broadcaster) (cfg : FeedConfig) (rest : List FeedConfig) :
    System ServedTrack ServedLabel :=
  (servedSystem bc cfg rest).restrict (fun s l => s.lossless cfg l = true)

namespace ServedTrack

variable {rest : List FeedConfig} {cfg : FeedConfig}

theorem smooth_start {bc} (hbc : Passes bc) (hcache : bc.latestKeyframe = none) :
    Smooth cfg (start bc (cfg :: rest)) where
  passes := { hbc with }
  fan := Fan.ok_start bc
  cached := by
    intro k hk
    have hk : bc.latestKeyframe = some k := hk
    rw [hcache] at hk
    cases hk
  fine := nofun
  lead := nofun
  order := nofun
  before := fun _ => ⟨rfl, rfl, rfl⟩
  bound := nofun
  nodup := nodup_nil
  kept := by
    refine ⟨nofun, ?_⟩
    intro ln _ n _ hn
    cases hn
  loop := ⟨Lane.start cfg, rfl, Loop.start cfg⟩

theorem Smooth.step {s s' l} (h : Smooth cfg s)
    (hreach : Reachable (pumpSetSystem (cfg :: rest)) s.pumps)
    (hname : cfg.trackName.length ≤ maxStreamHeader) (hl : s.lossless cfg l = true)
    (hstep : Effect s l s') : Smooth cfg s' := by
  rw [lossless, Bool.and_eq_true, Bool.and_eq_true] at hl
  obtain ⟨⟨hun, hroom⟩, hsuits⟩ := hl
  cases hstep with
  | fan hstays hf => exact h.fanned hstays hun hroom hsuits hf
  | receive hother _ => exact h.receive hother _
  | attach want hnew => exact h.attached hnew want
  | take hr hlane hpc hx =>
    exact h.take hname (PumpSet.once_of_reachable _ hreach) hr hlane hpc hx _
  | pump hothers hp => exact h.pump hname hreach hun hothers hp

theorem smooth_of_reachable {bc} (hbc : Passes bc) (hcache : bc.latestKeyframe = none)
    (hname : cfg.trackName.length ≤ maxStreamHeader) :
    ∀ s, Reachable (losslessSystem bc cfg rest) s → Smooth cfg s := by
  refine invariant_restrict _ (smooth_start hbc hcache) ?_
  intro s l s' hs h hl hstep
  exact h.step (pumps_reachable s hs.of_restrict) hname hl (effect_of_next hstep)

end ServedTrack

end QuicRTC

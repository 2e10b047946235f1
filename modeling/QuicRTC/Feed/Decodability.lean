import QuicRTC.Feed.GopPump
import QuicRTC.Pubsub.Fan

/-! # Decodability of Video Streams

One video broadcaster, a producer of consecutive sequence numbers, and a per-GOP pump on every
receiver. A receiver's streams are decodable in every run that is `unbroken` for it. A receiver that
joins in the middle of a GOP breaks the condition, and its stream has a P-frame whose predecessor is
not there.
-/

namespace QuicRTC

open LTS Function List Option

/-! ## The system -/

structure GopState where
  fan : Fan
  pumps : ReceiverId → GopPump

inductive GopLabel where
  | fan (l : FanLabel)
  | dequeue (r : ReceiverId)
  | pump (r : ReceiverId) (ev : PumpEvent)
  | request (r : ReceiverId)

def consecutive (s : Fan) : FanLabel → Bool
  | .publish au =>
    match s.published.getLast? with
    | none => true
    | some last => au.seq == last.seq + 1
  | _ => true

namespace GopState

def start (bc : Broadcaster) (allowLeadingPFrames : Bool) : GopState where
  fan := Fan.start bc
  pumps := fun _ => GopPump.start allowLeadingPFrames

def setPump (s : GopState) (r : ReceiverId) (p : GopPump) : GopState :=
  { s with pumps := update s.pumps r p }

def dequeue (s : GopState) (r : ReceiverId) (au : AccessUnit) (x : Receiver) : GopState :=
  { s with fan := s.fan.setRecv r x }.setPump r ((s.pumps r).dequeue au)

def request (s : GopState) (r : ReceiverId) : GopState :=
  { s with fan := s.fan.setRecv r (s.fan.recvAt r).requestKeyframe }.setPump r
    { s.pumps r with pc := .waiting }

/-- `named`: streams carry a header. -/
def step (named : Bool) (s : GopState) : GopLabel → Option GopState
  | .fan l =>
    if consecutive s.fan l then (s.fan.step l).map (fun f => { s with fan := f }) else none
  | .dequeue r =>
    if r < s.fan.ps.fresh ∧ (s.pumps r).pc = .waiting then
      (s.fan.recvAt r).recv.map (fun y => s.dequeue r y.1 y.2)
    else none
  | .pump r ev =>
    if r < s.fan.ps.fresh then ((s.pumps r).advance named ev).map (s.setPump r) else none
  | .request r =>
    if (s.pumps r).pc = .requesting ∧ s.fan.locked r = false then some (s.request r) else none

end GopState

/-! ## Linked units from the fanout to the stream -/

theorem mem_getLast?_of_suffix {α l m} (h : l <:+ m) {x : α} (hx : x ∈ l.getLast?) :
    x ∈ m.getLast? := by
  obtain ⟨d, rfl⟩ := h
  rw [mem_def, getLast?_append, hx, some_or]

variable {au : AccessUnit} {s : GopState} {ref : Option AccessUnit} {x : Receiver} {r : ReceiverId}
  {v : View}

theorem linked_snoc {l : List AccessUnit} (h : l.IsChain Linked)
    (hau : ∀ x ∈ l.getLast?, Linked x au) : (l ++ [au]).IsChain Linked := by
  refine isChain_append.mpr ⟨h, isChain_singleton _, ?_⟩
  intro x hx y hy
  cases hy
  exact hau x hx

/-- `ref` is what the open stream ends with. If the receiver is not gated, what comes next
    follows the last unit on its way. -/
structure Flow (v : View) (ref : Option AccessUnit) : Prop where
  chain : (ref.toList ++ v.recv.queue).IsChain Linked
  waiting : ∀ sc au, v.turn = .waiting sc au →
    sc = false ∧ v.accepted.getLast? = some au ∧
      (v.recv.closed = false → v.recv.needKeyframe = false →
        ∀ x ∈ (ref.toList ++ v.recv.queue).getLast?, au.seq = x.seq + 1)
  held : ∀ sc au, v.turn = .evicting sc au ∨ v.turn = .resending sc au →
    sc = false ∧ au.keyframe = true ∧ v.accepted.getLast? = some au
  idle : v.turn = .done → v.listed = true → v.recv.closed = false →
    v.recv.needKeyframe = false →
      ∀ x ∈ (ref.toList ++ v.recv.queue).getLast?,
        v.accepted.getLast?.map AccessUnit.seq = some x.seq

theorem Flow.shrink {ref' : Option AccessUnit} (h : Flow v ref)
    (hsuf : ref'.toList ++ x.queue <:+ ref.toList ++ v.recv.queue)
    (hcl : x.closed = false → v.recv.closed = false)
    (hneed : x.needKeyframe = false → v.recv.needKeyframe = false) :
    Flow { v with recv := x } ref' where
  chain := h.chain.suffix hsuf
  waiting := fun sc au ht =>
    have ⟨h1, h2, h3⟩ := h.waiting sc au ht
    ⟨h1, h2, fun hc hn y hy => h3 (hcl hc) (hneed hn) y (mem_getLast?_of_suffix hsuf hy)⟩
  held := h.held
  idle := fun ht hl hc hn y hy =>
    h.idle ht hl (hcl hc) (hneed hn) y (mem_getLast?_of_suffix hsuf hy)

theorem Flow.arrive (h : Flow v ref) (hq : x.queue = v.recv.queue ++ [au]) (hacc : v.accepted.getLast? = some au)
    (hlink : ∀ y ∈ (ref.toList ++ v.recv.queue).getLast?, Linked y au) :
    Flow { v with recv := x, turn := .done } ref where
  chain := by
    rw [hq, ← append_assoc]
    exact linked_snoc h.chain hlink
  waiting := by simp
  held := by simp
  idle := by
    intro _ _ _ _ y hy
    rw [hq, ← append_assoc, getLast?_concat] at hy
    cases hy
    simp [hacc]

theorem Flow.published (h : Flow v ref) (hturn : v.turn = .done)
    (hseq : ∀ y ∈ v.accepted.getLast?, au.seq = y.seq + 1) (cached : Option AccessUnit) :
    Flow { v with
      turn := if v.listed then .waiting false au else .done
      cached := cached
      accepted := v.accepted ++ [au] } ref := by
  refine ⟨h.chain, ?_, ?_, ?_⟩
  · intro sc x ht
    split at ht
    · next hl =>
      obtain ⟨rfl, rfl⟩ := Turn.waiting.inj ht
      refine ⟨rfl, getLast?_concat, fun hc hn y hy => ?_⟩
      -- The receiver was up to date, and the unit follows the last one.
      obtain ⟨z, hz, hzy⟩ := map_eq_some_iff.mp (h.idle hturn hl hc hn y hy)
      rw [hseq z hz, hzy]
    · cases ht
  · intro sc x ht
    split at ht <;> rcases ht with ht | ht <;> cases ht
  · intro ht hl
    rw [if_pos hl] at ht
    cases ht

theorem Flow.tried (h : Flow v ref) {sc} (hturn : v.turn = .waiting sc au) :
    Flow { v with
      recv := (v.recv.fanoutTry sc au).1
      turn := if (v.recv.fanoutTry sc au).2 then .evicting sc au else .done } ref := by
  obtain ⟨rfl, hacc, hnext⟩ := h.waiting sc au hturn
  have hout := Receiver.fanoutTry_outcome false au v.recv
  generalize v.recv.fanoutTry false au = res at hout ⊢
  cases hout with
  | skipped hskip =>
    -- Closed or gated, and it stays so: nothing is promised.
    refine ⟨h.chain, by simp, by simp, ?_⟩
    intro _ _ hc hn
    rcases hskip with hskip | ⟨-, hskip, -⟩
    · exact absurd (hc.symm.trans hskip) (by simp)
    · exact absurd (hn.symm.trans hskip) (by simp)
  | enqueued x hopen _ _ hq _ hgate _ =>
    refine h.arrive hq hacc (fun y hy => ?_)
    rcases hgate rfl with hn | hk
    · exact .inr (hnext hopen hn y hy)
    · exact .inl hk
  | full _ _ hk =>
    refine ⟨h.chain, by simp, ?_, by simp⟩
    intro sc x ht
    rcases ht with ht | ht <;> cases ht
    exact ⟨rfl, hk.resolve_left (by simp), hacc⟩
  | dropped _ _ _ _ => exact ⟨h.chain, by simp, by simp, by simp⟩

theorem Flow.evicted (h : Flow v ref) {sc} (hturn : v.turn = .evicting sc au)
    (hbehind : ref = none ∨ ∀ y ∈ v.recv.queue.tail.head?, y.keyframe = true) :
    Flow { v with recv := v.recv.fanoutEvict, turn := .resending sc au } ref := by
  obtain ⟨rfl, hk, hacc⟩ := h.held sc au (.inl hturn)
  refine ⟨?_, by simp, ?_, by simp⟩
  · have hq : v.recv.queue.tail.IsChain Linked :=
      h.chain.suffix ((tail_suffix _).trans (suffix_append _ _))
    rcases hbehind with hnone | hkey
    · rw [hnone]; exact hq
    · refine isChain_append.mpr ⟨by cases ref <;> simp, hq, ?_⟩
      intro x _ y hy
      exact .inl (hkey y hy)
  · intro sc x ht
    rcases ht with ht | ht <;> cases ht
    exact ⟨rfl, hk, hacc⟩

theorem Flow.subscribed (hturn : v.turn = .done) (hq : x.queue = v.cached.toList)
    (hlast : v.cached = none ∨ v.cached = v.accepted.getLast?) :
    Flow { v with recv := x, listed := true } none := by
  refine ⟨?_, ?_, ?_, ?_⟩
  · simp only [hq]
    cases v.cached <;> simp
  · intro sc au ht
    rw [hturn] at ht
    cases ht
  · intro sc au ht
    rw [hturn] at ht
    rcases ht with ht | ht <;> cases ht
  · intro _ _ _ _ y hy
    simp only [hq] at hy
    have hy : v.cached = some y := by
      cases hk : v.cached with
      | none => rw [hk] at hy; cases hy
      | some k => rw [hk] at hy; simpa using hy
    rcases hlast with hl | hl
    · rw [hl] at hy; cases hy
    · rw [← hl, hy]; rfl

theorem Flow.step {s : Fan} (h : Flow (s.view r) ref) {l v'} (hv : ViewStep s r l v')
    (hsc : s.ps.bc.selfContained = false)
    (hpub : ∀ au, l = .publish au → ∃ au', s.ps.bc.accept au = some au' ∧
      ∀ y ∈ s.accepted.getLast?, au'.seq = y.seq + 1)
    (hsub : ∀ want, l = .subscribe want → s.ps.fresh = r →
      ref = none ∧ (s.ps.bc.latestKeyframe = none ∨ s.ps.bc.latestKeyframe = s.accepted.getLast?))
    (hevict : l = .evict → ∀ sc au, turnOf s.flight r = .evicting sc au →
      ref = none ∨ ∀ y ∈ (s.ps.heap r).queue.tail.head?, y.keyframe = true) : Flow v' ref := by
  cases hv with
  | rejected au hacc =>
    obtain ⟨au', hacc', -⟩ := hpub au rfl
    rw [hacc] at hacc'
    cases hacc'
  | published au au' hacc hturn =>
    obtain ⟨au'', hacc', hseq⟩ := hpub au rfl
    obtain rfl : au' = au'' := mem_unique hacc hacc'
    rw [hsc]
    exact h.published hturn hseq _
  | tried sc au hturn => exact h.tried hturn
  | evicted sc au hturn => exact h.evicted hturn (hevict rfl sc au hturn)
  | resent sc au hturn =>
    obtain ⟨rfl, hk, hacc⟩ := h.held sc au (.inr hturn)
    obtain ⟨hq | ⟨hq, hneed⟩, -, hcl⟩ := Receiver.fanoutResend_outcome false au (s.view r).recv
    · exact h.arrive hq hacc (fun y _ => .inl hk)
    · refine ⟨by simpa only [hq] using h.chain, by simp, by simp, ?_⟩
      intro _ _ _ hn
      exact absurd (hn.symm.trans (hneed rfl)) (by simp)
  | subscribed want hfresh hturn =>
    obtain ⟨rfl, hlast⟩ := hsub want rfl hfresh
    obtain ⟨hq, -, -, -⟩ := s.ps.bc.newReceiver_spec (s.ps.bc.capacityFor_pos want)
    exact Flow.subscribed hturn hq hlast
  | unsubscribed => exact { h with idle := by simp }
  | closed =>
    have hcl := Receiver.close_closed (s.view r).recv
    refine ⟨by simpa using h.chain, fun sc au ht => ?_, h.held, ?_⟩
    · obtain ⟨h1, h2, -⟩ := h.waiting sc au ht
      exact ⟨h1, h2, fun hc => absurd (hc.symm.trans hcl) (by simp)⟩
    · exact fun _ _ hc => absurd (hc.symm.trans hcl) (by simp)
  | other _ _ => exact h

/-! ## The invariant of a receiver and its pump -/

/-- Publishes have the next sequence number; `r` subscribes when the cached keyframe, if
    any, is the last unit; and room is made in its queue only if the pump has no stream, or
    a keyframe or nothing follows the evicted unit. -/
def unbroken (r : ReceiverId) (s : GopState) : GopLabel → Bool
  | .fan (.publish au) => (s.fan.ps.bc.accept au).map AccessUnit.seq = some au.seq
  | .fan (.subscribe _) =>
    s.fan.ps.fresh ≠ r ∨ s.fan.ps.bc.latestKeyframe = none ∨
      s.fan.ps.bc.latestKeyframe = s.fan.accepted.getLast?
  | .fan .evict =>
    match turnOf s.fan.flight r with
    | .evicting _ _ =>
      (s.pumps r).ref = none ∨ (s.fan.recvAt r).queue.tail.head?.all AccessUnit.keyframe
    | _ => true
  | _ => true

structure GopInv (r : ReceiverId) (s : GopState) : Prop where
  ok : s.fan.Ok
  video : s.fan.ps.bc.selfContained = false
  accepted : s.fan.accepted.getLast?.map AccessUnit.seq =
    s.fan.published.getLast?.map AccessUnit.seq
  unborn : s.fan.ps.fresh ≤ r → s.pumps r = GopPump.start false
  pump : (s.pumps r).Sound
  flow : Flow (s.fan.view r) (s.pumps r).ref

theorem GopInv.fan_step (h : GopInv r s) {l f} (hok : unbroken r s (.fan l) = true)
    (hseq : consecutive s.fan l = true) (hstep : s.fan.step l = some f) :
    GopInv r { s with fan := f } := by
  have hpub : ∀ au, l = .publish au → ∃ au', s.fan.ps.bc.accept au = some au' ∧
      au'.seq = au.seq ∧ ∀ y ∈ s.fan.accepted.getLast?, au'.seq = y.seq + 1 := by
    rintro au rfl
    simp only [unbroken, decide_eq_true_eq] at hok
    obtain ⟨au', hacc, hsame⟩ := map_eq_some_iff.mp hok
    refine ⟨au', hacc, hsame, fun y hy => ?_⟩
    have hlast := h.accepted
    rw [hy] at hlast
    obtain ⟨p, hp, hpy⟩ := map_eq_some_iff.mp hlast.symm
    simp only [consecutive, hp, beq_iff_eq] at hseq
    rw [hsame, hseq, hpy]
  refine ⟨Fan.ok_step h.ok hstep, (Fan.config_step hstep).1.trans h.video, ?_, ?_, h.pump, ?_⟩
  · have hist := Fan.history_step hstep
    generalize f.accepted = acc, f.published = pub at hist ⊢
    cases hist with
    | rejected au hacc =>
      obtain ⟨au', hacc', -⟩ := hpub au rfl
      rw [hacc] at hacc'
      cases hacc'
    | accepted au au' hacc =>
      obtain ⟨au'', hacc', hsame, -⟩ := hpub au rfl
      rw [hacc] at hacc'
      cases hacc'
      simp [hsame]
    | other _ _ => exact h.accepted
  · exact fun hr => h.unborn (Nat.le_trans (Fan.fresh_le (Fan.step_cases hstep)) hr)
  · refine h.flow.step (Fan.step_view h.ok hstep r) h.video ?_ ?_ ?_
    · exact fun au hl => (hpub au hl).imp (fun _ hx => ⟨hx.1, hx.2.2⟩)
    · rintro want rfl hfresh
      have hp := h.unborn (Nat.le_of_eq hfresh)
      refine ⟨by rw [hp]; rfl, ?_⟩
      simpa [unbroken, hfresh] using hok
    · rintro rfl sc au hturn
      simp only [unbroken, hturn, decide_eq_true_eq] at hok
      refine hok.imp_right (fun hall y hy => ?_)
      rw [mem_def] at hy
      simpa [Fan.recvAt, hy] using hall

theorem GopInv.dequeue (h : GopInv r s) (hr : r < s.fan.ps.fresh) (hpc : (s.pumps r).pc = .waiting)
    (hrecv : (s.fan.recvAt r).recv = some (au, x)) : GopInv r (s.dequeue r au x) := by
  obtain ⟨hq, -, hcl, hneed⟩ := Receiver.recv_some hrecv
  have hchain : ((s.pumps r).ref.toList ++ (s.fan.recvAt r).queue).IsChain Linked := h.flow.chain
  rw [hq] at hchain
  obtain ⟨hsound, href⟩ := h.pump.dequeue hpc (fun y hy =>
    (isChain_append.mp hchain).2.2 y (by rw [mem_def] at hy; simp [hy]) au rfl)
  have hpump : (s.dequeue r au x).pumps r = (s.pumps r).dequeue au := update_self ..
  refine ⟨Fan.ok_setRecv h.ok r x, h.video, h.accepted, fun hle => absurd hr (Nat.not_lt.mpr hle),
    hpump ▸ hsound, ?_⟩
  rw [hpump]
  show Flow ((s.fan.setRecv r x).view r) _
  rw [Fan.view_setRecv_self]
  refine h.flow.shrink ?_ (fun hc => hcl ▸ hc) (fun hn => hneed ▸ hn)
  show _ <:+ (s.pumps r).ref.toList ++ (s.fan.recvAt r).queue
  rw [hq]
  rcases href with href | href <;> rw [href]
  · exact suffix_append _ _
  · exact (suffix_cons _ _).trans (suffix_append _ _)

theorem GopInv.advance (h : GopInv r s) {named ev p} (hr : r < s.fan.ps.fresh)
    (hadv : (s.pumps r).advance named ev = some p) : GopInv r (s.setPump r p) := by
  obtain ⟨hsound, href⟩ := h.pump.advance hadv
  have hpump : (s.setPump r p).pumps r = p := update_self ..
  refine ⟨h.ok, h.video, h.accepted, fun hle => absurd hr (Nat.not_lt.mpr hle),
    by rw [hpump]; exact hsound, ?_⟩
  rw [hpump]
  refine h.flow.shrink (x := (s.fan.view r).recv) ?_ id id
  rcases href with href | href <;> rw [href]
  exact suffix_append _ _

theorem GopInv.request (h : GopInv r s)
    (hpc : (s.pumps r).pc = .requesting) : GopInv r (s.request r) := by
  have hcur := h.pump.idle (.inl hpc)
  have hpump : (s.request r).pumps r = { s.pumps r with pc := .waiting } :=
    update_self ..
  have href : ({ s.pumps r with pc := .waiting } : GopPump).ref = (s.pumps r).ref := by
    simp [GopPump.ref, hpc, hcur]
  refine ⟨Fan.ok_setRecv h.ok r _, h.video, h.accepted, ?_, ?_, ?_⟩
  · intro hle
    rw [h.unborn hle] at hpc
    cases hpc
  · rw [hpump]
    exact ⟨h.pump.strict, h.pump.finished, by simp [hcur], by simp, by simp, by simp⟩
  · rw [hpump, href]
    show Flow ((s.fan.setRecv r _).view r) _
    rw [Fan.view_setRecv_self]
    exact h.flow.shrink (suffix_refl _) id (by rintro ⟨⟩)

theorem GopInv.frame {q} (h : GopInv r s) (hne : r ≠ q) (p : GopPump) (x : Receiver) :
    GopInv r ({ s with fan := s.fan.setRecv q x }.setPump q p) := by
  have hpump : update s.pumps q p r = s.pumps r := update_of_ne hne _ _
  refine ⟨Fan.ok_setRecv h.ok q x, h.video, h.accepted, ?_, ?_, ?_⟩
  · intro hle
    exact hpump.trans (h.unborn hle)
  · show (update s.pumps q p r).Sound
    rw [hpump]; exact h.pump
  · show Flow ((s.fan.setRecv q x).view r) (update s.pumps q p r).ref
    rw [Fan.view_setRecv_of_ne s.fan hne, hpump]
    exact h.flow

theorem GopInv.step {named s'} (h : GopInv r s) {l} (hok : unbroken r s l = true)
    (hstep : s.step named l = some s') : GopInv r s' := by
  cases l with
  | fan l =>
    obtain ⟨hseq, hstep⟩ := ite_none_right_eq_some.mp hstep
    obtain ⟨f, hf, rfl⟩ := map_eq_some_iff.mp hstep
    exact h.fan_step hok hseq hf
  | dequeue q =>
    obtain ⟨⟨hq, hpc⟩, hstep⟩ := ite_none_right_eq_some.mp hstep
    obtain ⟨⟨au, x⟩, hrecv, rfl⟩ := map_eq_some_iff.mp hstep
    by_cases hrq : r = q
    · subst hrq; exact h.dequeue hq hpc hrecv
    · exact h.frame hrq _ _
  | pump q ev =>
    obtain ⟨hq, hstep⟩ := ite_none_right_eq_some.mp hstep
    obtain ⟨p, hadv, rfl⟩ := map_eq_some_iff.mp hstep
    by_cases hrq : r = q
    · subst hrq; exact h.advance hq hadv
    · have := h.frame hrq p (s.fan.recvAt q)
      simpa [Fan.setRecv, Fan.recvAt] using this
  | request q =>
    obtain ⟨⟨hpc, -⟩, rfl⟩ := of_guard hstep
    by_cases hrq : r = q
    · subst hrq; exact h.request hpc
    · exact h.frame hrq _ _

/-! ## Results -/

/-- Any interceptors, channel size and size cap; the pumps may not start on a P-frame. -/
def gopSystem (chanSize maxAUBytes : Int) (chain : List Interceptor) (named : Bool) :
    System GopState GopLabel :=
  ofFun (GopState.start
    { newBroadcasterWithBytes chanSize maxAUBytes with interceptors := chain } false)
    (GopState.step named)

/-- **Decodability.** Every stream of the pump of `r` has a keyframe and then P-frames with
    consecutive sequence numbers. -/
theorem streams_decodable (chanSize maxAUBytes : Int) (chain : List Interceptor) (named : Bool)
    (r : ReceiverId) :
    ∀ s, Reachable ((gopSystem chanSize maxAUBytes chain named).restrict
        (fun s l => unbroken r s l = true)) s →
      ∀ frames ∈ (s.pumps r).streams, Decodable frames := by
  intro s hs
  have hinv : GopInv r s := by
    refine invariant_restrict (GopInv r) ?_ (fun _ _ _ _ h => h.step) s hs
    exact ⟨Fan.ok_start _, rfl, rfl, fun _ => rfl, GopPump.sound_start, isChain_nil,
      by simp [Fan.view, GopState.start, Fan.start], by simp [Fan.view, GopState.start, Fan.start],
      nofun⟩
  exact hinv.pump.streams

theorem streams_decodable_gop :
    ∃ s, Reachable ((gopSystem 30 0 [] true).restrict (fun s l => unbroken 0 s l = true)) s ∧
      (s.pumps 0).streams = [[.bare true 1, .bare false 2]] ∧
      ∀ frames ∈ (s.pumps 0).streams, Decodable frames :=
  exists_run_given_imp [.fan (.subscribe 0), .fan (.publish (.bare true 1)), .fan (.fanout 0),
    .dequeue 0, .fan (.publish (.bare false 2)), .fan (.fanout 0), .pump 0 .opened,
    .pump 0 .headerWritten, .pump 0 .written, .dequeue 0, .pump 0 .written]
    (fun s hs (hp : (s.pumps 0).streams = [[.bare true 1, .bare false 2]]) =>
      ⟨hp, streams_decodable 30 0 [] true 0 s hs⟩) (by decide)

/-- A receiver joins in the middle of a GOP: the cached keyframe is followed by a P-frame
    two sequence numbers on. -/
theorem late_join_not_decodable :
    ∃ s, Reachable (gopSystem 30 0 [] true) s ∧
      ∃ frames ∈ (s.pumps 0).streams, frames = [.bare true 1, .bare false 3] ∧
        ¬ Decodable frames := by
  exact exists_run [.fan (.publish (.bare true 1)), .fan (.publish (.bare false 2)), .fan (.subscribe 0),
     .fan (.publish (.bare false 3)), .fan (.fanout 0), .dequeue 0, .pump 0 .opened,
     .pump 0 .headerWritten, .pump 0 .written, .dequeue 0, .pump 0 .written] (by decide)

end QuicRTC

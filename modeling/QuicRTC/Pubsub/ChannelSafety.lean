import QuicRTC.Pubsub.Concurrent

/-! # Channel Safety of the Fanout

`Publish` works from a snapshot of the receivers while `Unsubscribe` and `Close` close their
channels. A channel is closed exactly when its flag is set, and a section that found the flag clear
holds `r.mu` until its last operation. So no step of `Hub` faults (`step_effect`).
-/

namespace QuicRTC

open LTS Function List Option Slots

/-! ## The sections on a sound receiver -/

namespace Receiver

/-- Closed exactly when the flag is set, with room for a unit. -/
structure Sound (r : Receiver) : Prop where
  flag : r.ch.closed = r.closed
  cap : 0 < r.ch.cap

/-- What only a close changes. -/
structure Kept (r r' : Receiver) : Prop where
  closed : r'.closed = r.closed
  chan : r'.ch.closed = r.ch.closed
  cap : r'.ch.cap = r.ch.cap

theorem Kept.refl (r : Receiver) : Kept r r := ⟨rfl, rfl, rfl⟩

variable {au : AccessUnit} {r : Receiver}

theorem Kept.trySend {ch} (h : r.ch.trySend au = some ch) (need : Bool) :
    Kept r { r with ch := ch, needKeyframe := need } :=
  ⟨rfl, Chan.trySend_closed h, (Chan.trySend_some h).2.2⟩

theorem Sound.kept {r'} (h : r.Sound) (hk : Kept r r') : r'.Sound :=
  ⟨by rw [hk.chan, hk.closed, h.flag], by rw [hk.cap]; exact h.cap⟩

theorem Sound.chan_open (h : r.Sound) (hopen : r.closed = false) :
    r.ch.closed = false := h.flag.trans hopen

theorem Sound.fanoutTryChecked (h : r.Sound) (sc : Bool) (au : AccessUnit) :
    r.fanoutTryChecked sc au = .ok (r.fanoutTry sc au) := by
  unfold Receiver.fanoutTryChecked fanoutTry
  split
  · rfl
  · next hc =>
    rw [Chan.selectSend_of_open (h.chan_open (by simpa using hc))]
    cases r.ch.trySend au <;> cases sc <;> cases au.keyframe <;> cases r.needKeyframe <;> rfl

theorem fanoutTry_kept (r : Receiver) (sc : Bool) (au : AccessUnit) :
    Kept r (r.fanoutTry sc au).1 := by
  unfold fanoutTry
  split
  · exact .refl r
  · split
    · split
      · next hs => exact .trySend hs r.needKeyframe
      · exact .refl r
    · split
      · exact .refl r
      · split
        · next hs => exact .trySend hs _
        · split
          · exact .refl r
          · exact ⟨rfl, rfl, rfl⟩

theorem open_of_full {sc} (h : (r.fanoutTry sc au).2 = true) : r.closed = false := by
  unfold fanoutTry at h
  split at h
  · cases h
  · next hc => simpa using hc

theorem Sound.fanoutResendChecked (h : r.Sound) (hopen : r.closed = false) (sc : Bool)
    (au : AccessUnit) : r.fanoutResendChecked sc au = .ok (r.fanoutResend sc au) := by
  unfold Receiver.fanoutResendChecked fanoutResend
  rw [Chan.selectSend_of_open (h.chan_open hopen)]
  cases r.ch.trySend au <;> cases sc <;> rfl

theorem fanoutResend_kept (r : Receiver) (sc : Bool) (au : AccessUnit) :
    Kept r (r.fanoutResend sc au) := by
  unfold fanoutResend
  split
  · next hs =>
    split
    · exact .trySend hs r.needKeyframe
    · exact .trySend hs false
  · split
    · exact .refl r
    · exact ⟨rfl, rfl, rfl⟩

theorem Sound.spliceFrontChecked (h : r.Sound) (replay : List AccessUnit) :
    r.spliceFrontChecked replay = .ok (r.spliceFront replay) ∧ Kept r (r.spliceFront replay) := by
  unfold Receiver.spliceFrontChecked spliceFront
  split
  · exact ⟨rfl, .refl r⟩
  · split
    · exact ⟨rfl, .refl r⟩
    · next hc =>
      have hopen := h.chan_open (by simpa using hc)
      obtain ⟨hfill, hclosed⟩ := Chan.selectFill_of_open (c := r.ch.drained) hopen
        (mergeBySeq replay r.ch.buf)
      have hcap := (Chan.fill_spec (c := r.ch.drained) h.cap (mergeBySeq replay r.ch.buf)).2.1
      simp only [Chan.drain_of_open hopen, hfill, bind, Except.bind]
      generalize r.ch.drained.fill (mergeBySeq replay r.ch.buf) = res at hclosed hcap ⊢
      obtain ⟨ch, full⟩ := res
      cases full <;> exact ⟨rfl, rfl, hclosed.trans hopen.symm, hcap⟩

theorem Sound.closeChecked (h : r.Sound) : r.closeChecked = .ok r.close ∧ r.close.Sound := by
  unfold Receiver.closeChecked close
  split
  · exact ⟨rfl, h⟩
  · next hc =>
    rw [Chan.closeOnce_of_open (h.chan_open (by simpa using hc))]
    exact ⟨rfl, rfl, h.cap⟩

theorem recv_kept {r'} (h : r.recv = some (au, r')) : Kept r r' := by
  unfold recv at h
  split at h
  · next ch hrecv =>
    cases h
    exact ⟨rfl, Chan.tryRecv_closed hrecv, (Chan.tryRecv_some hrecv).2⟩
  · cases h

end Receiver

theorem Broadcaster.newReceiverChecked_ok (b : Broadcaster) {chanSize} (hpos : 0 < chanSize) :
    b.newReceiverChecked chanSize = .ok (b.newReceiver chanSize) ∧
      (b.newReceiver chanSize).Sound := by
  unfold newReceiverChecked newReceiver
  cases b.latestKeyframe with
  | none => cases b.selfContained <;> exact ⟨rfl, rfl, hpos⟩
  | some k =>
    obtain ⟨ch, hsend, htry⟩ := Chan.send_of_lt (c := Chan.make chanSize) rfl (by simpa using hpos) k
    simp only [hsend, htry, getD_some]
    exact ⟨rfl, Chan.trySend_closed htry, by rw [(Chan.trySend_some htry).2.2]; exact hpos⟩

/-! ## The invariant -/

namespace Hub

variable {F : Type}

/-- Receivers in use are allocated and sound, and open while a flight is in their section.
    -/
structure Safe (s : Hub F) : Prop where
  recv : ∀ r, r < s.ps.fresh → (s.recvAt r).Sound
  listed : ∀ r ∈ s.ps.bc.receivers, r < s.ps.fresh
  pending : ∀ f ∈ s.flights, ∀ r ∈ f.pending, r < s.ps.fresh
  current : ∀ f ∈ s.flights, ∀ c ∈ f.current, c.1 < s.ps.fresh ∧ (s.recvAt c.1).closed = false
  teardown : ∀ t ∈ s.teardowns, ∀ r ∈ t, r < s.ps.fresh

theorem safe_start (bc : Broadcaster) : (start bc : Hub F).Safe where
  recv := fun r hr => absurd hr (Nat.not_lt_zero r)
  listed := nofun
  pending := nofun
  current := nofun
  teardown := nofun

/-- **Inversion** of a step from a safe state; no effect is a fault. -/
inductive Effect (s : Hub F) : HubLabel F → Hub F → Prop where
  | addInterceptor (fn : Option F) : Effect s (.addInterceptor fn) (s.addInterceptor fn)
  | remove {k : Nat} {e : Registration F} (he : s.registered[k]? = some e) :
      Effect s (.remove k) (s.callRemove k e)
  | publish (au : AccessUnit) : Effect s (.publish au) (s.publish au)
  | reply {i : Nat} {x : Running F} {fn : F} {rest : List F} (out : Option AccessUnit)
      (hx : s.running[i]? = some x) (hrest : x.rest = fn :: rest) :
      Effect s (.reply i out) (s.reply i x fn rest out)
  | enter {i : Nat} {x : Running F} (hx : s.running[i]? = some x) (hrest : x.rest = []) :
      Effect s (.enter i) (s.enter i x)
  | fanout {i : Nat} {f : Flight} {r : ReceiverId} (hf : s.flights[i]? = some f)
      (hcur : f.current = none) (hr : r ∈ f.pending) (hlock : s.locked r = false) :
      Effect s (.fanout i r) (s.afterTry i f r ((s.recvAt r).fanoutTry f.selfContained f.au))
  | evict {i : Nat} {f : Flight} {r : ReceiverId} (hf : s.flights[i]? = some f)
      (hcur : f.current = some (r, .evict)) : Effect s (.evict i) (s.evict i f r)
  | resend {i : Nat} {f : Flight} {r : ReceiverId} (hf : s.flights[i]? = some f)
      (hcur : f.current = some (r, .resend)) :
      Effect s (.resend i)
        (s.afterResend i f r ((s.recvAt r).fanoutResend f.selfContained f.au))
  | subscribe (want : Option Nat) :
      Effect s (.subscribe want) (s.register (s.ps.bc.newReceiver (s.depth want)))
  | unsubscribe (r : ReceiverId) : Effect s (.unsubscribe r) (s.unsubscribe r)
  | close : Effect s .close s.close
  | closeRecv {i : Nat} {t : List ReceiverId} {r : ReceiverId} (ht : s.teardowns[i]? = some t)
      (hr : r ∈ t) (hlock : s.locked r = false) :
      Effect s (.closeRecv i r) (s.afterClose i t r (s.recvAt r).close)
  | requestKeyframe {r : ReceiverId} (hr : r < s.ps.fresh) (hlock : s.locked r = false) :
      Effect s (.requestKeyframe r) (s.setRecv r (s.recvAt r).requestKeyframe)
  | replaySince (fromSeq : UInt32) : Effect s (.replaySince fromSeq) (s.keepReplay fromSeq)
  | spliceFront {r : ReceiverId} (replay : List AccessUnit) (hr : r < s.ps.fresh)
      (hlock : s.locked r = false) :
      Effect s (.spliceFront r replay) (s.setRecv r ((s.recvAt r).spliceFront replay))
  | read {r : ReceiverId} {au : AccessUnit} {x : Receiver} (hr : r < s.ps.fresh)
      (hrecv : (s.recvAt r).recv = some (au, x)) : Effect s (.read r) (s.setRecv r x)

theorem depth_pos (s : Hub F) (want : Option Nat) : 0 < s.depth want := by
  cases want with
  | none => exact s.ps.bc.chanSize_pos
  | some n => exact s.ps.bc.capacityFor_pos n

/-- **No step faults** in a safe state. -/
theorem step_effect {s : Hub F} (h : s.Safe) {l x} :
    s.step l = some x → ∃ s', x = .ok s' ∧ Effect s l s' := by
  fun_cases s.step l <;> intro hstep <;> try cases hstep
  · exact ⟨_, rfl, .addInterceptor _⟩
  · obtain ⟨e, he, rfl⟩ := map_eq_some_iff.mp hstep
    exact ⟨_, rfl, .remove he⟩
  · exact ⟨_, rfl, .publish _⟩
  · next hy _ _ hrest => exact ⟨_, rfl, .reply _ hy hrest⟩
  · next hy hrest => exact ⟨_, rfl, .enter hy (isEmpty_iff.mp hrest)⟩
  · next hf hg =>
    obtain ⟨hcur, hr, hlock⟩ := hg
    have hsound := h.recv _ (h.pending _ (mem_of_getElem? hf) _ hr)
    rw [hsound.fanoutTryChecked]
    exact ⟨_, rfl, .fanout hf hcur hr hlock⟩
  · next hf _ hcur => exact ⟨_, rfl, .evict hf hcur⟩
  · next hf _ hcur =>
    -- the flag was clear when the section began, and `r.mu` is held since
    obtain ⟨hr, hopen⟩ := h.current _ (mem_of_getElem? hf) _ hcur
    rw [(h.recv _ hr).fanoutResendChecked hopen]
    exact ⟨_, rfl, .resend hf hcur⟩
  · rw [(s.ps.bc.newReceiverChecked_ok (s.depth_pos _)).1]
    exact ⟨_, rfl, .subscribe _⟩
  · exact ⟨_, rfl, .unsubscribe _⟩
  · exact ⟨_, rfl, .close⟩
  · next ht hg =>
    have hsound := h.recv _ (h.teardown _ (mem_of_getElem? ht) _ hg.1)
    rw [hsound.closeChecked.1]
    exact ⟨_, rfl, .closeRecv ht hg.1 hg.2⟩
  · next hg => exact ⟨_, rfl, .requestKeyframe hg.1 hg.2⟩
  · exact ⟨_, rfl, .replaySince _⟩
  · next hg =>
    rw [((h.recv _ hg.1).spliceFrontChecked _).1]
    exact ⟨_, rfl, .spliceFront _ hg.1 hg.2⟩
  · next hr =>
    obtain ⟨⟨au, y⟩, hy, rfl⟩ := map_eq_some_iff.mp hstep
    exact ⟨_, rfl, .read hr hy⟩

/-! ## Every step keeps it -/

namespace Safe

variable {s : Hub F} {r : ReceiverId} {x : Receiver}

theorem ne_of_unlocked (hlock : s.locked r = false) {f} (hf : f ∈ s.flights) {c}
    (hc : c ∈ f.current) : c.1 ≠ r := by
  intro heq
  have hno := any_eq_false.mp hlock f hf
  rw [mem_def.mp hc] at hno
  exact hno (by simpa using heq)

section

variable (h : s.Safe)
include h

theorem setRecv (hx : x.Sound)
    (hopen : ∀ f ∈ s.flights, ∀ c ∈ f.current, c.1 = r → x.closed = false) :
    (s.setRecv r x).Safe where
  recv := by
    intro q hq
    show (update s.ps.heap r x q).Sound
    by_cases hqr : q = r
    · subst hqr
      rw [update_self]
      exact hx
    · rw [update_of_ne hqr]
      exact h.recv q hq
  listed := h.listed
  pending := h.pending
  current := by
    intro f hf c hc
    obtain ⟨hlt, hold⟩ := h.current f hf c hc
    refine ⟨hlt, ?_⟩
    show (update s.ps.heap r x c.1).closed = false
    by_cases hcr : c.1 = r
    · rw [hcr, update_self]
      exact hopen f hf c hc hcr
    · rw [update_of_ne hcr]
      exact hold
  teardown := h.teardown

theorem keep (hr : r < s.ps.fresh) (hk : Receiver.Kept (s.recvAt r) x) : (s.setRecv r x).Safe := by
  refine h.setRecv ((h.recv r hr).kept hk) (fun f hf c hc hcr => ?_)
  rw [hk.closed, ← hcr]
  exact (h.current f hf c hc).2

theorem withFlights {l} (hl : ∀ f ∈ l, f ∈ s.flights ∨ (∀ q ∈ f.pending, q < s.ps.fresh) ∧
      ∀ c ∈ f.current, c.1 < s.ps.fresh ∧ (s.recvAt c.1).closed = false) :
    { s with flights := l }.Safe where
  recv := h.recv
  listed := h.listed
  pending := by
    intro f hf
    rcases hl f hf with hold | hnew
    · exact h.pending f hold
    · exact hnew.1
  current := by
    intro f hf
    rcases hl f hf with hold | hnew
    · exact h.current f hold
    · exact hnew.2
  teardown := h.teardown

theorem enter (i : Nat) (y : Running F) : (s.enter i y).Safe := by
  unfold Hub.enter
  split
  · exact { h with }
  · have hbase : ({ s with ps := { s.ps with bc := s.ps.bc.publishLocked y.au } } : Hub F).Safe :=
      { h with }
    have hnext := hbase.withFlights (l := s.flights ++ (Flight.settle
        { au := y.au
          selfContained := s.ps.bc.selfContained
          pending := s.ps.bc.receivers
          current := none }).toList) (by
      intro f hf
      rcases mem_append.mp hf with hold | hnew
      · exact .inl hold
      · right
        rw [Flight.eq_of_settle (mem_toList.mp hnew)]
        exact ⟨h.listed, nofun⟩)
    exact { hnext with }

theorem afterTry {i f} (hf : s.flights[i]? = some f) (hr : r ∈ f.pending) :
    (s.afterTry i f r ((s.recvAt r).fanoutTry f.selfContained f.au)).Safe := by
  have hlt := h.pending f (mem_of_getElem? hf) r hr
  have hkept := (s.recvAt r).fanoutTry_kept f.selfContained f.au
  refine (h.keep hlt hkept).withFlights (fun g hg => ?_)
  rcases mem_of_mem_put hg with hold | hnew
  · exact .inl hold
  · right
    rw [Flight.eq_of_settle hnew]
    refine ⟨fun q hq => h.pending f (mem_of_getElem? hf) q (mem_filter.mp hq).1, ?_⟩
    intro c hc
    -- the flight stays inside the section only if the channel was full, hence open
    split at hc
    · next hfull =>
      cases hc
      refine ⟨hlt, ?_⟩
      show (update s.ps.heap r _ r).closed = false
      rw [update_self, hkept.closed]
      exact Receiver.open_of_full hfull
    · cases hc

theorem inSection {i f st} (hf : s.flights[i]? = some f) (hcur : f.current = some (r, st))
    (hk : Receiver.Kept (s.recvAt r) x) {o} (ho : ∀ g, o = some g → g.pending = f.pending ∧
      ∀ c ∈ g.current, c.1 = r) :
    { s.setRecv r x with flights := Slots.put s.flights i o }.Safe := by
  obtain ⟨hlt, hopen⟩ := h.current f (mem_of_getElem? hf) _ hcur
  refine (h.keep hlt hk).withFlights (fun g hg => ?_)
  rcases mem_of_mem_put hg with hold | hnew
  · exact .inl hold
  · right
    obtain ⟨hpend, hstay⟩ := ho g hnew
    refine ⟨hpend ▸ h.pending f (mem_of_getElem? hf), fun c hc => ?_⟩
    rw [hstay c hc]
    refine ⟨hlt, ?_⟩
    show (update s.ps.heap r x r).closed = false
    rw [update_self, hk.closed]
    exact hopen

theorem register (hx : x.Sound) : (s.register x).Safe where
  recv := by
    intro q hq
    have hq : q < s.ps.fresh + 1 := hq
    show (update s.ps.heap s.ps.fresh x q).Sound
    by_cases hqr : q = s.ps.fresh
    · rw [hqr, update_self]
      exact hx
    · rw [update_of_ne hqr]
      exact h.recv q (Nat.lt_of_le_of_ne (Nat.le_of_lt_succ hq) hqr)
  listed := by
    exact forall_mem_snoc (fun q hq => Nat.lt_succ_of_lt (h.listed q hq)) (Nat.lt_succ_self _)
  pending := fun f hf q hq => Nat.lt_succ_of_lt (h.pending f hf q hq)
  current := by
    intro f hf c hc
    obtain ⟨hlt, hopen⟩ := h.current f hf c hc
    refine ⟨Nat.lt_succ_of_lt hlt, ?_⟩
    show (update s.ps.heap s.ps.fresh x c.1).closed = false
    rw [update_of_ne (Nat.ne_of_lt hlt)]
    exact hopen
  teardown := fun t ht q hq => Nat.lt_succ_of_lt (h.teardown t ht q hq)

theorem removed {keep gone} (hk : keep ⊆ s.ps.bc.receivers) (hg : gone ⊆ s.ps.bc.receivers) :
    { s with
      ps := { s.ps with bc := { s.ps.bc with receivers := keep } }
      teardowns := s.teardowns ++ [gone] }.Safe where
  recv := h.recv
  listed := fun q hq => h.listed q (hk hq)
  pending := h.pending
  current := h.current
  teardown := forall_mem_snoc h.teardown (fun q hq => h.listed q (hg hq))

theorem afterClose {i t} (ht : s.teardowns[i]? = some t) (hr : r ∈ t) (hlock : s.locked r = false) :
    (s.afterClose i t r (s.recvAt r).close).Safe := by
  have htd := h.teardown t (mem_of_getElem? ht)
  have hclose : (s.setRecv r (s.recvAt r).close).Safe :=
    h.setRecv (h.recv r (htd r hr)).closeChecked.2
      (fun f hf c hc hcr => absurd hcr (ne_of_unlocked hlock hf hc))
  refine { hclose with teardown := ?_ }
  exact forall_mem_set h.teardown (fun q hq => htd q (mem_filter.mp hq).1)

/-- **The step lemma.** -/
theorem effect {l s'} (he : Effect s l s') : s'.Safe := by
  cases he with
  | addInterceptor fn =>
    cases fn <;> exact { h with }
  | reply out _ _ => cases out <;> exact { h with }
  | enter _ _ => exact h.enter _ _
  | fanout hf hcur hr hlock => exact h.afterTry hf hr
  | @evict i f r hf hcur =>
    refine h.inSection (x := (s.recvAt r).fanoutEvict)
      (o := some { f with current := some (r, .resend) }) hf hcur ⟨rfl, rfl, rfl⟩ (fun g hg => ?_)
    cases hg
    exact ⟨rfl, fun c hc => by rw [← some.inj hc]⟩
  | @resend i f r hf hcur =>
    refine h.inSection hf hcur ((s.recvAt r).fanoutResend_kept f.selfContained f.au)
      (fun g hg => ?_)
    rw [Flight.eq_of_settle hg]
    exact ⟨rfl, nofun⟩
  | subscribe want => exact h.register (s.ps.bc.newReceiverChecked_ok (s.depth_pos want)).2
  | unsubscribe r =>
    unfold Hub.unsubscribe
    split
    · next hr =>
      exact h.removed (filter_subset_self _) (fun q hq => mem_singleton.mp hq ▸ hr)
    · exact h
  | close => exact h.removed (nil_subset _) (Subset.refl _)
  | closeRecv ht hr hlock => exact h.afterClose ht hr hlock
  | requestKeyframe hr _ => exact h.keep hr ⟨rfl, rfl, rfl⟩
  | @spliceFront r replay hr _ => exact h.keep hr ((h.recv r hr).spliceFrontChecked replay).2
  | read hr hrecv => exact h.keep hr (Receiver.recv_kept hrecv)
  | _ =>
    exact { h with }

end

end Safe

/-! ## Every run -/

def next : Except ChanFault (Hub F) → HubLabel F → Option (Except ChanFault (Hub F))
  | .ok s, l => s.step l
  | .error _, _ => none

end Hub

def hubSystem (F : Type) (bc : Broadcaster) : System (Except ChanFault (Hub F)) (HubLabel F) :=
  ofFun (.ok (Hub.start bc)) Hub.next

theorem hub_reachable_safe {F bc x} (hx : Reachable (hubSystem F bc) x) :
    ∃ s, x = .ok s ∧ s.Safe := by
  refine invariant_ofFun (fun x => ∃ s : Hub F, x = .ok s ∧ s.Safe)
    ⟨_, rfl, Hub.safe_start bc⟩ ?_ x hx
  rintro _ l x' - ⟨s, rfl, hsafe⟩ hstep
  obtain ⟨s', rfl, heff⟩ := Hub.step_effect hsafe hstep
  exact ⟨s', rfl, hsafe.effect heff⟩

/-- **Channel safety.** No operation panics or blocks, and a channel is closed exactly when
    its flag is set. -/
theorem fanout_channels_safe (F : Type) (bc : Broadcaster) :
    ∀ x, Reachable (hubSystem F bc) x → ∃ s, x = .ok s ∧
      ∀ r, r < s.ps.fresh → ((s.recvAt r).ch.closed = true ↔ (s.recvAt r).closed = true) := by
  intro x hx
  obtain ⟨s, rfl, hsafe⟩ := hub_reachable_safe hx
  refine ⟨s, rfl, fun r hr => ?_⟩
  rw [(hsafe.recv r hr).flag]

/-- The first `Publish` is making room when the receiver is removed, the second comes later.
    -/
def teardownRun : List (HubLabel Unit) :=
  [.publish (.bare true 1), .enter 0, .subscribe none, .publish (.bare true 2), .enter 0,
   .publish (.bare true 3), .enter 0, .fanout 0 0, .unsubscribe 0, .close, .evict 0, .resend 0,
   .closeRecv 0 0, .fanout 0 0, .unsubscribe 0, .close, .spliceFront 0 [.bare true 1], .read 0]

theorem fanout_channels_safe_teardown :
    ∃ x, Reachable (hubSystem Unit (newBroadcaster 1)) x ∧
      x.toOption.any (fun s => s.accepted.length == 3 && (s.recvAt 0).closed) = true ∧
      ∃ s, x = .ok s ∧
        ∀ r, r < s.ps.fresh → ((s.recvAt r).ch.closed = true ↔ (s.recvAt r).closed = true) :=
  exists_run_imp teardownRun (fun x hx (hp : x.toOption.any (fun s => s.accepted.length == 3 &&
    (s.recvAt 0).closed) = true) => ⟨hp, fanout_channels_safe Unit (newBroadcaster 1) x hx⟩)
    (by decide +kernel)

end QuicRTC

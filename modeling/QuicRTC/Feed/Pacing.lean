import Mathlib.Algebra.GroupWithZero.Nat
import QuicRTC.Feed.PumpSet

/-! # Bounded Priority Inversion

`writeFrame` of `feed/pump.go` cuts large frames into chunks of `pacingChunkBytes` so that the
scheduler's worker can turn to a more urgent pump in between.

After the acceptance of an item at most one less urgent item runs before it, the one that was
running then. Not every frame is cut to the size of a chunk (`fallback_not_paced`).
-/

namespace QuicRTC

open Wire LTS List Option Slots

/-! ## How long an item waits -/

namespace Scheduler

variable {δ : Type}

/-- What runs between the acceptance of `c` and its turn. -/
def waitsFor (s : Scheduler δ) (c : Nat) (call : SubmitCall δ) : List Nat :=
  call.running ++ (s.taken.drop call.taken).takeWhile (fun c' => decide (c' ≠ c))

def priorityOf (s : Scheduler δ) (c : Nat) : UInt8 :=
  (s.calls[c]?).elim 0 (fun call => call.item.priority)

/-- The less urgent ones among them. -/
def lower (s : Scheduler δ) (c : Nat) (call : SubmitCall δ) : List Nat :=
  (s.waitsFor c call).filter (fun c' => decide (call.item.priority < s.priorityOf c'))

structure InTime (calls : List (SubmitCall δ)) (taken : List Nat) (c : Nat)
    (call : SubmitCall δ) : Prop where
  running : call.running.length ≤ 1
  mark : call.taken ≤ taken.length
  after : c ∈ taken → c ∈ taken.drop call.taken
  overtaken : ∀ c' ∈ (taken.drop call.taken).takeWhile (fun c' => decide (c' ≠ c)),
                ∃ call', calls[c']? = some call' ∧ call'.item.priority ≤ call.item.priority

theorem mem_takeWhile_snoc {p : Nat → Bool} {l x y} (h : y ∈ (l ++ [x]).takeWhile p) :
    y ∈ l.takeWhile p ∨ y = x ∧ p x = true ∧ ∀ a ∈ l, p a = true := by
  induction l with
  | nil =>
    right
    rw [nil_append, takeWhile_cons] at h
    split at h
    · next hp => exact ⟨mem_singleton.mp h, hp, nofun⟩
    · cases h
  | cons a l ih =>
    rw [cons_append, takeWhile_cons] at h
    rw [takeWhile_cons]
    split at h
    · next hp =>
      rw [if_pos hp]
      rcases mem_cons.mp h with rfl | hrest
      · exact .inl mem_cons_self
      · rcases ih hrest with hold | ⟨hx, hpx, hall⟩
        · exact .inl (mem_cons_of_mem _ hold)
        · exact .inr ⟨hx, hpx, forall_mem_cons.mpr ⟨hp, hall⟩⟩
    · cases h

variable {c : Nat} {s : Scheduler δ} {call : SubmitCall δ}

theorem InTime.record {calls taken} (h : InTime calls taken c call) (new : SubmitCall δ) :
    InTime (calls ++ [new]) taken c call where
  running := h.running
  mark := h.mark
  after := h.after
  overtaken := by
    intro c' hc'
    obtain ⟨call', hcall', hle⟩ := h.overtaken c' hc'
    exact ⟨call', getElem?_append_some hcall', hle⟩

theorem InTime.take {calls taken} (h : InTime calls taken c call) {x} (hx : c ∉ taken → x ≠ c →
      ∃ call', calls[x]? = some call' ∧ call'.item.priority ≤ call.item.priority) :
    InTime calls (taken ++ [x]) c call := by
  have hdrop : (taken ++ [x]).drop call.taken = taken.drop call.taken ++ [x] :=
    drop_append_of_le_length h.mark
  refine ⟨h.running, ?_, ?_, ?_⟩
  · rw [length_append]
    exact Nat.le_add_right_of_le h.mark
  · intro hc
    rw [hdrop]
    rcases mem_append.mp hc with hold | hnew
    · exact mem_append_left _ (h.after hold)
    · exact mem_append_right _ hnew
  · intro c' hc'
    rw [hdrop] at hc'
    rcases mem_takeWhile_snoc hc' with hold | ⟨rfl, hne, hall⟩
    · exact h.overtaken c' hold
    · refine hx (fun hmem => ?_) (of_decide_eq_true hne)
      exact of_decide_eq_true (hall c (h.after hmem)) rfl

def Timely (s : Scheduler δ) : Prop :=
  ∀ c call, s.calls[c]? = some call → call.accepted = true → InTime s.calls s.taken c call

theorem running_length_le (s : Scheduler δ) : s.running.length ≤ 1 := by
  unfold running
  split
  · exact Nat.le_refl 1
  · exact Nat.zero_le 1

theorem Ok.lt_of_taken (h : Ok s) (hc : c ∈ s.taken) : c < s.calls.length :=
  answered_lt (h.conserved.symm.subset (mem_append_left _ hc))

theorem mem_answered
    (hcall : s.calls[c]? = some call) (hacc : call.accepted = true) : c ∈ s.answered true := by
  have hlt := lt_of_getElem? hcall
  unfold answered
  rw [mem_filter, mem_range, hcall, any_some, hacc]
  exact ⟨hlt, rfl⟩

theorem Timely.record {t : Scheduler δ} (h : Timely s) (hok : Ok s) {item accepted}
    (hcalls : t.calls = (s.record item accepted).calls) (htaken : t.taken = s.taken) :
    Timely t := by
  intro c call hcall hacc
  rw [hcalls] at hcall ⊢
  rw [htaken]
  rcases getElem?_snoc_cases hcall with hold | ⟨rfl, rfl⟩
  · exact (h c call hold hacc).record _
  · have hdrop : s.taken.drop s.taken.length = [] := drop_length
    refine ⟨s.running_length_le, Nat.le_refl _, ?_, ?_⟩
    · intro hmem
      exact absurd (hok.lt_of_taken hmem) (Nat.lt_irrefl _)
    · intro c' hc'
      simp only [hdrop] at hc'
      cases hc'

theorem Timely.take (h : Timely s) (hok : Ok s) (htag : Tagged s) (hready : s.worker = .ready)
    (hne : s.items ≠ []) {e rest} (hpop : Heap.pop WorkEntry.less s.items = some (e, rest)) :
    Timely { s with items := rest, worker := .busy e } := by
  obtain ⟨-, hperm, -⟩ := hok.take hready hne hpop
  have hrun : s.running = [] := by
    unfold running
    rw [hready]
  have htaken : s.taken = s.executed := by
    rw [taken, hrun, append_nil]
  intro c call hcall hacc
  have hin := h c call hcall hacc
  rw [htaken] at hin
  refine hin.take (fun hnot hdiff => ?_)
  -- the call is pending, in an entry that stays
  have hpend : c ∈ s.pending := by
    have hmem := hok.conserved.subset (mem_answered hcall hacc)
    rw [hrun, append_nil] at hmem
    exact (mem_append.mp hmem).resolve_left hnot
  obtain ⟨ec, hec, rfl⟩ := mem_map.mp hpend
  have hstay : ec ∈ rest := by
    rcases mem_cons.mp (hperm.subset hec) with rfl | hold
    · exact absurd rfl hdiff
    · exact hold
  obtain ⟨hle, -⟩ := hok.take_least htag hready hne hpop hstay
  obtain ⟨call', hcall', hitem'⟩ :=
    hok.known e (.inl (hperm.symm.subset mem_cons_self))
  obtain ⟨callc, hcallc, hitemc⟩ := hok.known ec (.inl hec)
  obtain rfl : callc = call := mem_unique hcallc hcall
  refine ⟨call', hcall', ?_⟩
  rw [hitem', hitemc]
  exact hle

theorem Timely.step {s'} (h : Timely s) (hok : Ok s) (htag : Tagged s) {l} (hstep : Effect s l s') :
    Timely s' := by
  -- steps that record no call and take no item
  have hsame : ∀ t : Scheduler δ, t.calls = s.calls → t.taken = s.taken → Timely t := by
    intro t hcalls htaken c call hcall hacc
    rw [hcalls] at hcall ⊢
    rw [htaken]
    exact h c call hcall hacc
  cases hstep with
  | start hnew => exact hsame _ rfl (by simp [taken, running, hok.idle.mpr hnew])
  | startAgain => exact h
  | refuse => exact h.record hok rfl rfl
  | accept =>
    refine h.record hok rfl ?_
    unfold taken running enqueue wake
    cases s.worker <;> rfl
  | watch =>
    refine hsame _ rfl ?_
    unfold taken running wake
    cases s.worker <;> rfl
  | exit hready | sleep hready => exact hsame _ rfl (by simp [taken, running, hready])
  | take hready hne hpop => exact h.take hok htag hready hne hpop
  | done hbusy => exact hsame _ rfl (by simp [taken, running, hbusy])
  | _ => exact hsame _ rfl rfl

theorem timely_of_reachable : ∀ s, Reachable (schedulerSystem δ) s → Timely s := by
  refine invariant_ofFun Timely nofun ?_
  intro s l s' hs h hstep
  exact h.step (ok_of_reachable s hs) (tagged_of_reachable s hs) (effect_of_next hstep)

theorem Timely.lower_sublist (h : Timely s)
    (hcall : s.calls[c]? = some call) (hacc : call.accepted = true) :
    (s.lower c call).Sublist call.running := by
  have hin := h c call hcall hacc
  have hnone : ((s.taken.drop call.taken).takeWhile (fun c' => decide (c' ≠ c))).filter
      (fun c' => decide (call.item.priority < s.priorityOf c')) = [] := by
    rw [filter_eq_nil_iff]
    intro c' hc' hlt
    obtain ⟨call', hcall', hle⟩ := hin.overtaken c' hc'
    have hlt := of_decide_eq_true hlt
    unfold priorityOf at hlt
    rw [hcall'] at hlt
    exact absurd hlt (UInt8.not_lt.mpr hle)
  unfold lower waitsFor
  rw [filter_append, hnone, append_nil]
  exact filter_sublist

end Scheduler

/-! ## The size of an item -/

def frameLen (cfg : FeedConfig) (au : AccessUnit) : Nat :=
  feedHeaderLen + (if cfg.stampPublishWall then wallExtLen else 0) + au.bytes.length

/-- The frame fits into a chunk, or its loop cuts it. -/
def pacedUnit (cfg : FeedConfig) (au : AccessUnit) : Bool :=
  match cfg.loop with
  | .streamGOP | .streamLowLatency =>
    decide (frameLen cfg au ≤ pacingChunkBytes) ||
      decide (pacingChunkBytes < feedHeaderLen + au.bytes.length)
  | .datagramOrStream => !cfg.fallbackOpener || decide (frameLen cfg au ≤ pacingChunkBytes)
  | .bidiPerCall => true

theorem appendFeedFrame_length (cfg : FeedConfig) (now : WallClock) (au : AccessUnit)
    (typ flags : UInt8) :
    (appendFeedFrame typ au.ptsMicro au.seq flags (pubWall cfg now au) au.bytes).length =
      frameLen cfg au := by
  have hwall := pubWall_ne_zero_iff cfg now au
  unfold appendFeedFrame frameLen
  by_cases hstamp : cfg.stampPublishWall = true
  · simp [hwall.mpr hstamp, hstamp, Nat.add_assoc]
  · have hzero : pubWall cfg now au = 0 := not_not.mp (fun hne => hstamp (hwall.mp hne))
    simp [hzero, hstamp]

theorem chunkLoop_length_le (size fuel : Nat) (buf : List UInt8) :
    ∀ w ∈ chunkLoop size fuel buf, w.length ≤ size := by
  induction fuel generalizing buf with
  | zero => nofun
  | succ fuel ih =>
    intro w hw
    simp only [chunkLoop] at hw
    split at hw
    · cases hw
    · rcases mem_cons.mp hw with rfl | hrest
      · exact length_take_le _ _
      · exact ih _ w hrest

variable {au : AccessUnit} {cfg : FeedConfig}

theorem writeFrame_paced (hsched : cfg.scheduler = true) {now}
    (hfits : frameLen cfg au ≤ pacingChunkBytes ∨
      pacingChunkBytes < feedHeaderLen + au.bytes.length) {typ flags ws}
    (h : writeFrame cfg typ au.ptsMicro au.seq flags (pubWall cfg now au) au.bytes = some ws) :
    ∀ w ∈ ws, w.length ≤ pacingChunkBytes := by
  unfold writeFrame at h
  split at h
  · cases h
  · next hmax =>
    split at h
    · next hsmall =>
      rw [hsched, Bool.not_true, Bool.false_or, decide_eq_true_eq] at hsmall
      obtain ⟨buf, hbuf, rfl⟩ := map_eq_some_iff.mp h
      unfold writeFeedFramePooled at hbuf
      rw [if_neg hmax] at hbuf
      cases hbuf
      intro w hw
      rw [mem_singleton.mp hw, appendFeedFrame_length]
      exact hfits.resolve_right (Nat.not_lt.mpr hsmall)
    · cases h
      exact chunkLoop_length_le _ _ _

theorem feedWrites_paced (hsched : cfg.scheduler = true) (hloop : cfg.loop ≠ .bidiPerCall) {now}
    (hpaced : pacedUnit cfg au = true) {ws} (h : feedWrites cfg now au = some ws) :
    ∀ w ∈ ws, w.length ≤ pacingChunkBytes := by
  unfold feedWrites at h
  unfold pacedUnit at hpaced
  cases hl : cfg.loop with
  | datagramOrStream =>
    simp only [hl, Bool.or_eq_true, Bool.not_eq_true', decide_eq_true_eq] at h hpaced
    split at h
    · next hopener =>
      obtain ⟨buf, hbuf, rfl⟩ := map_eq_some_iff.mp h
      unfold writeFeedFramePooled at hbuf
      split at hbuf
      · cases hbuf
      · cases hbuf
        intro w hw
        rw [mem_singleton.mp hw, appendFeedFrame_length]
        exact hpaced.resolve_left (fun hno => Bool.false_ne_true (hno.symm.trans hopener))
    · cases h
  | bidiPerCall => exact absurd hl hloop
  | _ =>
    simp only [hl, Bool.or_eq_true, decide_eq_true_eq] at h hpaced
    exact writeFrame_paced hsched hpaced h

/-! ## The lanes -/

def LanePc.Paced (cfg : FeedConfig) : LanePc → Prop
  | .opening u => ∀ x ∈ u, pacedUnit cfg x.au = true
  | .header _ _ _ _ u => ∀ x ∈ u, pacedUnit cfg x.au = true
  | .writing _ _ w rest =>
    cfg.loop ≠ .bidiPerCall → cfg.scheduler = true →
      ∀ x ∈ w :: rest, x.length ≤ pacingChunkBytes
  | .sending u datagram =>
    cfg.loop ≠ .bidiPerCall ∧ pacedUnit cfg u.au = true ∧ datagram.length ≤ pacingChunkBytes
  | _ => True

/-- The loop of a bidi pump writes nothing itself. -/
structure Lane.Paced (ln : Lane) : Prop where
  pc : ln.pc.Paced ln.cfg
  bidi : ln.cfg.loop = .bidiPerCall → ln.call = true ∨ ln.pc = .waiting ∨ ln.pc = .done

namespace Lane

theorem idle_paced (ln : Lane) : ln.idle.Paced := by
  cases hcall : ln.call with
  | true => exact ⟨by simp [idle, hcall, LanePc.Paced], fun _ => .inl hcall⟩
  | false =>
    exact ⟨by simp [idle, hcall, LanePc.Paced], fun _ => .inr (.inl (by simp [idle, hcall]))⟩

variable {u : InHand} {ln : Lane} {bytes : List UInt8}

theorem Paced.own (h : ln.Paced) (hat : ln.bytes? = some bytes) :
    ln.cfg.loop = .bidiPerCall → ln.call = true := by
  intro hb
  refine (h.bidi hb).resolve_right ?_
  rintro (hpc | hpc) <;> simp [bytes?, hpc] at hat

theorem write_paced (ln : Lane) (hown : ln.cfg.loop = .bidiPerCall → ln.call = true) (i : Nat)
    (now : WallClock) (hu : pacedUnit ln.cfg u.au = true) : (ln.write i now u).Paced := by
  unfold write
  split
  · next w rest hws =>
    refine ⟨fun hloop hsched => feedWrites_paced hsched hloop hu hws, fun hb => .inl (hown hb)⟩
  · exact idle_paced _

theorem ready_paced (ln : Lane) (hown : ln.cfg.loop = .bidiPerCall → ln.call = true) (i : Nat)
    (now : WallClock) {u} (hu : ∀ x ∈ u, pacedUnit ln.cfg x.au = true) :
    (ln.ready i now u).Paced := by
  cases u with
  | none => exact idle_paced _
  | some x => exact ln.write_paced hown i now (hu x rfl)

theorem opened_paced (ln : Lane) (hown : ln.cfg.loop = .bidiPerCall → ln.call = true) (i : Nat)
    (now : WallClock) {u} (hu : ∀ x ∈ u, pacedUnit ln.cfg x.au = true) :
    (ln.opened i now u).Paced := by
  unfold opened
  split
  · split
    · exact ⟨hu, fun hb => .inl (hown hb)⟩
    · exact idle_paced _
  · exact ln.ready_paced hown i now hu

theorem opening_paced (ln : Lane) (hown : ln.cfg.loop ≠ .bidiPerCall)
    (hu : pacedUnit ln.cfg u.au = true) (leading : Bool) :
    Lane.Paced { ln with leadingAllowed := leading, pc := .opening (some u) } := by
  refine ⟨fun x hx => ?_, fun hb => absurd hb hown⟩
  cases hx
  exact hu

theorem fallbackOrDrop_paced (ln : Lane) (hown : ln.cfg.loop ≠ .bidiPerCall) (now : WallClock)
    (hu : pacedUnit ln.cfg u.au = true) : (ln.fallbackOrDrop now u).Paced :=
  fallbackOrDrop_induction (idle_paced _)
    (fun i _ => ln.write_paced (fun hb => absurd hb hown) i now hu) (ln.opening_paced hown hu _)

theorem receive_paced (ln : Lane) (hown : ln.cfg.loop ≠ .bidiPerCall) (now : WallClock)
    (hu : pacedUnit ln.cfg u.au = true) : (ln.receive now u).Paced := by
  refine receive_induction (idle_paced _)
    (fun i _ => ln.write_paced (fun hb => absurd hb hown) i now hu) (ln.opening_paced hown hu)
    (fun datagram hd => ?_) (fallbackOrDrop_paced { ln with seq := ln.seq + 1 } hown now hu)
    (fun hb => absurd hb hown)
  have hlen := encodeDatagram_length hd
  have hle : datagramHeaderLen + maxDatagramPayload ≤ pacingChunkBytes := by decide
  exact ⟨⟨hown, hu, Nat.le_trans hlen hle⟩, fun hb => absurd hb hown⟩

theorem resume_paced (h : ln.Paced) (hat : ln.bytes? = some bytes)
    (now : WallClock) (r : WriteResult) : (ln.resume now r).Paced := by
  have hown := h.own hat
  have hpc := h.pc
  have hres := resumed hat now r
  generalize ln.resume now r = m at hres ⊢
  cases hres with
  | headerDone hp =>
    rw [hp] at hpc
    exact ready_paced { ln with gate := .free } hown _ now hpc
  | headerMore hp =>
    rw [hp] at hpc
    exact ⟨hpc, fun hb => .inl (hown hb)⟩
  | frameMore hp =>
    rw [hp] at hpc
    refine ⟨fun hloop hsched x hx => hpc hloop hsched x (mem_cons_of_mem _ hx), ?_⟩
    exact fun hb => .inl (hown hb)
  | sendFailed hp =>
    rw [hp] at hpc
    exact fallbackOrDrop_paced { ln with gate := .free } hpc.1 now hpc.2.1
  | _ => exact idle_paced _

theorem Paced.submitted (h : ln.Paced)
    (hat : ln.bytes? = some bytes) (hsched : ln.scheduled = true) :
    bytes.length ≤ pacingChunkBytes := by
  obtain ⟨⟨hs, hcall⟩, hpc⟩ : (ln.cfg.scheduler = true ∧ ln.call = false) ∧ _ := by
    simpa [scheduled] using hsched
  have hloop : ln.cfg.loop ≠ .bidiPerCall := fun hb =>
    Bool.false_ne_true (hcall.symm.trans (h.own hat hb))
  have hp := h.pc
  unfold bytes? at hat
  cases hln : ln.pc with
  | writing i item w rest =>
    rw [hln] at hat hp
    obtain rfl := some.inj hat
    exact hp hloop hs w mem_cons_self
  | sending u datagram =>
    rw [hln] at hat hp
    cases hat
    exact hp.2.2
  | _ => simp [hln] at hpc

end Lane

/-! ## Results -/

namespace PumpSet

def paced (s : PumpSet) : PumpLabel → Bool
  | .dequeue i au _ => (s.lanes[i]?).all (fun ln => pacedUnit ln.cfg au)
  | _ => true

structure Paced (s : PumpSet) : Prop where
  lanes : ∀ ln ∈ s.lanes, ln.Paced
  calls : ∀ call ∈ s.sched.calls, call.item.act.bytes.length ≤ pacingChunkBytes

theorem start_paced (cfgs : List FeedConfig) : (PumpSet.start cfgs).Paced where
  lanes := by
    intro ln hln
    obtain ⟨cfg, -, rfl⟩ := mem_map.mp hln
    unfold Lane.start
    refine ⟨?_, fun hb => .inr (.inl ?_)⟩
    · split
      · exact nofun
      · trivial
    · have hb : cfg.loop = .bidiPerCall := hb
      simp [hb]
  calls := nofun

namespace Paced

variable {s : PumpSet}

theorem setLane (h : s.Paced) {i} {ln : Lane} (hln : ln.Paced) {t : PumpSet}
    (hcalls : t.sched.calls = s.sched.calls) (hlanes : t.lanes = s.lanes.set i ln) : t.Paced where
  lanes := by
    rw [hlanes]
    exact forall_mem_set h.lanes hln
  calls := by
    rw [hcalls]
    exact h.calls

theorem submit (h : s.Paced) {i ln bytes} (hlane : s.lanes[i]? = some ln)
    (hat : ln.bytes? = some bytes) (hsched : ln.scheduled = true) (gate : Gate) {t : PumpSet} {call}
    (hcalls : t.sched.calls = s.sched.calls ++ [call]) (hact : call.item.act.bytes = bytes)
    (hlanes : t.lanes = s.lanes.set i { ln with gate := gate }) : t.Paced := by
  have hln := h.lanes ln (mem_of_getElem? hlane)
  refine ⟨?_, ?_⟩
  · rw [hlanes]
    exact forall_mem_set h.lanes { hln with }
  · rw [hcalls]
    refine forall_mem_snoc h.calls ?_
    rw [hact]
    exact hln.submitted hat hsched

theorem step (h : s.Paced) (hq : Queued s) {l s'} (hstep : Effect s l s')
    (hpaced : s.paced l = true) : s'.Paced := by
  have hlanes {i : Nat} {ln : Lane} (hln : s.lanes[i]? = some ln) : ln.Paced :=
    h.lanes ln (mem_of_getElem? hln)
  cases hstep with
  | dequeue hlane hpc hown =>
    simp only [paced, hlane, all_some] at hpaced
    exact h.setLane (Lane.receive_paced _ hown _ hpaced) rfl rfl
  | call hlane hpc hbidi =>
    simp only [paced, hlane, all_some] at hpaced
    refine ⟨forall_mem_snoc h.lanes ⟨fun x hx => ?_, fun _ => .inl rfl⟩, h.calls⟩
    cases hx
    exact hpaced
  | opened hlane hpc =>
    have hln := hlanes hlane
    have hu := hln.pc
    rw [hpc] at hu
    have hown := fun hb => (hln.bidi hb).resolve_right (by simp [hpc])
    exact h.setLane (Lane.opened_paced _ hown _ _ hu) rfl rfl
  | openFailed hlane hpc => exact h.setLane (Lane.idle_paced _) rfl rfl
  | queue hlane hat hsched _ _ => exact h.submit hlane hat hsched .queued rfl rfl rfl
  | refuse hlane hat hsched _ _ => exact h.submit hlane hat hsched .inline rfl rfl rfl
  | write hlane hat _ => exact h.setLane (Lane.resume_paced (hlanes hlane) hat _ _) rfl rfl
  | @done now r e ln hbusy hlane =>
    exact h.setLane (Lane.resume_paced (hlanes hlane) (hq.busy hbusy hlane) _ _) rfl rfl
  | @stop i ln hlane hpc =>
    have hln : Lane.Paced { ln with pc := .done } := ⟨trivial, fun _ => .inr (.inr rfl)⟩
    exact h.setLane hln rfl rfl
  | sched hown hnext =>
    refine ⟨h.lanes, ?_⟩
    cases Scheduler.effect_of_next hnext with
    | refuse | accept => cases hown
    | _ => exact h.calls

end Paced

theorem paced_of_reachable {cfgs} :
    ∀ s, Reachable ((pumpSetSystem cfgs).restrict (fun s l => s.paced l = true)) s → s.Paced := by
  refine invariant_restrict Paced (start_paced cfgs) ?_
  intro s l s' hs h hok hstep
  exact h.step (queued_of_reachable s hs.of_restrict) (effect_of_next hstep) hok

end PumpSet

namespace Scheduler

def sizeOf (s : Scheduler Job) (c : Nat) : Nat :=
  (s.calls[c]?).elim 0 (fun call => call.item.act.bytes.length)

structure BoundedWait (s : Scheduler Job) : Prop where
  /-- At most one less urgent item, -/
  one : ∀ c call, s.calls[c]? = some call → call.accepted = true →
            (s.lower c call).length ≤ 1 ∧ ∀ c' ∈ s.lower c call, c' ∈ call.running
  /-- no item writes more than a chunk, -/
  chunk : ∀ call ∈ s.calls, call.item.act.bytes.length ≤ pacingChunkBytes
  /-- and so do the less urgent items together. -/
  bytes : ∀ c call, s.calls[c]? = some call → call.accepted = true →
            ((s.lower c call).map s.sizeOf).sum ≤ pacingChunkBytes

theorem sizeOf_le {s : Scheduler Job}
    (h : ∀ call ∈ s.calls, call.item.act.bytes.length ≤ pacingChunkBytes) (c : Nat) :
    s.sizeOf c ≤ pacingChunkBytes := by
  unfold sizeOf
  cases hc : s.calls[c]? with
  | none => exact Nat.zero_le _
  | some call => exact h call (mem_of_getElem? hc)

end Scheduler

/-- **Bounded inversion.** If all units can be paced, an accepted write waits for one less
    urgent item and a chunk of its bytes. -/
theorem bounded_inversion {cfgs : List FeedConfig} {s : PumpSet}
    (h : Reachable ((pumpSetSystem cfgs).restrict (fun s l => s.paced l = true)) s) :
    s.sched.BoundedWait := by
  have htimely := Scheduler.timely_of_reachable _ (PumpSet.sched_reachable s h.of_restrict)
  have hcalls := (PumpSet.paced_of_reachable s h).calls
  have hone : ∀ c call, s.sched.calls[c]? = some call → call.accepted = true →
      (s.sched.lower c call).length ≤ 1 ∧ ∀ c' ∈ s.sched.lower c call, c' ∈ call.running := by
    intro c call hcall hacc
    have hsub := htimely.lower_sublist hcall hacc
    exact ⟨Nat.le_trans hsub.length_le (htimely c call hcall hacc).running, hsub.subset⟩
  refine ⟨hone, hcalls, fun c call hcall hacc => ?_⟩
  have hsize := Scheduler.sizeOf_le hcalls
  match hlower : s.sched.lower c call, (hone c call hcall hacc).1 with
  | [], _ => exact Nat.zero_le _
  | [c'], _ => exact hsize c'

/-! ## Frames that are not paced -/

def bulkVideo : FeedConfig := { FeedConfig.zero with priority := 9, scheduler := true }

def urgentTokens : FeedConfig :=
  { FeedConfig.zero with priority := 1, scheduler := true, delivery := .streamLowLatency }

def bulkTelemetry : FeedConfig :=
  { FeedConfig.zero with
    priority := 9, scheduler := true, delivery := .datagramOrStream, datagramSender := true,
    fallbackOpener := true }

/-- The frame of `au` is being written when a token is submitted. -/
def urgentRun (au : AccessUnit) : List PumpLabel :=
  [.sched .start, .opened 1 firstTick, .dequeue 0 au firstTick, .opened 0 firstTick, .submit 0, .sched .lock,
   .dequeue 1 (.bare true 1) firstTick, .submit 1]

theorem bounded_inversion_video :
    ∃ s, Reachable ((pumpSetSystem [bulkVideo, urgentTokens]).restrict
        (fun s l => s.paced l = true)) s ∧
      s.sched.running = [0] ∧ s.sched.pending = [1] ∧ s.sched.BoundedWait :=
  exists_run_given_imp (urgentRun (.bare true 1))
    (fun s hs (hp : s.sched.running = [0] ∧ s.sched.pending = [1]) =>
      ⟨hp.1, hp.2, bounded_inversion hs⟩) (by decide +kernel)

def alone (ln : Lane) (streams : List OutStream) (units : List AccessUnit) : PumpSet where
  sched := Scheduler.new.start
  lanes := [ln]
  streams := streams
  units := units
  sent := []

theorem submits_first_write {ln : Lane} {w rest} (hwait : cfg.loop ≠ .streamLowLatency)
    (hown : cfg.loop ≠ .bidiPerCall) (hname : ln.cfg.trackName = [])
    (hsched : ln.cfg.scheduler = true) (hgate : ln.gate = .free) (hcall : ln.call = false)
    (hrecv : (Lane.start cfg).receive firstTick ⟨0, au⟩ = ln)
    (hopen : ln.pc = .opening (some ⟨0, au⟩))
    (hwrites : feedWrites ln.cfg firstTick au = some (w :: rest)) :
    ∃ s, Reachable (pumpSetSystem [cfg]) s ∧
      ∃ call ∈ s.sched.calls, call.accepted = true ∧ call.item.act.bytes = w := by
  have hstart : (Lane.start cfg).pc = .waiting := if_neg hwait
  have hloop : (Lane.start cfg).cfg.loop ≠ .bidiPerCall := hown
  obtain ⟨m, hm⟩ : ∃ m, ln.opened 0 firstTick (some ⟨0, au⟩) = m := ⟨_, rfl⟩
  have hm' : m = { ln with current := some 0
                           pc := .writing 0 ⟨some 0, (w :: rest).flatten⟩ w rest } := by
    rw [← hm]
    simp [Lane.opened, hname, Lane.ready, Lane.write, hwrites]
  have hat : m.bytes? = some w := by rw [hm']; rfl
  have hm'' : m.scheduled = true ∧ m.gate = .free := by
    rw [hm']
    simp [Lane.scheduled, hsched, hcall, hgate]
  have hdequeue : (alone (Lane.start cfg) [] []).next (.dequeue 0 au firstTick) =
      some (alone ln [] [au]) := by
    simp [PumpSet.next, alone, hstart, PumpSet.dequeue, PumpSet.setLane, hloop, hrecv]
  have hopened : (alone ln [] [au]).next (.opened 0 firstTick) =
      some (alone m [OutStream.fresh ln.cfg] [au]) := by
    simp [PumpSet.next, alone, hopen, PumpSet.setLane, hm]
  have hsubmit : (alone m [OutStream.fresh ln.cfg] [au]).next (.submit 0) =
      some ((alone m [OutStream.fresh ln.cfg] [au]).submit 0 m w) := by
    simp [PumpSet.next, alone, hat, hm''.1, hm''.2]
  have h₁ : Reachable (pumpSetSystem [cfg]) (alone (Lane.start cfg) [] []) :=
    Reachable.step (.sched .start) (Reachable.init rfl) rfl
  have h₄ := ((h₁.step _ hdequeue).step _ hopened).step _ hsubmit
  exact ⟨_, h₄, _, mem_singleton_self _, rfl, rfl⟩

theorem fallback_item (hlarge : maxDatagramPayload < au.bytes.length)
    (hmax : au.bytes.length ≤ maxFeedPayload) :
    ∃ s, Reachable (pumpSetSystem [bulkTelemetry]) s ∧
      ∃ call ∈ s.sched.calls, call.accepted = true ∧
        call.item.act.bytes.length = frameLen bulkTelemetry au := by
  have hrecv : (Lane.start bulkTelemetry).receive firstTick ⟨0, au⟩ =
      { Lane.start bulkTelemetry with seq := 1, pc := .opening (some ⟨0, au⟩) } := by
    have henc : ∀ seq, encodeDatagram 0 seq au.bytes = none := fun _ => if_pos hlarge
    show (Lane.start bulkTelemetry).receiveDatagram firstTick ⟨0, au⟩ = _
    unfold Lane.receiveDatagram
    rw [show encodeDatagram (Lane.start bulkTelemetry).cfg.trackID _ au.bytes = none from henc _]
    rfl
  have hwrites : feedWrites bulkTelemetry firstTick au =
      some [appendFeedFrame typeKeyframe au.ptsMicro au.seq (frameFlags true au.discontinuity)
        (pubWall bulkTelemetry firstTick au) au.bytes] := by
    have hpool : ∀ typ flags wall, writeFeedFramePooled typ au.ptsMicro au.seq flags wall au.bytes =
        some (appendFeedFrame typ au.ptsMicro au.seq flags wall au.bytes) :=
      fun _ _ _ => if_neg (Nat.not_lt.mpr hmax)
    show (writeFeedFramePooled _ _ _ _ _ _).map _ = _
    rw [hpool]
    rfl
  obtain ⟨s, hs, call, hcall, hacc, hbytes⟩ := submits_first_write (by decide) (by decide)
    rfl rfl rfl rfl hrecv rfl hwrites
  exact ⟨s, hs, call, hcall, hacc, by rw [hbytes, appendFeedFrame_length]⟩

theorem wall_item (hkey : au.keyframe = true)
    (hsmall : feedHeaderLen + au.bytes.length ≤ pacingChunkBytes) :
    ∃ s, Reachable (pumpSetSystem [{ bulkVideo with stampPublishWall := true }]) s ∧
      ∃ call ∈ s.sched.calls, call.accepted = true ∧
        call.item.act.bytes.length = feedHeaderLen + wallExtLen + au.bytes.length := by
  have hrecv : (Lane.start { bulkVideo with stampPublishWall := true }).receive firstTick ⟨0, au⟩ =
      { Lane.start { bulkVideo with stampPublishWall := true } with
        leadingAllowed := false, pc := .opening (some ⟨0, au⟩) } := if_pos hkey
  have hmax : ¬ maxFeedPayload < au.bytes.length := by
    have : pacingChunkBytes ≤ maxFeedPayload := by decide
    omega
  have hwrites : feedWrites { bulkVideo with stampPublishWall := true } firstTick au =
      some [appendFeedFrame (if au.keyframe then typeKeyframe else typePFrame) au.ptsMicro au.seq
        (frameFlags au.keyframe au.discontinuity)
        (pubWall { bulkVideo with stampPublishWall := true } firstTick au) au.bytes] := by
    show writeFrame _ _ _ _ _ _ _ = _
    unfold writeFrame writeFeedFramePooled
    rw [if_neg hmax, if_pos (by simp [hsmall]), if_neg hmax]
    rfl
  obtain ⟨s, hs, call, hcall, hacc, hbytes⟩ := submits_first_write (by decide) (by decide)
    rfl rfl rfl rfl hrecv rfl hwrites
  exact ⟨s, hs, call, hcall, hacc, by rw [hbytes, appendFeedFrame_length]; rfl⟩

def unitOf (n : Nat) : AccessUnit := { AccessUnit.bare true 1 with bytes := List.replicate n 0 }

theorem unitOf_length (n : Nat) : (unitOf n).bytes.length = n := length_replicate

/-- The largest frame goes out in one fallback write, and a video frame exceeds the chunk by
    its publish wall. -/
theorem fallback_not_paced :
    (∃ s, Reachable (pumpSetSystem [bulkTelemetry]) s ∧
      ∃ call ∈ s.sched.calls, call.accepted = true ∧
        call.item.act.bytes.length = feedHeaderLen + maxFeedPayload) ∧
    (∃ s, Reachable (pumpSetSystem [{ bulkVideo with stampPublishWall := true }]) s ∧
      ∃ call ∈ s.sched.calls, call.accepted = true ∧
        pacingChunkBytes < call.item.act.bytes.length) := by
  constructor
  · obtain ⟨s, hs, call, hcall, hacc, hlen⟩ := @fallback_item (unitOf maxFeedPayload)
      (by rw [unitOf_length]; decide) (by rw [unitOf_length])
    refine ⟨s, hs, call, hcall, hacc, ?_⟩
    rw [hlen, frameLen, unitOf_length]
    rfl
  · obtain ⟨s, hs, call, hcall, hacc, hlen⟩ := @wall_item
      (unitOf (pacingChunkBytes - feedHeaderLen)) rfl (by rw [unitOf_length]; decide)
    refine ⟨s, hs, call, hcall, hacc, ?_⟩
    rw [hlen, unitOf_length]
    decide

end QuicRTC

import QuicRTC.Pubsub.Broadcaster

/-! # The Replay Ring over Whole Runs

What the ring holds after any sequence of publishes, changes of the two limits, and changes of the
interceptor chain.
-/

namespace QuicRTC

open List

/-! ## Calls -/

inductive ReplayCall where
  | publish (au : AccessUnit)
  | setReplayCap (cap : Int)
  | setReplayMaxBytes (n : Int)
  | addInterceptor (fn : Option Interceptor)
  | removeInterceptor (id : UInt64)

def ReplayCall.publishes : ReplayCall → Bool
  | .publish _ => true
  | _ => false

def ReplayCall.setsLimit : ReplayCall → Bool
  | .setReplayCap _ => true
  | .setReplayMaxBytes _ => true
  | _ => false

/-- A broadcaster and the units it has accepted, in order. -/
structure ReplayLog where
  bc : Broadcaster
  accepted : List AccessUnit

namespace ReplayLog

def new (chanSize maxAUBytes : Int) : ReplayLog where
  bc := newBroadcasterWithBytes chanSize maxAUBytes
  accepted := []

def call (s : ReplayLog) : ReplayCall → ReplayLog
  | .publish au =>
    match s.bc.accept au with
    | none => s
    | some au => ⟨s.bc.publishLocked au, s.accepted ++ [au]⟩
  | .setReplayCap cap => { s with bc := s.bc.setReplayCap cap }
  | .setReplayMaxBytes n => { s with bc := s.bc.setReplayMaxBytes n }
  | .addInterceptor fn => { s with bc := (s.bc.addInterceptor fn).1 }
  | .removeInterceptor id => { s with bc := s.bc.removeInterceptor id }

def run (s : ReplayLog) (calls : List ReplayCall) : ReplayLog := calls.foldl call s

def Recorded (s : ReplayLog) : Prop := s.bc.replay.Window AccessUnit.size s.accepted

def Full (s : ReplayLog) : Prop :=
  RingBuffer.Longest AccessUnit.size s.bc.replay.cap s.bc.replay.maxBytes s.accepted
    s.bc.replay.snapshot

/-! ## What one call does to the ring -/

/-- It left the ring alone, recorded an accepted unit, or set a limit. -/
inductive Did (s : ReplayLog) : ReplayCall → ReplayLog → Prop where
  | nothing {c : ReplayCall} {s' : ReplayLog} (hring : s'.bc.replay = s.bc.replay)
      (hacc : s'.accepted = s.accepted) : Did s c s'
  | recorded {au' : AccessUnit} (au : AccessUnit) (hacc : s.bc.accept au' = some au) :
      Did s (.publish au') ⟨s.bc.publishLocked au, s.accepted ++ [au]⟩
  | resized (cap : Int) :
      Did s (.setReplayCap cap) { s with bc := s.bc.setReplayCap cap }
  | rebudgeted (n : Int) :
      Did s (.setReplayMaxBytes n) { s with bc := s.bc.setReplayMaxBytes n }

theorem did_call (s : ReplayLog) (c : ReplayCall) : Did s c (s.call c) := by
  cases c with
  | publish au =>
    simp only [call]
    split
    · exact .nothing rfl rfl
    · next au' hacc => exact .recorded au' hacc
  | setReplayCap cap => exact .resized cap
  | setReplayMaxBytes n => exact .rebudgeted n
  | addInterceptor fn => cases fn <;> exact .nothing rfl rfl
  | removeInterceptor id =>
    refine .nothing ?_ rfl
    show (s.bc.removeInterceptor id).replay = s.bc.replay
    unfold Broadcaster.removeInterceptor
    split <;> rfl

theorem window_setReplayCap {b : Broadcaster} {hist} (h : b.replay.Window AccessUnit.size hist)
    (cap : Int) : (b.setReplayCap cap).replay.Window AccessUnit.size hist := by
  unfold Broadcaster.setReplayCap
  split
  · exact h
  · have hnew : (RingBuffer.empty cap.toNat b.replay.maxBytes).Window AccessUnit.size [] :=
      RingBuffer.Window.empty AccessUnit.size _ _ []
    refine (hnew.refill (b.replay.snapshot.rtake cap.toNat)).1.mono ?_
    exact (drop_suffix _ _).trans h.suffix

variable {s : ReplayLog}

theorem Recorded.call (h : s.Recorded) (c : ReplayCall) : (s.call c).Recorded := by
  have hdid := did_call s c
  generalize s.call c = s' at hdid ⊢
  unfold Recorded at h ⊢
  cases hdid with
  | nothing hring hacc => rwa [hring, hacc]
  | recorded au _ => exact (h.append au).1
  | resized cap => exact window_setReplayCap h cap
  | rebudgeted n => exact (h.setMaxBytes _).1

theorem recorded_new (chanSize maxAUBytes : Int) : (new chanSize maxAUBytes).Recorded :=
  RingBuffer.Window.empty AccessUnit.size _ _ []

theorem Recorded.run (h : s.Recorded) (calls : List ReplayCall) : (s.run calls).Recorded := by
  induction calls generalizing s with
  | nil => exact h
  | cons c calls ih => exact ih (h.call c)

theorem window_run (chanSize maxAUBytes : Int) (calls : List ReplayCall) :
    ((new chanSize maxAUBytes).run calls).Recorded :=
  (recorded_new chanSize maxAUBytes).run calls

/-! ## While the limits stay fixed -/

theorem Full.call (hw : s.Recorded) (h : s.Full) {c : ReplayCall} (hc : c.setsLimit = false) :
    (s.call c).Full := by
  have hdid := did_call s c
  generalize s.call c = s' at hdid ⊢
  cases hdid with
  | nothing hring hacc =>
    unfold Full at h ⊢
    rwa [hring, hacc]
  | recorded au _ =>
    obtain ⟨-, hcap, hmax⟩ := RingBuffer.Window.append hw au
    have hl := RingBuffer.Window.append_longest hw h au
    rw [← hcap, ← hmax] at hl
    exact hl
  | _ => cases hc

theorem Full.run (hw : s.Recorded) (h : s.Full) {calls} (hc : ∀ c ∈ calls, c.setsLimit = false) :
    (s.run calls).Full := by
  induction calls generalizing s with
  | nil => exact h
  | cons c calls ih =>
    have hone : c.setsLimit = false := hc c mem_cons_self
    exact ih (hw.call c) (h.call hw hone) (fun d hd => hc d (mem_cons_of_mem _ hd))

theorem accepted_run_of_no_publish (s : ReplayLog) {calls} (hc : ∀ c ∈ calls, c.publishes = false) :
    (s.run calls).accepted = s.accepted := by
  induction calls generalizing s with
  | nil => rfl
  | cons c calls ih =>
    have hone : c.publishes = false := hc c mem_cons_self
    have hacc : (s.call c).accepted = s.accepted := by
      have hdid := did_call s c
      generalize s.call c = s' at hdid ⊢
      cases hdid with
      | nothing _ hacc => exact hacc
      | recorded au _ => cases hone
      | _ => rfl
    exact (ih (s.call c) (fun d hd => hc d (mem_cons_of_mem _ hd))).trans hacc

theorem full_of_nil (hw : s.Recorded) (h : s.accepted = []) : s.Full := by
  have hsnap : s.bc.replay.snapshot = [] := suffix_nil.mp (h ▸ hw.suffix)
  unfold Full
  rw [h, hsnap]
  exact RingBuffer.longest_nil AccessUnit.size _ _

/-- **The ring is a bounded suffix** of the accepted units, within its limits; while these
    stay as set before the first publish, no longer suffix meets them. -/
theorem replay_ring_is_bounded_suffix (chanSize maxAUBytes : Int) (calls : List ReplayCall) :
    let s := (new chanSize maxAUBytes).run calls
    let ring := s.bc.replay
    ring.snapshot <:+ s.accepted ∧
    ring.snapshot.length ≤ ring.cap ∧
    ring.bytes = RingBuffer.total AccessUnit.size ring.snapshot ∧
    (0 < ring.maxBytes →
      RingBuffer.total AccessUnit.size ring.snapshot ≤ ring.maxBytes ∨
        ring.snapshot.length = 1) ∧
    ∀ before after : List ReplayCall, calls = before ++ after →
      (∀ c ∈ before, c.publishes = false) → (∀ c ∈ after, c.setsLimit = false) →
      RingBuffer.Longest AccessUnit.size ring.cap ring.maxBytes s.accepted ring.snapshot := by
  intro s ring
  have hw : s.Recorded := window_run chanSize maxAUBytes calls
  refine ⟨hw.suffix, hw.within.1, hw.valid.snapshot_total.symm, hw.within.2, ?_⟩
  intro before after hcalls hbefore hafter
  have hconf := window_run chanSize maxAUBytes before
  have hnil : ((new chanSize maxAUBytes).run before).accepted = [] :=
    accepted_run_of_no_publish _ hbefore
  have hrun : s = ((new chanSize maxAUBytes).run before).run after := by
    show (new chanSize maxAUBytes).run calls = _
    rw [hcalls]
    exact foldl_append
  have hfull : s.Full := hrun ▸ (full_of_nil hconf hnil).run hconf hafter
  exact hfull

/-- **`ReplaySince` is exact**: where the numbers ascend it returns every accepted unit from
    `fromSeq` on, or reports that `fromSeq` is below the oldest unit held. -/
theorem replaySince_exact (chanSize maxAUBytes : Int) (calls : List ReplayCall)
    (hasc : SeqAscending ((new chanSize maxAUBytes).run calls).accepted) (fromSeq : UInt32) :
    let s := (new chanSize maxAUBytes).run calls
    (s.bc.replay.snapshot ≠ [] → ∀ replay, s.bc.replaySince fromSeq = some replay →
      replay = s.accepted.filter (fun x => decide (fromSeq ≤ x.seq))) ∧
    (s.bc.replaySince fromSeq = none ↔
      ∃ oldest, s.bc.replay.snapshot.head? = some oldest ∧ fromSeq < oldest.seq) := by
  intro s
  have hw : s.Recorded := window_run chanSize maxAUBytes calls
  cases hsnap : s.bc.replay.snapshot with
  | nil =>
    -- an empty ring never reports a gap
    have hlen : s.bc.replay.buf.length = 0 := by
      rw [← hw.valid.snapshot_length, hsnap, length_nil]
    refine ⟨fun h => absurd rfl h, ?_⟩
    unfold Broadcaster.replaySince
    rw [if_pos (.inr hlen)]
    simp
  | cons au rest =>
    have heq := Broadcaster.replaySince_eq hw.valid hw.suffix hasc hsnap fromSeq
    rw [heq]
    refine ⟨fun _ replay hr => ?_, ?_⟩
    · rw [Option.ite_none_left_eq_some] at hr
      exact (Option.some.inj hr.2).symm
    · simp

/-- The first of three units is gone. -/
theorem replaySince_exact_two_slots : let calls : List ReplayCall :=
      [.setReplayCap 2, .publish (.bare true 1), .publish (.bare false 2), .publish (.bare false 3)]
    ((new 4 0).run calls).bc.replay.snapshot = [.bare false 2, .bare false 3] ∧
    (((new 4 0).run calls).bc.replaySince 1 = none ↔
      ∃ oldest, ((new 4 0).run calls).bc.replay.snapshot.head? = some oldest ∧
        (1 : UInt32) < oldest.seq) := by
  intro calls
  exact ⟨by decide, (replaySince_exact 4 0 calls (by decide) 1).2⟩

end ReplayLog

end QuicRTC

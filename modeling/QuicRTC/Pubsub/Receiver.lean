import QuicRTC.Framework.Chan
import QuicRTC.Framework.Keyed

/-! # Receivers

The subscriber side of `pubsub/broadcaster.go`. The per-receiver section of `Publish` runs under
`r.mu`, but the consumer reads `r.ch` without it. The section is therefore given as its three
`select` statements; `fanout` is the section when no read falls between them.
-/

namespace QuicRTC

open List

/-! ## Access units -/

/-- The metadata fields of wire format v2 are read by no modelled function. -/
structure AccessUnit where
  bytes : List UInt8
  keyframe : Bool
  ptsMicro : UInt64
  seq : UInt32
  discontinuity : Bool
  pubWallMicro : UInt64
  deriving DecidableEq

def AccessUnit.key (au : AccessUnit) : Nat := au.seq.toNat

/-- A unit without payload. -/
def AccessUnit.bare (keyframe : Bool) (seq : UInt32) : AccessUnit where
  bytes := []
  keyframe := keyframe
  ptsMicro := 0
  seq := seq
  discontinuity := false
  pubWallMicro := 0

def SeqAscending (l : List AccessUnit) : Prop := l.Pairwise (fun a b => a.key < b.key)

instance (l : List AccessUnit) : Decidable (SeqAscending l) :=
  inferInstanceAs (Decidable (l.Pairwise _))

/-! ## Receivers -/

/-- One subscriber handle. -/
structure Receiver where
  ch : Chan AccessUnit
  closed : Bool
  needKeyframe : Bool

namespace Receiver

/-- Where no receiver was allocated. -/
def absent : Receiver := { ch := Chan.make 0, closed := true, needKeyframe := false }

def queue (r : Receiver) : List AccessUnit := r.ch.buf

def cap (r : Receiver) : Nat := r.ch.cap

def requestKeyframe (r : Receiver) : Receiver := { r with needKeyframe := true }

/-- The consumer's read of `Frames()`. -/
def recv (r : Receiver) : Option (AccessUnit × Receiver) :=
  match r.ch.tryRecv with
  | some (au, ch) => some (au, { r with ch := ch })
  | none => none

/-- Once. -/
def close (r : Receiver) : Receiver :=
  if r.closed then r else { r with closed := true, ch := r.ch.close }

/-! ### The per-receiver section of `Publish` -/

/-- `true`: the channel is full and room has to be made. -/
def fanoutTry (selfContained : Bool) (au : AccessUnit) (r : Receiver) : Receiver × Bool :=
  if r.closed then (r, false)
  else if selfContained then
    match r.ch.trySend au with
    | some ch => ({ r with ch := ch }, false)
    | none => (r, true)
  else if r.needKeyframe && !au.keyframe then (r, false)
  else
    match r.ch.trySend au with
    | some ch =>
      ({ r with
          ch := ch
          needKeyframe := if au.keyframe then false else r.needKeyframe }, false)
    | none =>
      if au.keyframe then (r, true)
      else ({ r with needKeyframe := true }, false)

/-- If any unit is left. -/
def fanoutEvict (r : Receiver) : Receiver := { r with ch := r.ch.evictOldest }

def fanoutResend (selfContained : Bool) (au : AccessUnit) (r : Receiver) : Receiver :=
  match r.ch.trySend au with
  | some ch =>
    if selfContained then { r with ch := ch }
    else { r with ch := ch, needKeyframe := false }
  | none =>
    if selfContained then r else { r with needKeyframe := true }

/-- With no read in between. -/
def fanout (selfContained : Bool) (au : AccessUnit) (r : Receiver) : Receiver :=
  match r.fanoutTry selfContained au with
  | (r', false) => r'
  | (r', true) => r'.fanoutEvict.fanoutResend selfContained au

/-! ### `SpliceFront` -/

/-- A buffered copy wins. -/
def mergeBySeq (replay current : List AccessUnit) : List AccessUnit :=
  Keyed.mergeByKey AccessUnit.key replay current

def spliceFront (r : Receiver) (replay : List AccessUnit) : Receiver :=
  if replay.isEmpty then r
  else if r.closed then r
  else
    match r.ch.drained.fill (mergeBySeq replay r.ch.buf) with
    | (ch, true) => { r with ch := ch }
    | (ch, false) => { r with ch := ch, needKeyframe := true }

section

variable (r : Receiver)
include r

@[simp] theorem fanoutEvict_queue : r.fanoutEvict.queue = r.queue.tail := rfl

@[simp] theorem close_queue : r.close.queue = r.queue := by
  unfold close; split <;> rfl

@[simp] theorem close_closed : r.close.closed = true := by
  unfold close; split
  · assumption
  · rfl

@[simp] theorem close_cap : r.close.cap = r.cap := by
  unfold close; split <;> rfl

@[simp] theorem close_needKeyframe : r.close.needKeyframe = r.needKeyframe := by
  unfold close; split <;> rfl

end

/-! ## What each operation does -/

theorem queue_length_le (r : Receiver) : r.queue.length ≤ r.cap := r.ch.len_le

variable {au x : AccessUnit} {r : Receiver}

theorem recv_some {r'} (h : r.recv = some (au, r')) :
    r.queue = au :: r'.queue ∧ r'.cap = r.cap ∧ r'.closed = r.closed ∧
      r'.needKeyframe = r.needKeyframe := by
  unfold recv at h
  split at h
  · next a ch hch =>
    obtain ⟨rfl, rfl⟩ := h
    obtain ⟨hbuf, hcap⟩ := Chan.tryRecv_some hch
    exact ⟨hbuf, hcap, rfl, rfl⟩
  · cases h

theorem recv_of_cons {rest} (h : r.queue = au :: rest) : ∃ x, r.recv = some (au, x) := by
  have hbuf : r.ch.buf = au :: rest := h
  exact ⟨{ r with ch := r.ch.evictOldest }, by simp [recv, Chan.tryRecv, hbuf]⟩

/-- The receiver after it, and whether room has to be made. -/
inductive TryOutcome (sc : Bool) (au : AccessUnit) (r : Receiver) : Receiver × Bool → Prop where
  | skipped (hskip : r.closed = true ∨
        (sc = false ∧ r.needKeyframe = true ∧ au.keyframe = false)) :
      TryOutcome sc au r (r, false)
  | enqueued (r' : Receiver) (hopen : r.closed = false) (hopen' : r'.closed = false)
      (hroom : r.queue.length < r.cap) (hqueue : r'.queue = r.queue ++ [au])
      (hcap : r'.cap = r.cap)
      (hgate : sc = false → r.needKeyframe = false ∨ au.keyframe = true)
      (hneed : r'.needKeyframe = (if sc then r.needKeyframe else false)) :
      TryOutcome sc au r (r', false)
  | full (hopen : r.closed = false) (hfull : r.queue.length = r.cap)
      (hevict : sc = true ∨ au.keyframe = true) :
      TryOutcome sc au r (r, true)
  | dropped (hopen : r.closed = false) (hfull : r.queue.length = r.cap)
      (hvideo : sc = false) (hp : au.keyframe = false) :
      TryOutcome sc au r ({ r with needKeyframe := true }, false)

theorem fanoutTry_outcome (sc : Bool) (au : AccessUnit) (r : Receiver) :
    TryOutcome sc au r (r.fanoutTry sc au) := by
  unfold fanoutTry
  by_cases hcl : r.closed = true
  · rw [if_pos hcl]
    exact .skipped (.inl hcl)
  · rw [if_neg hcl]
    have hopen : r.closed = false := by simpa using hcl
    -- The two kinds of track have their own branch in the source.
    cases sc with
    | true =>
      simp only [if_true]
      split
      · next ch hs =>
        obtain ⟨hlt, hbuf, hcap⟩ := Chan.trySend_some hs
        exact .enqueued _ hopen hopen hlt hbuf hcap (by simp) rfl
      · next hs => exact .full hopen (Chan.trySend_none hs) (.inl rfl)
    | false =>
      simp only [Bool.false_eq_true, if_false]
      split
      · next hg =>
        simp only [Bool.and_eq_true, Bool.not_eq_true'] at hg
        exact .skipped (.inr ⟨rfl, hg.1, hg.2⟩)
      · next hg =>
        -- The gate was passed, so one of the two reasons to skip fails.
        have hgate : r.needKeyframe = false ∨ au.keyframe = true := by
          cases hn : r.needKeyframe <;> cases hk : au.keyframe <;> simp_all
        split
        · next ch hs =>
          obtain ⟨hlt, hbuf, hcap⟩ := Chan.trySend_some hs
          refine .enqueued _ hopen hopen hlt hbuf hcap (fun _ => hgate) ?_
          rcases hgate with hn | hk
          · simp [hn]
          · simp [hk]
        · next hs =>
          split
          · next hk => exact .full hopen (Chan.trySend_none hs) (.inr hk)
          · next hk =>
            exact .dropped hopen (Chan.trySend_none hs) rfl (by simpa using hk)

theorem fanoutTry_of_room (sc : Bool) (au : AccessUnit)
    (h : r.queue.length < r.cap) : (r.fanoutTry sc au).2 = false := by
  have hout := fanoutTry_outcome sc au r
  generalize r.fanoutTry sc au = res at hout ⊢
  cases hout with
  | full _ hfull _ => exact absurd hfull (Nat.ne_of_lt h)
  | _ => rfl

theorem fanoutResend_of_lt (sc : Bool) (au : AccessUnit) (h : r.queue.length < r.cap) :
    (r.fanoutResend sc au).queue = r.queue ++ [au] ∧
      (r.fanoutResend sc au).cap = r.cap ∧ (r.fanoutResend sc au).closed = r.closed ∧
      (r.fanoutResend sc au).needKeyframe = (if sc then r.needKeyframe else false) := by
  obtain ⟨ch, hs, hbuf, hcap⟩ := Chan.trySend_of_lt au h
  unfold fanoutResend
  rw [hs]
  cases sc with
  | true | false => exact ⟨hbuf, hcap, rfl, rfl⟩

theorem fanoutResend_outcome (sc : Bool) (au : AccessUnit) (r : Receiver) :
    ((r.fanoutResend sc au).queue = r.queue ++ [au] ∨
        ((r.fanoutResend sc au).queue = r.queue ∧
          (sc = false → (r.fanoutResend sc au).needKeyframe = true))) ∧
      (r.fanoutResend sc au).cap = r.cap ∧ (r.fanoutResend sc au).closed = r.closed := by
  unfold fanoutResend
  split
  · next ch hs =>
    obtain ⟨-, hbuf, hcap⟩ := Chan.trySend_some hs
    cases sc <;> exact ⟨.inl hbuf, hcap, rfl⟩
  · cases sc <;> exact ⟨.inr ⟨rfl, by simp⟩, rfl, rfl⟩

theorem fanout_spec (sc : Bool) (au : AccessUnit) (r : Receiver) :
    List.Sublist (r.fanout sc au).queue (r.queue ++ [au]) ∧
      (r.queue.length < r.cap → r.queue <+: (r.fanout sc au).queue) ∧
      (r.fanout sc au).cap = r.cap ∧ (r.fanout sc au).closed = r.closed := by
  have hout := fanoutTry_outcome sc au r
  unfold fanout
  generalize r.fanoutTry sc au = p at hout ⊢
  cases hout with
  | skipped _ =>
    exact ⟨sublist_append_left _ _, fun _ => prefix_refl _, rfl, rfl⟩
  | enqueued r' hopen hopen' hroom hqueue hcap _ _ =>
    refine ⟨?_, fun _ => ?_, hcap, hopen'.trans hopen.symm⟩
    · exact hqueue ▸ Sublist.refl _
    · exact hqueue ▸ prefix_append _ _
  | full hopen hfull _ =>
    obtain ⟨hq, hc, ho⟩ := fanoutResend_outcome sc au r.fanoutEvict
    refine ⟨?_, fun hlt => by omega, hc, ho⟩
    -- The oldest unit is gone, whether or not the new one got in.
    have htail : Sublist r.queue.tail r.queue := tail_sublist _
    rcases hq with hq | ⟨hq, -⟩ <;> rw [hq, fanoutEvict_queue]
    · exact htail.append (Sublist.refl _)
    · exact htail.trans (sublist_append_left _ _)
  | dropped hopen hfull _ _ =>
    exact ⟨sublist_append_left _ _, fun hlt => by omega, rfl, rfl⟩

@[simp] theorem spliceFront_closed (r : Receiver) (replay : List AccessUnit) :
    (r.spliceFront replay).closed = r.closed := by
  unfold spliceFront
  repeat' split
  all_goals rfl

theorem spliceFront_spec {replay} (hne : replay ≠ []) (hopen : r.closed = false) (hcap : 0 < r.cap) :
    (r.spliceFront replay).queue = (mergeBySeq replay r.queue).rtake r.cap ∧
      (r.spliceFront replay).cap = r.cap ∧ (r.spliceFront replay).closed = false ∧
      (r.spliceFront replay).needKeyframe = r.needKeyframe := by
  have hfill := Chan.fill_spec (c := r.ch.drained) hcap (mergeBySeq replay r.ch.buf)
  obtain ⟨hok, hc, hbuf⟩ := hfill
  unfold spliceFront
  rw [if_neg (by simpa using hne), if_neg (by simp [hopen])]
  generalize r.ch.drained.fill (mergeBySeq replay r.ch.buf) = p at hok hc hbuf ⊢
  obtain ⟨ch, ok⟩ := p
  -- The refill went through, so no keyframe is asked for.
  subst hok
  exact ⟨hbuf, hc, hopen, rfl⟩

/-- `SpliceFront` with no reader: each number once and in order, buffered copies first, as
    many as fit. -/
theorem spliceFront_lastCopies (hcap : 0 < r.cap) (replay : List AccessUnit) :
    (replay = [] ∨ r.closed = true → r.spliceFront replay = r) ∧
    (replay ≠ [] → r.closed = false →
      (r.spliceFront replay).queue = (Keyed.lastCopies AccessUnit.key replay r.queue).rtake
        (min r.cap ((replay ++ r.queue).map AccessUnit.key).dedup.length) ∧
      (r.spliceFront replay).needKeyframe = r.needKeyframe) := by
  constructor
  · rintro (rfl | hclosed)
    · rfl
    · simp [spliceFront, hclosed]
  · intro hne hopen
    obtain ⟨hqueue, -, -, hneed⟩ := spliceFront_spec hne hopen hcap
    refine ⟨?_, hneed⟩
    rw [hqueue, mergeBySeq, Keyed.mergeByKey_eq_lastCopies, ← Keyed.lastCopies_length]
    unfold rtake
    congr 1
    omega

/-- Three numbers for two places. -/
theorem spliceFront_lastCopies_full :
    (Receiver.spliceFront ⟨⟨2, [.bare true 3, .bare true 2], false, by decide⟩, false, true⟩
      [.bare true 1, .bare false 2]).queue = [.bare true 2, .bare true 3] := by
  rw [((spliceFront_lastCopies (by decide) _).2 (by simp) rfl).1]
  decide

theorem mem_fanoutTry {sc} (h : x ∈ (r.fanoutTry sc au).1.queue) : x ∈ r.queue ∨ x = au := by
  have hout := fanoutTry_outcome sc au r
  generalize r.fanoutTry sc au = p at hout h
  cases hout with
  | enqueued r' _ _ _ hqueue _ _ _ =>
    rw [hqueue] at h
    simpa using h
  | _ => exact .inl h

theorem mem_fanoutResend {sc} (h : x ∈ (r.fanoutResend sc au).queue) : x ∈ r.queue ∨ x = au := by
  rcases (fanoutResend_outcome sc au r).1 with hq | ⟨hq, -⟩
  · rw [hq] at h
    simpa using h
  · exact .inl (hq ▸ h)

theorem mem_spliceFront {replay} (hcap : 0 < r.cap) (h : x ∈ (r.spliceFront replay).queue) :
    x ∈ replay ∨ x ∈ r.queue := by
  by_cases hne : replay = []
  · rw [hne] at h
    exact .inr h
  cases hc : r.closed with
  | true =>
    have hsame : r.spliceFront replay = r := by simp [spliceFront, hc]
    exact .inr (hsame ▸ h)
  | false =>
    rw [(spliceFront_spec hne hc hcap).1] at h
    exact Keyed.mem_of_mem_mergeByKey _ (mem_of_mem_drop h)

end Receiver

end QuicRTC

import QuicRTC.Framework.RingBuffer
import QuicRTC.Pubsub.Receiver

/-! # The Broadcaster

`pubsub/broadcaster.go`: the state guarded by `b.mu`, the interceptor chain and the size cap in
front of it. Receivers are shared objects and live in a heap indexed by `ReceiverId`; `PubSub` is
one broadcaster with that heap.
-/

namespace QuicRTC

open List Option

/-! ## State -/

abbrev ReceiverId := Nat

/-- `none` stands for any error: `Publish` treats them alike. -/
abbrev Interceptor := AccessUnit → Option AccessUnit

def AccessUnit.size (au : AccessUnit) : Nat := au.bytes.length

structure Broadcaster where
  receivers : List ReceiverId
  latestKeyframe : Option AccessUnit
  chanSize : Nat
  maxAUBytes : Int
  selfContained : Bool
  replay : RingBuffer AccessUnit
  interceptors : List Interceptor
  interceptorIDs : List UInt64
  nextInterceptorID : UInt64
  chanSize_pos : 0 < chanSize

def defaultReplayCap : Nat := 256

def defaultReplayMaxBytes : Int := 64 * 1024 * 1024

def newBroadcasterWithBytes (chanSize maxAUBytes : Int) : Broadcaster where
  receivers := []
  latestKeyframe := none
  chanSize := if chanSize ≤ 0 then 30 else chanSize.toNat
  maxAUBytes := maxAUBytes
  selfContained := false
  replay := RingBuffer.empty defaultReplayCap defaultReplayMaxBytes
  interceptors := []
  interceptorIDs := []
  nextInterceptorID := 0
  chanSize_pos := by split <;> omega

/-- The per-unit cap is 16 MiB. -/
def newBroadcaster (chanSize : Int) : Broadcaster :=
  newBroadcasterWithBytes chanSize (16 * 1024 * 1024)

namespace Broadcaster

def setSelfContained (b : Broadcaster) (v : Bool) : Broadcaster :=
  { b with selfContained := v }

def setReplayMaxBytes (b : Broadcaster) (n : Int) : Broadcaster :=
  { b with
    replay := { b.replay with maxBytes := if n < 0 then 0 else n }.trim AccessUnit.size 0 }

/-- The identifier names it to the returned remove function; a nil function is ignored. -/
def addInterceptor (b : Broadcaster) : Option Interceptor → Broadcaster × Option UInt64
  | none => (b, none)
  | some fn =>
    -- Counted up before use, so the first identifier is 1.
    let id := b.nextInterceptorID + 1
    ({ b with
        nextInterceptorID := id
        interceptors := b.interceptors ++ [fn]
        interceptorIDs := b.interceptorIDs ++ [id] }, some id)

def removeInterceptor (b : Broadcaster) (id : UInt64) : Broadcaster :=
  match b.interceptorIDs.findIdx? (fun gotID => gotID == id) with
  | some i =>
    { b with
      interceptors := b.interceptors.eraseIdx i
      interceptorIDs := b.interceptorIDs.eraseIdx i }
  | none => b

/-! ## `Publish` under `b.mu` -/

def intercept (chain : List Interceptor) (au : AccessUnit) : Option AccessUnit :=
  chain.foldlM (fun au fn => fn au) au

/-- What `Publish` lets through. -/
def accept (b : Broadcaster) (au : AccessUnit) : Option AccessUnit :=
  match intercept b.interceptors au with
  | none => none
  | some au =>
    -- The cap is on the unit as the chain left it; 0 means no cap.
    if 0 < b.maxAUBytes ∧ b.maxAUBytes < au.size then none else some au

def replayAppendLocked (b : Broadcaster) (au : AccessUnit) : Broadcaster :=
  { b with replay := b.replay.append AccessUnit.size au }

/-- The `b.mu` section for an accepted unit; the receiver snapshot is `b.receivers`. -/
def publishLocked (b : Broadcaster) (au : AccessUnit) : Broadcaster :=
  { b with latestKeyframe := if au.keyframe then some au else b.latestKeyframe }
    |>.replayAppendLocked au

/-- The newest entries go through the append path again. -/
def setReplayCap (b : Broadcaster) (cap : Int) : Broadcaster :=
  if cap.toNat = b.replay.cap then b
  else
    let current := b.replay.snapshot.rtake cap.toNat
    { b with
      replay := current.foldl (RingBuffer.append AccessUnit.size)
        (RingBuffer.empty cap.toNat b.replay.maxBytes) }

def minSeq (au : AccessUnit) (rest : List AccessUnit) : UInt32 :=
  rest.foldl (fun m x => if x.seq < m then x.seq else m) au.seq

/-- `none`: the range is no longer held. -/
def replaySince (b : Broadcaster) (fromSeq : UInt32) : Option (List AccessUnit) :=
  -- An empty ring promises nothing, but does not report a gap either.
  if b.replay.cap = 0 ∨ b.replay.buf.length = 0 then some []
  else
    match b.replay.snapshot with
    | [] => some []
    | au :: rest =>
      if fromSeq < minSeq au rest then none
      else some (Keyed.sortByKey AccessUnit.key
        ((au :: rest).filter (fun x => decide (fromSeq ≤ x.seq))))

/-- The cached keyframe is enqueued at once; a video track without one waits for it. -/
def newReceiver (b : Broadcaster) (chanSize : Nat) : Receiver :=
  let r : Receiver := { ch := Chan.make chanSize, closed := false, needKeyframe := false }
  match b.latestKeyframe with
  -- The channel is new, so the send into it cannot fail.
  | some k => { r with ch := (r.ch.trySend k).getD r.ch }
  | none => if b.selfContained then r else { r with needKeyframe := true }

/-- Never below the broadcaster's own size. -/
def capacityFor (b : Broadcaster) (want : Nat) : Nat :=
  if want < b.chanSize then b.chanSize else want

end Broadcaster

/-! ## One broadcaster with its receivers -/

/-- A broadcaster and the heap of receivers. -/
structure PubSub where
  bc : Broadcaster
  heap : ReceiverId → Receiver
  fresh : ReceiverId

namespace PubSub

def new (bc : Broadcaster) : PubSub where
  bc := { bc with receivers := [] }
  heap := fun _ => Receiver.absent
  fresh := 0

/-- The new receiver is `s.fresh`. -/
def subscribeWithCap (s : PubSub) (chanSize : Nat) : PubSub where
  bc := { s.bc with receivers := s.bc.receivers ++ [s.fresh] }
  heap := Function.update s.heap s.fresh (s.bc.newReceiver chanSize)
  fresh := s.fresh + 1

def subscribe (s : PubSub) : PubSub := s.subscribeWithCap s.bc.chanSize

def subscribeWithCapacity (s : PubSub) (want : Nat) : PubSub :=
  s.subscribeWithCap (s.bc.capacityFor want)

def unsubscribe (s : PubSub) (r : ReceiverId) : PubSub :=
  -- A second call, or one after Close, finds nothing to remove.
  if r ∈ s.bc.receivers then
    { s with
      bc := { s.bc with receivers := s.bc.receivers.filter (· ≠ r) }
      heap := Function.update s.heap r (s.heap r).close }
  else s

def close (s : PubSub) : PubSub :=
  { s with
    bc := { s.bc with receivers := [] }
    heap := fun r => if r ∈ s.bc.receivers then (s.heap r).close else s.heap r }

/-- One section after the other. -/
def fanoutAll (selfContained : Bool) (au : AccessUnit) (receivers : List ReceiverId)
    (heap : ReceiverId → Receiver) : ReceiverId → Receiver :=
  receivers.foldl (fun h r => Function.update h r ((h r).fanout selfContained au)) heap

/-- With nothing running beside it. -/
def publish (s : PubSub) (au : AccessUnit) : PubSub :=
  match s.bc.accept au with
  | none => s
  | some au =>
    { s with
      bc := s.bc.publishLocked au
      heap := fanoutAll s.bc.selfContained au s.bc.receivers s.heap }

def publishAll (s : PubSub) (aus : List AccessUnit) : PubSub := aus.foldl publish s

end PubSub

/-! ## What the broadcaster remembers -/

namespace Broadcaster

@[simp] theorem publishLocked_accept (b : Broadcaster) (au : AccessUnit) :
    (b.publishLocked au).accept = b.accept := rfl

/-- The ring holds the newest of the accepted units `hist`, the cache the last keyframe. -/
structure Records (b : Broadcaster) (hist : List AccessUnit) : Prop where
  valid : b.replay.Valid AccessUnit.size
  cap_pos : 0 < b.replay.cap
  window : b.replay.snapshot <:+ hist
  window_ne : hist ≠ [] → b.replay.snapshot ≠ []
  cached : b.latestKeyframe = (hist.filter (·.keyframe)).getLast?

variable {b : Broadcaster} {hist : List AccessUnit} {fromSeq : UInt32}

theorem Records.window_length_le (h : b.Records hist) : b.replay.snapshot.length ≤ b.replay.cap :=
  h.valid.snapshot_length ▸ h.valid.len_le

theorem records_nil (chanSize maxAUBytes replayMaxBytes : Int) (selfContained : Bool) :
    (((newBroadcasterWithBytes chanSize maxAUBytes).setSelfContained selfContained).setReplayMaxBytes
      replayMaxBytes).Records [] where
  valid := ⟨Nat.zero_le _, fun _ => rfl, fun h => h, rfl⟩
  cap_pos := Nat.zero_lt_succ 255
  window := by
    refine ⟨[], ?_⟩
    rw [nil_append]
    exact RingBuffer.snapshot_of_nil rfl
  window_ne := fun h => absurd rfl h
  cached := rfl

theorem Records.publishLocked (h : b.Records hist) (au : AccessUnit) :
    (b.publishLocked au).Records (hist ++ [au]) ∧
      (b.publishLocked au).replay.cap = b.replay.cap := by
  obtain ⟨hv, hs, hc, -⟩ := h.valid.append h.cap_pos au
  obtain ⟨d, hd⟩ := h.window
  refine ⟨⟨hv, hc ▸ h.cap_pos, ?_, ?_, ?_⟩, hc⟩
  · show (b.replay.append AccessUnit.size au).snapshot <:+ hist ++ [au]
    rw [hs]
    -- The ring forgets from the front only.
    refine (RingBuffer.push_suffix _ _ _ _ _).trans ⟨d, ?_⟩
    rw [← append_assoc, hd]
  · intro _
    show (b.replay.append AccessUnit.size au).snapshot ≠ []
    rw [hs]
    exact RingBuffer.push_ne_nil _ _ _ _ _
  · show (if au.keyframe then some au else b.latestKeyframe) = _
    rw [filter_append, h.cached]
    cases hk : au.keyframe <;> simp [hk]

theorem Records.cached_mem (h : b.Records hist) {k} (hk : b.latestKeyframe = some k) :
    k ∈ hist ∧ k.keyframe = true := by
  rw [h.cached] at hk
  have hmem := mem_of_getLast? hk
  exact ⟨(mem_filter.mp hmem).1, (mem_filter.mp hmem).2⟩

/-! ### What `ReplaySince` answers -/

theorem minSeq_of_ascending {au rest} (h : SeqAscending (au :: rest)) :
    minSeq au rest = au.seq := by
  have hlt : ∀ x ∈ rest, ¬ x.seq < au.seq := by
    intro x hx hlt
    have := (pairwise_cons.mp h).1 x hx
    rw [UInt32.lt_iff_toNat_lt] at hlt
    simp only [AccessUnit.key] at this
    omega
  unfold minSeq
  clear h
  -- The fold never moves: nothing is below its start.
  induction rest with
  | nil => rfl
  | cons x rest ih =>
    rw [foldl_cons, if_neg (hlt x mem_cons_self)]
    exact ih (fun y hy => hlt y (mem_cons_of_mem _ hy))

theorem replaySince_eq (hv : b.replay.Valid AccessUnit.size) (hsuf : b.replay.snapshot <:+ hist)
    (hasc : SeqAscending hist) {au rest} (hsnap : b.replay.snapshot = au :: rest) (fromSeq : UInt32) :
    b.replaySince fromSeq =
      if fromSeq < au.seq then none
      else some (hist.filter (fun x => decide (fromSeq ≤ x.seq))) := by
  obtain ⟨d, hd⟩ := hsuf
  rw [hsnap] at hd
  have hlen : b.replay.buf.length ≠ 0 := by
    rw [← hv.snapshot_length, hsnap]; simp
  have hcap := hv.len_le
  -- The window is part of the history, so its first unit is its least.
  have hasc' : SeqAscending (au :: rest) :=
    hasc.sublist (hd ▸ sublist_append_right _ _)
  unfold replaySince
  rw [if_neg (by omega), hsnap]
  simp only [minSeq_of_ascending hasc']
  split
  · rfl
  · next hle =>
    have hle : au.seq ≤ fromSeq := by simpa using hle
    -- what the ring no longer holds is older than its oldest unit
    have hold : d.filter (fun x => decide (fromSeq ≤ x.seq)) = [] := by
      rw [filter_eq_nil_iff]
      intro x hx
      rw [← hd] at hasc
      have hlt := (pairwise_append.mp hasc).2.2 x hx au mem_cons_self
      simp only [AccessUnit.key] at hlt
      simp only [decide_eq_true_eq, UInt32.le_iff_toNat_le] at hle ⊢
      omega
    rw [← hd, filter_append, hold, nil_append]
    exact congrArg some (Keyed.sortByKey_of_pairwise (hasc'.sublist filter_sublist))

theorem Records.replaySince_some (h : b.Records hist) (hasc : SeqAscending hist) (hne : hist ≠ [])
    {replay} (hr : b.replaySince fromSeq = some replay) :
    replay = hist.filter (fun x => decide (fromSeq ≤ x.seq)) ∧
      replay.length ≤ b.replay.cap ∧
      ∃ au rest, b.replay.snapshot = au :: rest ∧ au.seq ≤ fromSeq := by
  obtain ⟨au, rest, hsnap⟩ := exists_cons_of_ne_nil (h.window_ne hne)
  have hlen : replay.length ≤ b.replay.cap := by
    unfold replaySince at hr
    rw [hsnap] at hr
    split at hr
    · rw [← some.inj hr]; exact Nat.zero_le _
    · simp only [ite_none_left_eq_some, some.injEq] at hr
      rw [← hr.2, (Keyed.sortByKey_perm _ _).length_eq]
      exact Nat.le_trans (length_filter_le _ _) (hsnap ▸ h.window_length_le)
  rw [replaySince_eq h.valid h.window hasc hsnap, ite_none_left_eq_some] at hr
  obtain ⟨hle, hr⟩ := hr
  exact ⟨(some.inj hr).symm, hlen, au, rest, hsnap, UInt32.not_lt.mp hle⟩

theorem Records.replaySince_subset (h : b.Records hist) {replay}
    (hr : b.replaySince fromSeq = some replay) : replay ⊆ hist := by
  unfold replaySince at hr
  split at hr
  · rw [← some.inj hr]; exact nil_subset _
  · split at hr
    · rw [← some.inj hr]; exact nil_subset _
    · next au rest hsnap =>
      split at hr
      · cases hr
      · rw [← some.inj hr]
        intro x hx
        have hx := (Keyed.sortByKey_perm _ _).subset hx
        exact h.window.subset (hsnap ▸ (mem_filter.mp hx).1)

theorem newReceiver_spec (b : Broadcaster) {chanSize} (hpos : 0 < chanSize) :
    (b.newReceiver chanSize).queue = b.latestKeyframe.toList ∧
      (b.newReceiver chanSize).cap = chanSize ∧
      (b.newReceiver chanSize).closed = false ∧
      (b.newReceiver chanSize).needKeyframe =
        (b.latestKeyframe.isNone && !b.selfContained) := by
  unfold newReceiver
  cases b.latestKeyframe with
  | none => cases b.selfContained <;> exact ⟨rfl, rfl, rfl, rfl⟩
  | some k =>
    obtain ⟨ch, hs, hbuf, hcap⟩ :=
      Chan.trySend_of_lt (c := Chan.make chanSize) k (by simpa using hpos)
    refine ⟨?_, ?_, rfl, rfl⟩ <;> simp only [hs, getD_some]
    · exact hbuf
    · exact hcap

theorem capacityFor_pos (b : Broadcaster) (want : Nat) : 0 < b.capacityFor want := by
  have := b.chanSize_pos
  unfold capacityFor; split <;> omega

theorem le_capacityFor (b : Broadcaster) (want : Nat) : want ≤ b.capacityFor want := by
  unfold capacityFor; split <;> omega

end Broadcaster

/-! ## Sequential publishing -/

namespace PubSub

theorem fanoutAll_apply (sc : Bool) (au : AccessUnit) {rs : List ReceiverId} (hrs : rs.Nodup)
    (heap : ReceiverId → Receiver) (r : ReceiverId) :
    fanoutAll sc au rs heap r = if r ∈ rs then (heap r).fanout sc au else heap r := by
  unfold fanoutAll
  induction rs generalizing heap with
  | nil => simp
  | cons q rs ih =>
    rw [nodup_cons] at hrs
    rw [foldl_cons, ih hrs.2]
    -- The head of the list is `r` itself, or does not touch it.
    by_cases hq : r = q
    · subst hq
      simp [hrs.1]
    · simp [hq]

def accepted (s : PubSub) (aus : List AccessUnit) : List AccessUnit := aus.filterMap s.bc.accept

theorem publish_of_none {s : PubSub} {au} (h : s.bc.accept au = none) : s.publish au = s := by
  unfold publish; rw [h]

theorem publish_of_some {s : PubSub} {au au'} (h : s.bc.accept au = some au') :
    s.publish au =
      { s with
        bc := s.bc.publishLocked au'
        heap := fanoutAll s.bc.selfContained au' s.bc.receivers s.heap } := by
  unfold publish; rw [h]

/-- **Induction over publishing**, with the units accepted so far. -/
theorem publishAll_induction (inv : PubSub → List AccessUnit → Prop)
    (hstep : ∀ (s : PubSub) (hist : List AccessUnit) (au : AccessUnit), inv s hist →
      inv { s with
        bc := s.bc.publishLocked au
        heap := fanoutAll s.bc.selfContained au s.bc.receivers s.heap } (hist ++ [au])) {s hist}
    (h : inv s hist) (aus : List AccessUnit) : inv (s.publishAll aus) (hist ++ s.accepted aus) := by
  induction aus generalizing s hist with
  | nil => simpa [publishAll, accepted] using h
  | cons au aus ih =>
    show inv ((s.publish au).publishAll aus) _
    -- A refused unit leaves state and history as they were.
    cases hacc : s.bc.accept au with
    | none =>
      rw [publish_of_none hacc]
      simpa [accepted, hacc] using ih h
    | some au' =>
      have := ih (hstep s hist au' h)
      rw [publish_of_some hacc]
      simpa [accepted, hacc] using this

end PubSub

end QuicRTC

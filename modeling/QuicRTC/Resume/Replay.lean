import QuicRTC.Pubsub.Broadcaster

/-! # Resuming One Track from the Replay Ring

What `runSession` and `OnResume` (`server/server.go`) do for one track. A parked receiver starts
with the cached keyframe. On a resume with a cursor `c`, `ReplaySince(c+1)` is merged into its
queue, or, if the ring no longer reaches back so far, a video track waits for its next keyframe.
Publishing and resuming come one after the other.
-/

namespace QuicRTC

open List

/-! ## Parking and resuming -/

/-- Depth of a parked receiver. -/
def parkedChanCap : Nat := defaultReplayCap + 64

/-- The effect of `OnResume` on a track with a cursor. -/
def resumeReceiver (bc : Broadcaster) (video : Bool) (fromSeq : UInt32) (r : Receiver) : Receiver :=
  match bc.replaySince (fromSeq + 1) with
  -- A self-contained track needs no keyframe to go on.
  | none => if video then r.requestKeyframe else r
  | some replay => if 0 < replay.length then r.spliceFront replay else r

theorem resumeReceiver_closed (bc : Broadcaster) (video : Bool) (fromSeq : UInt32) (r : Receiver) :
    (resumeReceiver bc video fromSeq r).closed = r.closed := by
  unfold resumeReceiver
  split
  · split <;> rfl
  · split
    · exact r.spliceFront_closed _
    · rfl

namespace PubSub

/-- The parked receiver is `s.fresh`. -/
def park (s : PubSub) : PubSub := s.subscribeWithCapacity parkedChanCap

def whileParked (s : PubSub) (before parked : List AccessUnit) : PubSub :=
  (s.publishAll before).park.publishAll parked

def parkedReceiver (s : PubSub) (before parked : List AccessUnit) : Receiver :=
  (s.whileParked before parked).heap (s.publishAll before).fresh

def resumedReceiver (s : PubSub) (before parked : List AccessUnit) (video : Bool)
    (cursor : UInt32) : Receiver :=
  resumeReceiver (s.whileParked before parked).bc video cursor (s.parkedReceiver before parked)

/-- Nothing was accepted yet, and the replay capacity is the default. -/
structure New (s : PubSub) : Prop where
  records : s.bc.Records []
  cap : s.bc.replay.cap = defaultReplayCap
  nodup : s.bc.receivers.Nodup
  fresh : ∀ r ∈ s.bc.receivers, r < s.fresh

end PubSub

/-! ## The queue of a parked receiver -/

/-- Parked when `hist` had been accepted and `k` was the cached keyframe; `later` was
    accepted since. -/
structure Parked (r : ReceiverId) (k : Option AccessUnit) (hist later : List AccessUnit)
    (s : PubSub) : Prop where
  records : s.bc.Records (hist ++ later)
  cap : s.bc.replay.cap = defaultReplayCap
  nodup : s.bc.receivers.Nodup
  listed : r ∈ s.bc.receivers
  opened : (s.heap r).closed = false
  depth : parkedChanCap ≤ (s.heap r).cap
  queue : List.Sublist (s.heap r).queue (k.toList ++ later)
  keeps : k.toList.length + later.length ≤ (s.heap r).cap → k.toList ⊆ (s.heap r).queue

variable {last : AccessUnit} {hist later replay : List AccessUnit} {k : Option AccessUnit}
  {s : PubSub} {r : ReceiverId} {cursor : UInt32}

theorem Parked.publish (h : Parked r k hist later s) (au : AccessUnit) :
    Parked r k hist (later ++ [au])
      { s with
        bc := s.bc.publishLocked au
        heap := PubSub.fanoutAll s.bc.selfContained au s.bc.receivers s.heap } := by
  obtain ⟨hsub, hroom, hcap, hcl⟩ := Receiver.fanout_spec s.bc.selfContained au (s.heap r)
  obtain ⟨hrec, hrcap⟩ := h.records.publishLocked au
  -- Identifiers are distinct, so the loop serves `r` once.
  have hr : PubSub.fanoutAll s.bc.selfContained au s.bc.receivers s.heap r
      = (s.heap r).fanout s.bc.selfContained au := by
    rw [PubSub.fanoutAll_apply _ _ h.nodup, if_pos h.listed]
  refine ⟨by rw [← append_assoc]; exact hrec, hrcap.trans h.cap, h.nodup, h.listed,
    ?_, ?_, ?_, ?_⟩
  · simp only [hr]; exact hcl.trans h.opened
  · simp only [hr, hcap]; exact h.depth
  · simp only [hr, ← append_assoc]
    exact hsub.trans (h.queue.append (Sublist.refl _))
  · -- While everything still fits, the section evicts nothing.
    simp only [hr, hcap, length_append, length_singleton]
    intro hle
    have hlen := h.queue.length_le
    rw [length_append] at hlen
    exact fun x hx => (hroom (by omega)).subset (h.keeps (by omega) hx)

theorem PubSub.New.publishAll (hs : s.New) (aus : List AccessUnit) :
    (s.publishAll aus).bc.Records (s.accepted aus) ∧
      (s.publishAll aus).bc.replay.cap = defaultReplayCap ∧
      (s.publishAll aus).bc.receivers = s.bc.receivers ∧
      (s.publishAll aus).bc.accept = s.bc.accept ∧ (s.publishAll aus).fresh = s.fresh := by
  refine PubSub.publishAll_induction
    (fun t hist => t.bc.Records hist ∧ t.bc.replay.cap = defaultReplayCap ∧
      t.bc.receivers = s.bc.receivers ∧ t.bc.accept = s.bc.accept ∧ t.fresh = s.fresh)
    ?_ ⟨hs.records, hs.cap, rfl, rfl, rfl⟩ aus
  -- Neither subscribers nor configuration change by publishing.
  rintro t hist au ⟨hrec, hcap, hrcv, hacc, hfr⟩
  obtain ⟨hrec', hcap'⟩ := hrec.publishLocked au
  exact ⟨hrec', hcap'.trans hcap, hrcv, hacc, hfr⟩

theorem PubSub.New.parked (hs : s.New) (before parked : List AccessUnit) :
    Parked (s.publishAll before).fresh (s.publishAll before).bc.latestKeyframe
      (s.accepted before) (s.accepted parked) (s.whileParked before parked) := by
  obtain ⟨hrec, hcap, hrcv, hacc, hfr⟩ := hs.publishAll before
  set p := s.publishAll before with hp
  have hdepth := p.bc.le_capacityFor parkedChanCap
  obtain ⟨hq, hc, ho, -⟩ := p.bc.newReceiver_spec (p.bc.capacityFor_pos parkedChanCap)
  have hheap : p.park.heap p.fresh = p.bc.newReceiver (p.bc.capacityFor parkedChanCap) :=
    Function.update_self ..
  -- The parked receiver is not one the track had before.
  have hnew : p.fresh ∉ p.bc.receivers := by
    rw [hrcv, hfr]
    exact fun hmem => Nat.lt_irrefl _ (hs.fresh _ hmem)
  have hstart : Parked p.fresh p.bc.latestKeyframe (s.accepted before) [] p.park := by
    refine ⟨?_, hcap, ?_, ?_, ?_, ?_, ?_, ?_⟩
    · rw [append_nil]
      exact { hrec with }
    · show (p.bc.receivers ++ [p.fresh]).Nodup
      rw [hrcv] at hnew ⊢
      exact Slots.pairwise_snoc hs.nodup (fun a ha hab => hnew (hab ▸ ha))
    · exact mem_concat_self
    · rw [hheap]; exact ho
    · rw [hheap, hc]; exact hdepth
    · rw [hheap, hq, append_nil]
    · rw [hheap, hq]; exact fun _ => Subset.refl _
  -- From the park on by induction over what is published.
  have hrun := PubSub.publishAll_induction
    (fun t later => Parked p.fresh p.bc.latestKeyframe (s.accepted before) later t)
    (fun t later au h => h.publish au) hstart parked
  have hsame : p.park.accepted parked = s.accepted parked := by
    show parked.filterMap p.bc.accept = _
    rw [hacc]; rfl
  rw [hsame, nil_append] at hrun
  exact hrun

/-! ## What the ring still covers -/

theorem Parked.later_length_le (h : Parked r k hist later s) (hasc : SeqAscending (hist ++ later))
    (hlast : last ∈ hist) (hcur : cursor.toNat ≤ last.key) {au rest}
    (hsnap : s.bc.replay.snapshot = au :: rest) (hau : au.key ≤ cursor.toNat + 1) :
    later.length ≤ defaultReplayCap := by
  -- Otherwise the oldest unit held is past `first`, two past the cursor.
  by_contra hlt
  obtain ⟨first, tl, rfl⟩ : ∃ first tl, later = first :: tl :=
    exists_cons_of_ne_nil (by rintro rfl; simp at hlt)
  have hlen := h.records.window_length_le
  rw [h.cap] at hlen
  -- the ring holds less than `tl`, so its oldest unit comes after `first`
  have hsuf : s.bc.replay.snapshot <:+ tl := by
    refine suffix_of_suffix_length_le h.records.window ⟨hist ++ [first], by simp⟩ ?_
    rw [length_cons] at hlt
    omega
  have hmem : au ∈ tl := hsuf.subset (hsnap ▸ mem_cons_self)
  obtain ⟨-, htl, hcross⟩ := pairwise_append.mp hasc
  have h1 : last.key < first.key := hcross last hlast first mem_cons_self
  have h2 : first.key < au.key := (pairwise_cons.mp htl).1 au hmem
  omega

theorem key_add_one {c : UInt32} (hc : c.toNat + 1 < UInt32.size) : (c + 1).toNat = c.toNat + 1 := by
  exact Nat.mod_eq_of_lt hc

/-- Nothing overflowed, and what was accepted since the park is replayed. -/
structure Covered (cursor : UInt32) (k : Option AccessUnit) (all replay queue : List AccessUnit) :
    Prop where
  ascending : SeqAscending all
  cached : k.toList ⊆ all
  mem : ∀ x, x ∈ replay ↔ x ∈ all ∧ cursor.toNat < x.key
  length_le : replay.length ≤ defaultReplayCap
  kept : k.toList ⊆ queue
  queue_sub : ∀ x ∈ queue, x ∈ k.toList ∨ x ∈ replay
  idle : replay = [] → queue = k.toList

theorem Parked.covered (h : Parked r k hist later s)
    (hk : k.toList ⊆ hist) (hasc : SeqAscending (hist ++ later))
    (hlast : last ∈ hist) (hcur : cursor.toNat ≤ last.key) (hmax : cursor.toNat + 1 < UInt32.size)
    (hr : s.bc.replaySince (cursor + 1) = some replay) :
    Covered cursor k (hist ++ later) replay (s.heap r).queue := by
  have hne : hist ++ later ≠ [] := append_ne_nil_of_left_ne_nil (ne_nil_of_mem hlast) _
  obtain ⟨hrep, hlen, au, rest, hsnap, hau⟩ := h.records.replaySince_some hasc hne hr
  rw [UInt32.le_iff_toNat_le, key_add_one hmax] at hau
  have hlater := h.later_length_le hasc hlast hcur hsnap hau
  have hdepth : defaultReplayCap + 64 ≤ (s.heap r).cap := h.depth
  have hklen : k.toList.length ≤ 1 := by cases k <;> simp
  -- At most 256 units and the keyframe: the depth of 320 is never reached.
  have hkeeps := h.keeps (by omega)
  have hmem : ∀ x, x ∈ replay ↔ x ∈ hist ++ later ∧ cursor.toNat < x.key := by
    intro x
    rw [hrep, mem_filter, decide_eq_true_eq, UInt32.le_iff_toNat_le, key_add_one hmax]
    exact Iff.rfl
  have hlatermem : ∀ x ∈ later, x ∈ replay := by
    intro x hx
    have := (pairwise_append.mp hasc).2.2 last hlast x hx
    exact (hmem x).mpr ⟨mem_append_right _ hx, by omega⟩
  refine ⟨hasc, subset_append_of_subset_left _ hk, hmem, h.cap ▸ hlen, hkeeps, ?_, ?_⟩
  · intro x hx
    exact (mem_append.mp (h.queue.subset hx)).imp_right (hlatermem x)
  · -- nothing to replay: nothing was accepted while parked either
    intro hnil
    have hlater : later = [] := eq_nil_iff_forall_not_mem.mpr
      (fun x hx => by have := hlatermem x hx; rw [hnil] at this; cases this)
    have hsub := h.queue
    rw [hlater, append_nil] at hsub
    refine hsub.eq_of_length_le ?_
    cases k with
    | none => simp
    | some k => exact length_pos_of_mem (hkeeps (mem_singleton_self k))

theorem Covered.merge {all queue} (h : Covered cursor k all replay queue) :
    (∀ x, x ∈ Receiver.mergeBySeq replay queue ↔ x ∈ replay ∨ x ∈ queue) ∧
      (Receiver.mergeBySeq replay queue).length ≤ defaultReplayCap + 1 := by
  -- Equal keys are equal units, because all of them were accepted.
  have hall : ∀ z ∈ replay ++ queue, z ∈ all := by
    intro z hz
    rcases mem_append.mp hz with hz | hz
    · exact ((h.mem z).mp hz).1
    · rcases h.queue_sub z hz with hz | hz
      · exact h.cached hz
      · exact ((h.mem z).mp hz).1
  have hmem : ∀ x, x ∈ Receiver.mergeBySeq replay queue ↔ x ∈ replay ∨ x ∈ queue := fun x =>
    Keyed.mem_mergeByKey _
      (fun a ha b hb hab => Keyed.eq_of_key_eq h.ascending a (hall a ha) b (hall b hb) hab)
  refine ⟨hmem, ?_⟩
  -- no repetition, and every entry is the cached keyframe or replayed
  have hnd : (Receiver.mergeBySeq replay queue).Nodup :=
    Keyed.nodup_of_pairwise (Keyed.mergeByKey_pairwise AccessUnit.key _ _)
  have hsub : Receiver.mergeBySeq replay queue ⊆ replay ++ k.toList := by
    intro x hx
    rcases (hmem x).mp hx with hx | hx
    · exact mem_append_left _ hx
    · exact mem_append.mpr (h.queue_sub x hx).symm
  have hle := (subperm_of_subset hnd hsub).length_le
  have hklen : k.toList.length ≤ 1 := by cases k <;> simp
  have := h.length_le
  rw [length_append] at hle
  omega

/-- The cached keyframe of the park, and every accepted unit past the cursor. -/
structure Resumed (cursor : UInt32) (k : Option AccessUnit) (all replay : List AccessUnit)
    (parked resumed : Receiver) : Prop where
  ascending : SeqAscending resumed.queue
  mem : ∀ x, x ∈ resumed.queue ↔ x ∈ k.toList ∨ (x ∈ all ∧ cursor.toNat < x.key)
  whole : replay ≠ [] →
    (Receiver.mergeBySeq replay parked.queue).length ≤ parked.cap ∧
      resumed.queue = Receiver.mergeBySeq replay parked.queue

theorem Covered.resume {all} {bc : Broadcaster} {r : Receiver}
    (h : Covered cursor k all replay r.queue) (hopen : r.closed = false)
    (hdepth : parkedChanCap ≤ r.cap) (video : Bool) (hr : bc.replaySince (cursor + 1) = some replay) :
    Resumed cursor k all replay r (resumeReceiver bc video cursor r) := by
  unfold resumeReceiver
  simp only [hr]
  -- `SpliceFront` is called only with something to splice.
  by_cases hnil : replay = []
  · rw [if_neg (by simp [hnil])]
    have hq := h.idle hnil
    refine ⟨?_, ?_, fun hne => absurd hnil hne⟩
    · rw [hq]; cases k <;> simp [SeqAscending]
    · intro x
      rw [hq, ← h.mem, hnil]; simp
  · rw [if_pos (length_pos_iff.mpr hnil)]
    have hdepth : defaultReplayCap + 64 ≤ r.cap := hdepth
    obtain ⟨hmem, hlen⟩ := h.merge
    obtain ⟨hsq, -, -, -⟩ := Receiver.spliceFront_spec hnil hopen (by omega)
    -- The merge fits, so the refill evicts nothing.
    rw [Chan.rtake_of_length_le (by omega)] at hsq
    refine ⟨hsq ▸ Keyed.mergeByKey_pairwise _ _ _, ?_, fun _ => ⟨by omega, hsq⟩⟩
    intro x
    rw [hsq, hmem, ← h.mem]
    constructor
    · rintro (hx | hx)
      · exact .inr hx
      · exact h.queue_sub x hx
    · rintro (hx | hx)
      · exact .inr (h.kept hx)
      · exact .inl hx

/-! ## Results -/

/-- With any byte ceiling on its ring. -/
def newTrack (chanSize maxAUBytes : Int) (selfContained : Bool) (replayMaxBytes : Int) : PubSub :=
  PubSub.new (((newBroadcasterWithBytes chanSize maxAUBytes).setSelfContained
    selfContained).setReplayMaxBytes replayMaxBytes)

theorem newTrack_new (chanSize maxAUBytes : Int) (selfContained : Bool) (replayMaxBytes : Int) :
    (newTrack chanSize maxAUBytes selfContained replayMaxBytes).New where
  records :=
    have h := Broadcaster.records_nil chanSize maxAUBytes replayMaxBytes selfContained
    { h with }
  cap := rfl
  nodup := nodup_nil
  fresh := nofun

theorem PubSub.New.resumed (hs : s.New) {before parked}
    (hasc : SeqAscending (s.accepted (before ++ parked))) (hmax : cursor.toNat + 1 < UInt32.size)
    (hlast : last ∈ s.accepted before) (hcur : cursor.toNat ≤ last.key) (video : Bool)
    (hr : (s.whileParked before parked).bc.replaySince (cursor + 1) = some replay) :
    Resumed cursor (s.publishAll before).bc.latestKeyframe (s.accepted (before ++ parked)) replay
      (s.parkedReceiver before parked) (s.resumedReceiver before parked video cursor) := by
  have hparked := hs.parked before parked
  have hrec := (hs.publishAll before).1
  have hk : (s.publishAll before).bc.latestKeyframe.toList ⊆ s.accepted before := by
    intro x hx
    exact (hrec.cached_mem (by simpa using hx)).1
  have happ : s.accepted (before ++ parked) = s.accepted before ++ s.accepted parked :=
    filterMap_append
  rw [happ] at hasc ⊢
  exact (hparked.covered hk hasc hlast hcur hmax hr).resume hparked.opened hparked.depth video hr

/-- **Resume loses nothing the ring still covers.** With ascending numbers and a cursor not
    past the last unit before the park: if the range after the cursor is available, the
    resumed queue ascends, holds every accepted unit past the cursor, and the merge of
    `SpliceFront` fits the channel. -/
theorem resume_complete {s : PubSub} (hs : s.New) (before parked : List AccessUnit)
    (hasc : SeqAscending (s.accepted (before ++ parked))) (cursor : UInt32)
    (hmax : cursor.toNat + 1 < UInt32.size)
    (hcur : ∃ last, (s.accepted before).getLast? = some last ∧ cursor ≤ last.seq)
    (video : Bool) (replay : List AccessUnit)
    (hr : (s.whileParked before parked).bc.replaySince (cursor + 1) = some replay) :
    SeqAscending (s.resumedReceiver before parked video cursor).queue ∧
      (∀ x ∈ s.accepted (before ++ parked), cursor < x.seq →
        x ∈ (s.resumedReceiver before parked video cursor).queue) ∧
      (replay ≠ [] →
        (Receiver.mergeBySeq replay (s.parkedReceiver before parked).queue).length
            ≤ (s.parkedReceiver before parked).cap ∧
          (s.resumedReceiver before parked video cursor).queue
            = Receiver.mergeBySeq replay (s.parkedReceiver before parked).queue) := by
  obtain ⟨last, hlast, hle⟩ := hcur
  have h := hs.resumed hasc hmax (mem_of_getLast? hlast)
    (UInt32.le_iff_toNat_le.mp hle) video hr
  exact ⟨h.ascending, fun x hx hlt => (h.mem x).mpr (.inr ⟨hx, UInt32.lt_iff_toNat_lt.mp hlt⟩),
    h.whole⟩

/-- Two units the client has not seen and one published while it was away. -/
theorem resume_complete_three :
    SeqAscending ((newTrack 30 0 false 0).resumedReceiver
      [.bare true 1, .bare false 2, .bare false 3] [.bare false 4] true 1).queue :=
  (resume_complete (newTrack_new 30 0 false 0)
    [.bare true 1, .bare false 2, .bare false 3] [.bare false 4] (by decide) 1 (by decide)
    ⟨.bare false 3, by decide, by decide⟩ true
    [.bare false 2, .bare false 3, .bare false 4] (by decide)).1

/-- **Resume starts after the cursor** exactly when the park found no keyframe at or before
    the cursor in the cache. -/
theorem resume_after_cursor_iff {s : PubSub} (hs : s.New) (before parked : List AccessUnit)
    (hasc : SeqAscending (s.accepted (before ++ parked))) (cursor : UInt32)
    (hmax : cursor.toNat + 1 < UInt32.size) (hcur : ∃ au ∈ s.accepted before, au.seq = cursor)
    (video : Bool)
    (hr : ((s.whileParked before parked).bc.replaySince (cursor + 1)).isSome = true) :
    (∀ x ∈ (s.resumedReceiver before parked video cursor).queue, cursor < x.seq) ↔
      ∀ k, (s.publishAll before).bc.latestKeyframe = some k → cursor < k.seq := by
  obtain ⟨au, hau, rfl⟩ := hcur
  obtain ⟨replay, hr⟩ := Option.isSome_iff_exists.mp hr
  have h := hs.resumed hasc hmax hau (Nat.le_refl _) video hr
  constructor
  · intro hall k hk
    exact hall k ((h.mem k).mpr (.inl (by simpa using hk)))
  · intro hk x hx
    rcases (h.mem x).mp hx with hx | ⟨-, hlt⟩
    · -- Only the keyframe of the park can be at or before the cursor.
      exact hk x (by simpa using hx)
    · exact UInt32.lt_iff_toNat_lt.mpr hlt

theorem resume_after_cursor_iff_fresh_keyframe :
    ((newTrack 30 0 false 0).resumedReceiver
        [.bare true 1, .bare false 2, .bare true 3] [.bare false 4] true 2).queue =
        [.bare true 3, .bare false 4] ∧
      ∀ x ∈ ((newTrack 30 0 false 0).resumedReceiver
        [.bare true 1, .bare false 2, .bare true 3] [.bare false 4] true 2).queue, 2 < x.seq :=
  ⟨by decide, (resume_after_cursor_iff (newTrack_new 30 0 false 0)
    [.bare true 1, .bare false 2, .bare true 3] [.bare false 4] (by decide) 2 (by decide)
    ⟨.bare false 2, by decide, rfl⟩ true (by decide)).mpr (by decide)⟩

/-- All three units were seen before the park: the resumed queue starts again with the
    keyframe. -/
theorem resume_repeats_cached_keyframe :
    SeqAscending ((newTrack 30 0 false 0).accepted
        [.bare true 1, .bare false 2, .bare false 3]) ∧
      (∃ au ∈ (newTrack 30 0 false 0).accepted [.bare true 1, .bare false 2, .bare false 3],
        au.seq = 3) ∧
      (((newTrack 30 0 false 0).whileParked
        [.bare true 1, .bare false 2, .bare false 3] []).bc.replaySince (3 + 1)).isSome = true ∧
      ((newTrack 30 0 false 0).resumedReceiver
        [.bare true 1, .bare false 2, .bare false 3] [] true 3).queue = [.bare true 1] ∧
      ¬ ∀ x ∈ ((newTrack 30 0 false 0).resumedReceiver
        [.bare true 1, .bare false 2, .bare false 3] [] true 3).queue, 3 < x.seq := by
  decide

end QuicRTC

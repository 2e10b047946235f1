import QuicRTC.Feed.Decodability
import QuicRTC.Pubsub.Gating

/-! # Gating After a Failed Write

A video broadcaster and a per-GOP pump on every receiver, with any sequence numbers. When the pump
fails on a unit it calls `RequestKeyframe`, and P-frames are withheld until a keyframe is enqueued.
The keyframe that ends the gap may be in the queue already when the pump asks for one.

Units are told apart by their position in the list of accepted units.
-/

namespace QuicRTC

open LTS Function List Option

namespace GopState

/-- The producer may publish anything. -/
def freeStep (named : Bool) (s : GopState) : GopLabel → Option GopState
  | .fan l => (s.fan.step l).map (fun f => { s with fan := f })
  | l => s.step named l

end GopState

/-! ## Positions -/

structure Positions where
  /-- Position of the keyframe in the cache. -/
  cachedAt : Option Nat
  /-- Positions of the queued units. -/
  queueAt : List Nat
  /-- Of the unit dequeued last. -/
  handAt : Option Nat
  /-- Of the keyframe enqueued last. -/
  keyAt : Option Nat
  /-- Dropped at fanout for lack of space. -/
  dropped : List Nat
  /-- The pump failed on them. -/
  failed : List Nat

namespace Positions

def start : Positions where
  cachedAt := none
  queueAt := []
  handAt := none
  keyAt := none
  dropped := []
  failed := []

def served (c : Positions) (v v' : View) (au : AccessUnit) : Positions :=
  if v'.recv.queue = v.recv.queue ++ [au] then
    { c with
      queueAt := c.queueAt ++ [v.accepted.length - 1]
      keyAt := if au.keyframe then some (v.accepted.length - 1) else c.keyAt }
  -- Neither closed nor gated: there was no room.
  else if v.recv.closed = false ∧ v.recv.needKeyframe = false then
    { c with dropped := c.dropped ++ [v.accepted.length - 1] }
  else c

def fanned (v v' : View) (c : Positions) : Positions :=
  if v.accepted.length < v'.accepted.length then
    { c with
      cachedAt := if v'.accepted.getLast?.any AccessUnit.keyframe then some v.accepted.length
        else c.cachedAt }
  else if v.listed = false ∧ v'.listed = true then
    { c with
      queueAt := if v'.recv.queue = [] then [] else c.cachedAt.toList
      keyAt := if v'.recv.queue = [] then none else c.cachedAt }
  else
    match v.turn, v'.turn with
    | .waiting _ au, .done => c.served v v' au
    | .evicting _ _, .resending _ _ => { c with queueAt := c.queueAt.tail }
    | .resending _ au, .done => c.served v v' au
    | _, _ => c

def dequeued (c : Positions) : Positions :=
  { c with handAt := c.queueAt.head?, queueAt := c.queueAt.tail }

/-- The pump found no stream, or a call of it failed. -/
def pumped (p p' : GopPump) (c : Positions) : Positions :=
  if p.pc ≠ .requesting ∧ p'.pc = .requesting then { c with failed := c.failed ++ c.handAt.toList }
  else c

def record (r : ReceiverId) (s : GopState) (l : GopLabel) (s' : GopState) (c : Positions) :
    Positions :=
  match l with
  | .fan _ => c.fanned (s.fan.view r) (s'.fan.view r)
  | .dequeue q => if q = r then c.dequeued.pumped (s.pumps r) (s'.pumps r) else c
  | .pump q _ => if q = r then c.pumped (s.pumps r) (s'.pumps r) else c
  | .request _ => c

end Positions

/-- Since the keyframe at `k` was published, a unit was dropped, or the pump failed on it or
    a later one. -/
def Positions.Lost (c : Positions) (k : Nat) : Prop :=
  (∃ i ∈ c.dropped, k < i) ∨ ∃ i ∈ c.failed, k ≤ i

/-- The flag withholds a P-frame only if something was lost since the last keyframe. -/
def Justified (v : View) (c : Positions) : Prop :=
  ∀ sc au, v.turn = .waiting sc au → au.keyframe = false → v.recv.closed = false →
    v.recv.needKeyframe = true → ∀ k, c.keyAt = some k → c.Lost k

/-- The pump of `r` asks for a keyframe only while none is queued. -/
def noneQueued (r : ReceiverId) (s : GopState) : GopLabel → Bool
  | .request q => q ≠ r ∨ (s.fan.recvAt r).queue.all (fun au => !au.keyframe)
  | _ => true

/-! ## The invariant -/

structure PosOk (v : View) (c : Positions) : Prop where
  cachedAt : ∀ i ∈ c.cachedAt, i < v.accepted.length
  cached : c.cachedAt.bind (v.accepted[·]?) = v.cached
  cacheKey : ∀ k ∈ v.cached, k.keyframe = true
  units : c.queueAt.map (v.accepted[·]?) = v.recv.queue.map some
  sorted : (c.handAt.toList ++ c.queueAt).Pairwise (· < ·)
  bound : ∀ i ∈ c.handAt.toList ++ c.queueAt, i < v.past
  keyBound : ∀ k ∈ c.keyAt, k < v.past
  keyed : ∀ k ∈ c.keyAt, (v.accepted[k]?).any AccessUnit.keyframe = true
  held : (∀ sc au, v.turn ≠ .resending sc au) → ∀ k ∈ c.keyAt, k ∈ c.queueAt ∨
    ∃ i ∈ c.handAt, k ≤ i
  need : v.recv.closed = false → v.recv.needKeyframe = true → ∀ k ∈ c.keyAt, c.Lost k

/-- A pump that asks for a keyframe failed on its unit. -/
structure HandOk (p : GopPump) (c : Positions) : Prop where
  hand : p.hand.isSome = true → c.handAt.isSome = true
  fault : p.pc = .requesting → ∃ i ∈ c.handAt, i ∈ c.failed

variable {au : AccessUnit} {p : GopPump} {c : Positions} {x : Receiver} {v : View}

theorem PosOk.justified (h : PosOk v c) : Justified v c := by
  intro sc au _ _ hopen hneed k hk
  exact h.need hopen hneed k hk

theorem PosOk.recv (h : PosOk v c) {listed turn} (hdone : turn = .done ↔ v.turn = .done)
    (hre : ∀ sc au, v.turn = .resending sc au → turn = .resending sc au)
    (hq : x.queue = v.recv.queue) (hcl : x.closed = false → v.recv.closed = false)
    (hneed : x.needKeyframe = true → v.recv.needKeyframe = true) :
    PosOk { v with recv := x, listed := listed, turn := turn } c := by
  have hpast : ({ v with recv := x, listed := listed, turn := turn } : View).past = v.past := by
    simp only [View.past, hdone]
  exact
    { h with
      units := by simp only [hq]; exact h.units
      bound := by rw [hpast]; exact h.bound
      keyBound := by rw [hpast]; exact h.keyBound
      held := fun hno => h.held (fun sc au hv => hno sc au (hre sc au hv))
      need := fun hc hn => h.need (hcl hc) (hneed hn) }

theorem PosOk.published (h : PosOk v c) (hturn : v.turn = .done) (au : AccessUnit) :
    PosOk
      { v with
        turn := if v.listed then .waiting false au else .done
        cached := if au.keyframe then some au else v.cached
        accepted := v.accepted ++ [au] }
      { c with cachedAt := if au.keyframe then some v.accepted.length else c.cachedAt } := by
  have hpast : v.past = v.accepted.length := if_pos hturn
  have hbound := h.bound
  have hkey := h.keyBound
  rw [hpast] at hbound hkey
  have hgrow : ∀ i < v.accepted.length, i < ({ v with
      turn := if v.listed then .waiting false au else .done
      cached := if au.keyframe then some au else v.cached
      accepted := v.accepted ++ [au] } : View).past := by
    intro i hi
    refine Nat.lt_of_lt_of_le hi (Nat.le_trans ?_ (View.pred_le_past _))
    simp
  obtain ⟨hat, hcached⟩ := cachedAt_published h.cachedAt h.cached au
  refine ⟨hat, hcached, ?_, ?_, h.sorted, fun i hi => hgrow i (hbound i hi),
    fun k hk => hgrow k (hkey k hk), ?_, ?_, h.need⟩
  · intro k hk
    simp only at hk
    split at hk
    · next hkf =>
      cases hk
      exact hkf
    · exact h.cacheKey k hk
  · rw [← h.units]
    apply map_congr_left
    intro i hi
    exact getElem?_append_left (hbound i (mem_append_right _ hi))
  · intro k hk
    rw [getElem?_append_left (hkey k hk)]
    exact h.keyed k hk
  · intro _ k hk
    exact h.held (by simp [hturn]) k hk

theorem PosOk.enqueued (h : PosOk v c) (hturn : v.turn ≠ .done) (hlast : v.accepted.getLast? = some au)
    (hq : x.queue = v.recv.queue ++ [au]) (hneed : x.needKeyframe = false)
    (hkeep : au.keyframe = false → ∀ sc a, v.turn ≠ .resending sc a) :
    PosOk { v with recv := x, turn := .done }
      { c with
        queueAt := c.queueAt ++ [v.accepted.length - 1]
        keyAt := if au.keyframe then some (v.accepted.length - 1) else c.keyAt } := by
  have hpast : v.past = v.accepted.length - 1 := if_neg hturn
  have hne := length_pos_of_mem (mem_of_getLast? hlast)
  have hidx : v.accepted[v.accepted.length - 1]? = some au := by
    rw [← getLast?_eq_getElem?, hlast]
  have hbound := h.bound
  have hkey := h.keyBound
  rw [hpast] at hbound hkey
  refine ⟨h.cachedAt, h.cached, h.cacheKey, ?_, ?_, ?_, ?_, ?_, ?_, ?_⟩
  · simp only [hq, map_append, h.units, map_singleton, hidx]
  · rw [← append_assoc]
    exact Slots.pairwise_snoc h.sorted hbound
  · rw [← append_assoc]
    refine Slots.forall_mem_snoc (fun i hi => ?_) (Nat.sub_lt hne Nat.one_pos)
    exact Nat.lt_of_lt_of_le (hbound i hi) (Nat.sub_le _ _)
  · intro k hk
    show k < v.accepted.length
    split at hk
    · cases hk
      omega
    · have := hkey k hk
      omega
  · intro k hk
    split at hk
    · next hkf =>
      cases hk
      rw [hidx]
      exact hkf
    · exact h.keyed k hk
  · intro _ k hk
    split at hk
    · cases hk
      exact .inl (mem_concat_self)
    · next hkf =>
      refine (h.held (hkeep (by simpa using hkf)) k hk).imp_left ?_
      exact fun hmem => mem_append_left _ hmem
  · intro _ hn
    exact absurd (hn.symm.trans hneed) (by simp)

variable {sc : Bool}

theorem PosOk.missed (h : PosOk v c) (hturn : v.turn = .waiting sc au)
    (hlast : v.accepted.getLast? = some au) (hq : x.queue = v.recv.queue)
    (hcl : x.closed = v.recv.closed) :
    PosOk { v with recv := x, turn := .done }
      (if v.recv.closed = false ∧ v.recv.needKeyframe = false then
        { c with dropped := c.dropped ++ [v.accepted.length - 1] } else c) := by
  have hpast : v.past = v.accepted.length - 1 := if_neg (by rw [hturn]; simp)
  have hne := length_pos_of_mem (mem_of_getLast? hlast)
  have hkey := h.keyBound
  rw [hpast] at hkey
  have hgrow : ∀ i < v.past, i < ({ v with recv := x, turn := .done } : View).past := by
    intro i hi
    show i < v.accepted.length
    omega
  have hno : ∀ sc a, v.turn ≠ .resending sc a := by rw [hturn]; simp
  have hnew : ∀ dropped, (x.closed = false → x.needKeyframe = true →
      ∀ k ∈ c.keyAt, ({ c with dropped := dropped } : Positions).Lost k) →
      PosOk { v with recv := x, turn := .done } { c with dropped := dropped } := fun _ hneed =>
    { h with
      units := by simp only [hq]; exact h.units
      bound := fun i hi => hgrow i (h.bound i hi)
      keyBound := fun k hk => hgrow k (h.keyBound k hk)
      held := fun _ => h.held hno
      need := hneed }
  split
  · -- the unit itself is what was lost
    exact hnew _ (fun _ _ k hk => .inl ⟨_, mem_concat_self, hkey k hk⟩)
  · next hg =>
    refine hnew c.dropped (fun hc _ => ?_)
    rw [hcl] at hc
    refine h.need hc ?_
    by_contra hn
    exact hg ⟨hc, by simpa using hn⟩

theorem PosOk.evicted (h : PosOk v c) (hturn : v.turn = .evicting sc au) :
    PosOk { v with recv := v.recv.fanoutEvict, turn := .resending sc au }
      { c with queueAt := c.queueAt.tail } := by
  have hpast : ({ v with recv := v.recv.fanoutEvict, turn := .resending sc au } : View).past =
      v.past := by
    simp [View.past, hturn]
  have hsub : Sublist (c.handAt.toList ++ c.queueAt.tail) (c.handAt.toList ++ c.queueAt) :=
    (Sublist.refl _).append (tail_sublist _)
  refine ⟨h.cachedAt, h.cached, h.cacheKey, ?_, h.sorted.sublist hsub, ?_, ?_, h.keyed, ?_, h.need⟩
  · show c.queueAt.tail.map (v.accepted[·]?) = v.recv.queue.tail.map some
    rw [map_tail, h.units, map_tail]
  · rw [hpast]
    exact fun i hi => h.bound i (hsub.subset hi)
  · rw [hpast]
    exact h.keyBound
  · intro hno
    exact absurd rfl (hno sc au)

theorem PosOk.subscribed (h : PosOk v c) (hturn : v.turn = .done)
    (hhand : c.handAt = none) (hq : x.queue = v.cached.toList)
    (hneed : x.needKeyframe = v.cached.isNone) :
    PosOk { v with recv := x, listed := true }
      { c with
        queueAt := if x.queue = [] then [] else c.cachedAt.toList
        keyAt := if x.queue = [] then none else c.cachedAt } := by
  have hpast : v.past = v.accepted.length := if_pos hturn
  obtain hk | ⟨k, hk⟩ := eq_none_or_eq_some v.cached
  · -- nothing is cached: no keyframe is on record
    have hnil : x.queue = [] := by rw [hq, hk]; rfl
    rw [if_pos hnil, if_pos hnil]
    refine ⟨h.cachedAt, h.cached, h.cacheKey, ?_, ?_, ?_, ?_, ?_, ?_, ?_⟩
    · simp [hnil]
    · simp [hhand]
    · simp [hhand]
    all_goals simp
  · have hbind := h.cached
    rw [hk] at hbind
    obtain ⟨i, hi, hik⟩ := bind_eq_some_iff.mp hbind
    have hcons : x.queue = [k] := by rw [hq, hk]; rfl
    have hlt : i < v.past := hpast ▸ h.cachedAt i hi
    have hne : x.queue ≠ [] := by simp [hcons]
    rw [if_neg hne, if_neg hne]
    refine ⟨h.cachedAt, h.cached, h.cacheKey, ?_, ?_, ?_, ?_, ?_, ?_, ?_⟩
    · simp [hi, hcons, hik]
    · simp [hhand, hi]
    · intro j hj
      obtain rfl : j = i := by simpa [hhand, hi] using hj
      exact hlt
    · intro j hj
      obtain rfl : i = j := mem_unique hi hj
      exact hlt
    · intro j hj
      obtain rfl : i = j := mem_unique hi hj
      rw [hik]
      exact h.cacheKey k hk
    · intro _ j hj
      obtain rfl : i = j := mem_unique hi hj
      exact .inl (by simp [hi])
    · intro _ hn
      have hn : x.needKeyframe = true := hn
      rw [hneed, hk] at hn
      cases hn

theorem PosOk.dequeued (h : PosOk v c)
    (hq : v.recv.queue = au :: x.queue) (hcl : x.closed = v.recv.closed)
    (hneed : x.needKeyframe = v.recv.needKeyframe) :
    PosOk { v with recv := x } c.dequeued ∧ c.dequeued.handAt.isSome = true := by
  have hunits := h.units
  rw [hq] at hunits
  obtain ⟨i, rest, hqa⟩ : ∃ i rest, c.queueAt = i :: rest := by
    apply exists_cons_of_ne_nil
    intro hnil
    rw [hnil] at hunits
    cases hunits
  have hdeq : c.dequeued = { c with handAt := some i, queueAt := rest } := by
    simp [Positions.dequeued, hqa]
  rw [hqa, map_cons, map_cons] at hunits
  have hsorted : (i :: rest).Pairwise (· < ·) :=
    h.sorted.sublist (hqa ▸ sublist_append_right _ _)
  rw [hdeq]
  refine ⟨{ h with units := (cons.inj hunits).2, sorted := hsorted, bound := ?_, held := ?_, need := ?_ },
    rfl⟩
  · intro j hj
    exact h.bound j (mem_append_right _ (hqa ▸ hj))
  · intro hno k hk
    rcases h.held hno k hk with hmem | ⟨j, hj, hle⟩
    · rw [hqa] at hmem
      rcases mem_cons.mp hmem with rfl | hrest
      · exact .inr ⟨k, rfl, Nat.le_refl _⟩
      · exact .inl hrest
    · -- the pump was past the keyframe, and has gone on
      have hlt : j < i := by
        refine (pairwise_append.mp h.sorted).2.2 j (by simpa using hj) i ?_
        exact hqa ▸ mem_cons_self
      exact .inr ⟨i, rfl, by omega⟩
  · intro hc hn
    exact h.need (hcl ▸ hc) (hneed ▸ hn)

theorem PosOk.pumped (h : PosOk v c) (p p' : GopPump) : PosOk v (c.pumped p p') := by
  unfold Positions.pumped
  split
  · refine { h with need := ?_ }
    intro hc hn k hk
    refine (h.need hc hn k hk).imp_right ?_
    intro ⟨i, hi, hle⟩
    exact ⟨i, mem_append_left _ hi, hle⟩
  · exact h

theorem HandOk.pumped {p' : GopPump} (hpc : p.pc ≠ .requesting)
    (hhand : p'.hand.isSome = true ∨ p'.pc = .requesting → c.handAt.isSome = true) :
    HandOk p' (c.pumped p p') := by
  unfold Positions.pumped
  split
  · next hfail =>
    refine ⟨fun hsome => hhand (.inl hsome), fun hreq => ?_⟩
    obtain ⟨i, hi⟩ := isSome_iff_exists.mp (hhand (.inr hreq))
    exact ⟨i, hi, mem_append_right _ (by simp [hi])⟩
  · next hok =>
    refine ⟨fun hsome => hhand (.inl hsome), fun hreq => ?_⟩
    exact absurd ⟨hpc, hreq⟩ hok

theorem GopPump.hand_of_advance {named p' ev} (h : p.advance named ev = some p') :
    p.pc ≠ .requesting ∧ (p'.hand.isSome = true ∨ p'.pc = .requesting → p.hand.isSome = true) := by
  cases GopPump.advance_cases h with
  | stopped hpc => exact ⟨by simp [hpc], by simp [GopPump.hand]⟩
  | openedNamed au hpc | opened au hpc | openFailed au hpc | headerWritten au hpc
  | headerFailed au hpc | written au frames hpc | writeFailed au frames complete hpc =>
    exact ⟨by simp [hpc], fun _ => by simp [GopPump.hand, hpc]⟩

theorem PosOk.requested (h : PosOk v c) (hh : HandOk p c)
    (hpc : p.pc = .requesting) (hno : ∀ sc au, v.turn ≠ .resending sc au)
    (hnone : ∀ au ∈ v.recv.queue, au.keyframe = false) :
    PosOk { v with recv := v.recv.requestKeyframe } c := by
  refine { h with need := ?_ }
  intro _ _ k hk
  obtain ⟨i, hi, hfailed⟩ := hh.fault hpc
  rcases h.held hno k hk with hmem | ⟨j, hj, hle⟩
  · -- a queued keyframe is excluded
    have hsome : v.accepted[k]? ∈ v.recv.queue.map some := by
      rw [← h.units]
      exact mem_map_of_mem hmem
    obtain ⟨au, hau, heq⟩ := mem_map.mp hsome
    have hkey := h.keyed k hk
    rw [← heq, any_some, hnone au hau] at hkey
    cases hkey
  · obtain rfl : i = j := mem_unique hi hj
    exact .inr ⟨i, hfailed, hle⟩

/-! ## Every step keeps it -/

namespace Positions

variable {au : AccessUnit} {v : View}

theorem fanned_recv (c : Positions) {x listed turn} (hl : listed = true → v.listed = true)
    (hdone : turn = .done → v.turn = .done)
    (hre : ∀ sc au, turn = .resending sc au → v.turn = .resending sc au) :
    c.fanned v { v with recv := x, listed := listed, turn := turn } = c := by
  unfold fanned
  rw [if_neg (Nat.lt_irrefl _), if_neg (by intro h; rw [hl h.2] at h; cases h.1)]
  split
  · next hw hd => rw [hdone hd] at hw; cases hw
  · next he hr => rw [hre _ _ hr] at he; cases he
  · next hr hd => rw [hdone hd] at hr; cases hr
  · rfl

theorem fanned_self (v : View) (c : Positions) : c.fanned v v = c :=
  fanned_recv c (x := v.recv) id id (fun _ _ h => h)

theorem fanned_published (c : Positions) {turn cached} (au : AccessUnit) :
    c.fanned v { v with turn := turn, cached := cached, accepted := v.accepted ++ [au] } =
      { c with cachedAt := if au.keyframe then some v.accepted.length else c.cachedAt } := by
  simp [fanned]

theorem fanned_served (c : Positions) {sc}
    (hturn : v.turn = .waiting sc au ∨ v.turn = .resending sc au) (x : Receiver) :
    c.fanned v { v with recv := x, turn := .done } =
      c.served v { v with recv := x, turn := .done } au := by
  unfold fanned
  rw [if_neg (Nat.lt_irrefl _), if_neg (by intro h; exact absurd (h.1.symm.trans h.2) (by simp))]
  rcases hturn with hturn | hturn <;> simp only [hturn]

theorem served_of_same {v' : View} (c : Positions) (h : v'.recv.queue = v.recv.queue) :
    c.served v v' au = if v.recv.closed = false ∧ v.recv.needKeyframe = false then
      { c with dropped := c.dropped ++ [v.accepted.length - 1] } else c := by
  unfold served
  rw [if_neg (by rw [h]; exact fun heq => absurd (congrArg length heq) (by simp))]

theorem fanned_evicted (c : Positions) {sc} (hturn : v.turn = .evicting sc au) (x : Receiver) :
    c.fanned v { v with recv := x, turn := .resending sc au } =
      { c with queueAt := c.queueAt.tail } := by
  unfold fanned
  rw [if_neg (Nat.lt_irrefl _), if_neg (by intro h; exact absurd (h.1.symm.trans h.2) (by simp))]
  simp only [hturn]

theorem fanned_frame (c : Positions) (v v' : View) :
    (c.fanned v v').handAt = c.handAt ∧ (c.fanned v v').failed = c.failed := by
  unfold fanned
  repeat' split
  all_goals first | exact ⟨rfl, rfl⟩ | (unfold served; repeat' split) <;> exact ⟨rfl, rfl⟩

end Positions

variable {au : AccessUnit} {s : GopState} {c : Positions} {r : ReceiverId}

theorem PosOk.tried {v} (h : PosOk v c) (hok : TurnOk v) (hturn : v.turn = .waiting sc au) {v'}
    (hv : v' = { v with
      recv := (v.recv.fanoutTry sc au).1
      turn := if (v.recv.fanoutTry sc au).2 then .evicting sc au else .done }) :
    PosOk v' (c.fanned v v') := by
  obtain ⟨rfl, hlast⟩ := hok.last sc au (.inl hturn)
  have hne : v.turn ≠ .done := by rw [hturn]; simp
  have hout := Receiver.fanoutTry_outcome false au v.recv
  generalize v.recv.fanoutTry false au = res at hout hv
  subst hv
  cases hout with
  | enqueued x _ _ _ hq _ _ hneed =>
    simp only [Bool.false_eq_true, if_false]
    rw [Positions.fanned_served c (.inl hturn), Positions.served, if_pos hq]
    exact h.enqueued hne hlast hq (by simpa using hneed) (by simp [hturn])
  | full _ _ _ =>
    rw [Positions.fanned_recv c id (by simp) (by simp)]
    exact h.recv (by simp [hturn]) (by simp [hturn]) rfl id id
  | _ =>
    simp only [Bool.false_eq_true, if_false]
    rw [Positions.fanned_served c (.inl hturn), Positions.served_of_same c (by rfl)]
    exact h.missed hturn hlast rfl rfl

theorem PosOk.resent {v} (h : PosOk v c) (hok : TurnOk v) (hturn : v.turn = .resending sc au) :
    PosOk { v with recv := v.recv.fanoutResend sc au, turn := .done }
      (c.fanned v { v with recv := v.recv.fanoutResend sc au, turn := .done }) := by
  obtain ⟨rfl, hlast⟩ := hok.last sc au (.inr (.inr hturn))
  have hkey := hok.held false au (.inr hturn)
  obtain ⟨hq, -, -, hneed⟩ := Receiver.fanoutResend_of_lt false au (hok.room false au hturn)
  rw [Positions.fanned_served c (.inr hturn), Positions.served, if_pos hq]
  refine h.enqueued (by rw [hturn]; simp) hlast hq hneed ?_
  intro hp
  rw [hkey] at hp
  cases hp

structure RecoveryInv (r : ReceiverId) (x : GopState × Positions) : Prop where
  ok : x.1.fan.Ok
  video : x.1.fan.ps.bc.selfContained = false
  unborn : x.1.fan.ps.fresh ≤ r → x.2.handAt = none
  turn : TurnOk (x.1.fan.view r)
  pos : PosOk (x.1.fan.view r) x.2
  hand : HandOk (x.1.pumps r) x.2

theorem RecoveryInv.fan (h : RecoveryInv r (s, c)) {l f} (hstep : s.fan.step l = some f) :
    RecoveryInv r ({ s with fan := f }, c.fanned (s.fan.view r) (f.view r)) := by
  have hv := Fan.step_view h.ok hstep r
  have hpos : PosOk (f.view r) (c.fanned (s.fan.view r) (f.view r)) := by
    have hp := h.pos
    generalize f.view r = v' at hv ⊢
    cases hv with
    | published au au' _ hdone =>
      rw [Positions.fanned_published c au', h.video]
      exact hp.published hdone au'
    | tried sc au hwait => exact hp.tried h.turn hwait rfl
    | evicted sc au hev =>
      rw [Positions.fanned_evicted c hev]
      exact hp.evicted hev
    | resent sc au hre => exact hp.resent h.turn hre
    | subscribed want hfresh hdone =>
      obtain ⟨hq, -, -, hneed⟩ := s.fan.ps.bc.newReceiver_spec (s.fan.ps.bc.capacityFor_pos want)

      have hrecord := hp.subscribed hdone (h.unborn (Nat.le_of_eq hfresh)) hq
        (by rw [hneed, h.video]; simp [Fan.view])
      unfold Positions.fanned
      rw [if_neg (Nat.lt_irrefl _), if_pos ⟨Fan.view_unlisted h.ok hfresh, rfl⟩]
      exact hrecord
    | unsubscribed =>
      rw [Positions.fanned_recv c (fun hl => Bool.noConfusion hl) id (fun _ _ hr => hr)]
      exact hp.recv Iff.rfl (fun _ _ hr => hr) rfl id id
    | closed =>
      rw [Positions.fanned_recv c id id (fun _ _ hr => hr)]
      refine hp.recv Iff.rfl (fun _ _ hr => hr) (by simp) (fun hc => ?_) (by simp)
      exact absurd (hc.symm.trans (Receiver.close_closed _)) (by simp)
    | _ => rw [Positions.fanned_self]; exact hp
  obtain ⟨hhand, hfailed⟩ := Positions.fanned_frame c (s.fan.view r) (f.view r)
  refine ⟨Fan.ok_step h.ok hstep, (Fan.config_step hstep).1.trans h.video, fun hr => ?_,
    h.turn.step hv h.video, hpos, ?_, ?_⟩
  · rw [hhand]
    exact h.unborn (Nat.le_trans (Fan.fresh_le (Fan.step_cases hstep)) hr)
  · rw [hhand]
    exact h.hand.hand
  · rw [hhand, hfailed]
    exact h.hand.fault

theorem RecoveryInv.frame {q} (h : RecoveryInv r (s, c)) (hne : r ≠ q) (p : GopPump) (x : Receiver) :
    RecoveryInv r ({ s with fan := s.fan.setRecv q x }.setPump q p, c) := by
  have hpump : update s.pumps q p r = s.pumps r := update_of_ne hne _ _
  refine ⟨Fan.ok_setRecv h.ok q x, h.video, h.unborn, ?_, ?_, ?_⟩
  · show TurnOk ((s.fan.setRecv q x).view r)
    rw [Fan.view_setRecv_of_ne s.fan hne]
    exact h.turn
  · show PosOk ((s.fan.setRecv q x).view r) c
    rw [Fan.view_setRecv_of_ne s.fan hne]
    exact h.pos
  · show HandOk (update s.pumps q p r) c
    rw [hpump]
    exact h.hand

theorem RecoveryInv.dequeue (h : RecoveryInv r (s, c)) {x} (hr : r < s.fan.ps.fresh)
    (hpc : (s.pumps r).pc = .waiting) (hrecv : (s.fan.recvAt r).recv = some (au, x)) :
    RecoveryInv r (s.dequeue r au x,
      c.dequeued.pumped (s.pumps r) ((s.dequeue r au x).pumps r)) := by
  obtain ⟨hq, hcap, hcl, hneed⟩ := Receiver.recv_some hrecv
  obtain ⟨hpos, hhand⟩ := h.pos.dequeued hq hcl hneed
  have hview : (s.dequeue r au x).fan.view r = { s.fan.view r with recv := x } :=
    Fan.view_setRecv_self s.fan r x
  refine ⟨Fan.ok_setRecv h.ok r x, h.video, fun hle => absurd hr (Nat.not_lt.mpr hle),
    ?_, ?_, HandOk.pumped (by simp [hpc]) (fun _ => hhand)⟩
  · rw [hview]
    refine h.turn.recv id ?_ hcap
    show x.queue.length ≤ (s.fan.recvAt r).queue.length
    rw [hq]
    exact Nat.le_succ _
  · rw [hview]
    exact hpos.pumped _ _

theorem Fan.not_resending_of_unlocked {s : Fan} (h : s.locked r = false) :
    ∀ sc au, (s.view r).turn ≠ .resending sc au := by
  intro sc au hturn
  simp only [Fan.view, turnOf] at hturn
  split at hturn
  · cases hturn
  · next f hf =>
    unfold Flight.turn at hturn
    split at hturn
    · cases hturn
    · split at hturn
      · next hcur => simp [Fan.locked, hf, hcur] at h
      · split at hturn <;> cases hturn

theorem RecoveryInv.request (h : RecoveryInv r (s, c)) (hpc : (s.pumps r).pc = .requesting)
    (hlock : s.fan.locked r = false) (hnone : ∀ au ∈ (s.fan.recvAt r).queue, au.keyframe = false) :
    RecoveryInv r (s.request r, c) := by
  have hview : (s.request r).fan.view r =
      { s.fan.view r with recv := (s.fan.view r).recv.requestKeyframe } :=
    Fan.view_setRecv_self s.fan r _
  have hpump : (s.request r).pumps r = { s.pumps r with pc := .waiting } :=
    update_self ..
  refine ⟨Fan.ok_setRecv h.ok r _, h.video, h.unborn, ?_, ?_, ?_⟩
  · rw [hview]
    exact h.turn.recv id (Nat.le_refl _) rfl
  · rw [hview]
    exact h.pos.requested h.hand hpc (Fan.not_resending_of_unlocked hlock) hnone
  · rw [hpump]
    exact ⟨by simp [GopPump.hand], by simp⟩

theorem RecoveryInv.advance (h : RecoveryInv r (s, c)) {named ev p} (hr : r < s.fan.ps.fresh)
    (hadv : (s.pumps r).advance named ev = some p) :
    RecoveryInv r (s.setPump r p, c.pumped (s.pumps r) p) := by
  obtain ⟨hpc, hhand⟩ := GopPump.hand_of_advance hadv
  have hpump : (s.setPump r p).pumps r = p := update_self ..
  refine ⟨h.ok, h.video, fun hle => absurd hr (Nat.not_lt.mpr hle), h.turn,
    h.pos.pumped _ _, ?_⟩
  rw [hpump]
  exact HandOk.pumped hpc (fun hor => h.hand.hand (hhand hor))

theorem RecoveryInv.step {named x x'} (h : RecoveryInv r x) {l} (hok : noneQueued r x.1 l = true)
    (hstep : withHistory (GopState.freeStep named) (Positions.record r) x l = some x') :
    RecoveryInv r x' := by
  obtain ⟨hnext, hrec⟩ := withHistory_eq_some.mp hstep
  obtain ⟨s, c⟩ := x
  obtain ⟨s', c'⟩ := x'
  obtain rfl : Positions.record r s l s' c = c' := hrec
  cases l with
  | fan l =>
    obtain ⟨f, hfan, rfl⟩ := map_eq_some_iff.mp hnext
    exact h.fan hfan
  | dequeue q =>
    obtain ⟨⟨hq, hpc⟩, hnext⟩ := ite_none_right_eq_some.mp hnext
    obtain ⟨⟨au, y⟩, hrecv, rfl⟩ := map_eq_some_iff.mp hnext
    simp only [Positions.record]
    by_cases hrq : q = r
    · subst hrq
      rw [if_pos rfl]
      exact h.dequeue hq hpc hrecv
    · rw [if_neg hrq]
      exact h.frame (Ne.symm hrq) _ _
  | pump q ev =>
    obtain ⟨hq, hnext⟩ := ite_none_right_eq_some.mp hnext
    obtain ⟨p, hadv, rfl⟩ := map_eq_some_iff.mp hnext
    simp only [Positions.record]
    by_cases hrq : q = r
    · subst hrq
      have hpump : (s.setPump q p).pumps q = p := update_self ..
      rw [if_pos rfl, hpump]
      exact h.advance hq hadv
    · rw [if_neg hrq]
      have hsame : s.fan.setRecv q (s.fan.recvAt q) = s.fan := by simp [Fan.setRecv, Fan.recvAt]
      have hnew := h.frame (Ne.symm hrq) p (s.fan.recvAt q)
      rw [hsame] at hnew
      exact hnew
  | request q =>
    obtain ⟨⟨hpc, hlock⟩, rfl⟩ := of_guard hnext
    by_cases hrq : q = r
    · subst hrq
      refine h.request hpc hlock ?_
      simpa [noneQueued] using hok
    · exact h.frame (Ne.symm hrq) _ _

/-! ## Results -/

/-- Any interceptors, channel size and size cap; with the positions of `r`. -/
def recoverySystem (chanSize maxAUBytes : Int) (chain : List Interceptor) (named leading : Bool)
    (r : ReceiverId) : System (GopState × Positions) GopLabel :=
  ofFun
    (GopState.start { newBroadcasterWithBytes chanSize maxAUBytes with interceptors := chain } leading,
      Positions.start)
    (withHistory (GopState.freeStep named) (Positions.record r))

/-- **No spurious gating.** A P-frame is withheld from `r` only if something was lost since
    the keyframe enqueued last. -/
theorem gating_justified (chanSize maxAUBytes : Int) (chain : List Interceptor)
    (named leading : Bool) (r : ReceiverId) :
    ∀ x, Reachable ((recoverySystem chanSize maxAUBytes chain named leading r).restrict
        (fun x l => noneQueued r x.1 l = true)) x →
      Justified (x.1.fan.view r) x.2 := by
  intro x hx
  have hinv : RecoveryInv r x := by
    refine invariant_restrict (RecoveryInv r) ?_ (fun _ _ _ _ h => h.step) x hx
    refine ⟨Fan.ok_start _, rfl, fun _ => rfl, .done (fun hl => ?_) rfl,
      ⟨nofun, rfl, nofun, rfl, Pairwise.nil, nofun, nofun, nofun, nofun, fun _ _ _ => nofun⟩, ?_, ?_⟩
    · simp [Fan.view, GopState.start, Fan.start, PubSub.new] at hl
    · simp [GopState.start, GopPump.start, GopPump.hand]
    · simp [GopState.start, GopPump.start]
  exact hinv.pos.justified

/-- The write of the first P-frame fails while nothing else is queued. -/
def gapRun : List GopLabel :=
  [.fan (.subscribe 0), .fan (.publish (.bare true 1)), .fan (.fanout 0), .dequeue 0,
   .pump 0 .opened, .pump 0 .headerWritten, .pump 0 .written,
   .fan (.publish (.bare false 2)), .fan (.fanout 0), .dequeue 0, .pump 0 (.writeFailed false),
   .request 0, .fan (.publish (.bare false 3))]

theorem gating_justified_gap :
    ∃ x, Reachable ((recoverySystem 30 0 [] true false 0).restrict
        (fun x l => noneQueued 0 x.1 l = true)) x ∧
      (x.1.fan.view 0).turn = .waiting false (.bare false 3) ∧
      (x.1.fan.view 0).recv.needKeyframe = true ∧ x.2.keyAt = some 0 ∧ x.2.failed = [1] ∧
      Justified (x.1.fan.view 0) x.2 :=
  exists_run_given_imp gapRun (fun x hx (hp : (x.1.fan.view 0).turn = .waiting false (.bare false 3) ∧
    (x.1.fan.view 0).recv.needKeyframe = true ∧ x.2.keyAt = some 0 ∧ x.2.failed = [1]) =>
      ⟨hp.1, hp.2.1, hp.2.2.1, hp.2.2.2, gating_justified 30 0 [] true false 0 x hx⟩)
    (by decide +kernel)

/-- The next keyframe is enqueued before the write fails. -/
def lateFailureRun : List GopLabel :=
  [.fan (.subscribe 0), .fan (.publish (.bare true 1)), .fan (.fanout 0), .dequeue 0,
   .pump 0 .opened, .pump 0 .headerWritten, .pump 0 .written,
   .fan (.publish (.bare false 2)), .fan (.fanout 0), .dequeue 0,
   .fan (.publish (.bare true 3)), .fan (.fanout 0), .pump 0 (.writeFailed false),
   .request 0, .fan (.publish (.bare false 4))]

/-- The keyframe is queued, and the one failure was on a unit before it. -/
theorem withheld_behind_keyframe :
    ∃ x, Reachable (recoverySystem 30 0 [] true false 0) x ∧
      (x.1.fan.view 0).turn = .waiting false (.bare false 4) ∧
      (x.1.fan.view 0).recv.queue = [.bare true 3] ∧
      x.2.keyAt = some 2 ∧ x.2.dropped = [] ∧ x.2.failed = [1] ∧
      ¬ Justified (x.1.fan.view 0) x.2 := by
  refine exists_run_imp lateFailureRun (fun x hx (hp :
    (x.1.fan.view 0).turn = .waiting false (.bare false 4) ∧
    (x.1.fan.view 0).recv.queue = [.bare true 3] ∧ (x.1.fan.view 0).recv.closed = false ∧
    (x.1.fan.view 0).recv.needKeyframe = true ∧ x.2.keyAt = some 2 ∧ x.2.dropped = [] ∧
    x.2.failed = [1]) => ?_) (by decide +kernel)
  obtain ⟨hturn, hqueue, hopen, hneed, hkey, hdropped, hfailed⟩ := hp
  refine ⟨hturn, hqueue, hkey, hdropped, hfailed, fun h => ?_⟩
  rcases h false _ hturn rfl hopen hneed 2 hkey with ⟨i, hi, -⟩ | ⟨i, hi, hle⟩
  · rw [hdropped] at hi
    cases hi
  · rw [hfailed] at hi
    obtain rfl := mem_singleton.mp hi
    omega

end QuicRTC

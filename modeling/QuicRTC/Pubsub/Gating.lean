import Mathlib.Data.List.Chain
import QuicRTC.Pubsub.Fan

/-! # Gating of a Video Receiver

A video broadcaster with one producer, its consumers, and `RequestKeyframe` called at any time. For
one receiver a trail is kept of what was fanned out to it. Units are told apart by their position in
the list of accepted units. A keyframe is never dropped: its section evicts if it has to, and only
reads can come between the eviction and the retry.
-/

namespace QuicRTC

open LTS List Option

inductive GateLabel where
  | fan (l : FanLabel)
  /-- The consumer of `r` reads `Frames()`. -/
  | read (r : ReceiverId)
  /-- `RequestKeyframe` on `r`. -/
  | request (r : ReceiverId)

namespace Fan

/-- `none` if the label is not enabled. -/
def gateStep (s : Fan) : GateLabel → Option Fan
  | .fan l => s.step l
  | .read r => if r < s.ps.fresh then (s.recvAt r).recv.map (fun y => s.setRecv r y.2) else none
  -- It takes `r.mu`, and so waits for a section in progress.
  | .request r =>
    if r < s.ps.fresh ∧ s.locked r = false then some (s.setRecv r (s.recvAt r).requestKeyframe)
    else none

end Fan

/-! ## The trail of a receiver -/

structure Fanned where
  /-- Among the accepted units. -/
  index : Nat
  au : AccessUnit
  /-- When its turn came. -/
  closed : Bool
  enqueued : Bool
  deriving DecidableEq

structure Trail where
  /-- Whether the receiver was in the snapshot of each accepted unit. -/
  listedAt : List Bool
  /-- Of the keyframe in the cache. -/
  cachedAt : Option Nat
  /-- Of the keyframe enqueued at the subscription. -/
  joined : Option Nat
  fanned : List Fanned

namespace Trail

def start : Trail where
  listedAt := []
  cachedAt := none
  joined := none
  fanned := []

/-- Its turn for the last accepted unit is over. -/
def served (t : Trail) (v v' : View) (au : AccessUnit) (closed : Bool) : Trail :=
  { t with
    fanned := t.fanned ++
      [{ index := v.accepted.length - 1
         au := au
         closed := closed
         enqueued := decide (v'.recv.queue = v.recv.queue ++ [au]) }] }

/-- From what the receiver saw before and after. -/
def record (v v' : View) (t : Trail) : Trail :=
  if v.accepted.length < v'.accepted.length then
    { t with
      listedAt := t.listedAt ++ [v.listed]
      cachedAt := if v'.accepted.getLast?.any AccessUnit.keyframe then some v.accepted.length
        else t.cachedAt }
  else if v.listed = false ∧ v'.listed = true then
    { t with joined := if v'.recv.queue = [] then none else t.cachedAt }
  else
    match v.turn, v'.turn with
    | .waiting _ au, .done => t.served v v' au v.recv.closed
    -- Only an open receiver gets as far as the third `select`.
    | .resending _ au, .done => t.served v v' au false
    | _, _ => t

/-- Positions, in the order of the sends. -/
def enqueues (t : Trail) : List Nat :=
  t.joined.toList ++ (t.fanned.filter Fanned.enqueued).map Fanned.index

/-- The unit before the next one fanned out was enqueued. -/
def primed (t : Trail) : Bool :=
  match t.fanned.getLast? with
  | some e => e.enqueued
  | none => t.joined.isSome

end Trail

structure Gated (v : View) (t : Trail) : Prop where
  /-- Once the turn of a receiver in its snapshot is over. -/
  keyframes : ∀ i au, v.accepted[i]? = some au → au.keyframe = true → t.listedAt[i]? = some true →
    v.turn = .done ∨ i + 1 < v.accepted.length →
    ∃ e ∈ t.fanned, e.index = i ∧ e.au = au ∧ (e.closed = false → e.enqueued = true)
  /-- Only if the unit fanned out before it was enqueued. -/
  pframes : t.fanned.IsChain (fun p e =>
    e.enqueued = true → e.au.keyframe = false → p.enqueued = true)
  first : ∀ e ∈ t.fanned.head?, e.enqueued = true → e.au.keyframe = false → t.joined.isSome = true
  /-- Without duplicates. -/
  order : t.enqueues.Pairwise (· < ·)
  queue : v.recv.queue <:+ t.enqueues.filterMap (v.accepted[·]?)

/-! ## The invariant -/

/-- Once room has been made for a keyframe there is room. -/
structure TurnOk (v : View) : Prop where
  last : ∀ sc au, v.turn = .waiting sc au ∨ v.turn = .evicting sc au ∨ v.turn = .resending sc au →
    sc = false ∧ v.accepted.getLast? = some au
  held : ∀ sc au, v.turn = .evicting sc au ∨ v.turn = .resending sc au → au.keyframe = true
  room : ∀ sc au, v.turn = .resending sc au → v.recv.queue.length < v.recv.cap
  cap : v.listed = true ∨ v.turn ≠ .done → 0 < v.recv.cap

def View.past (v : View) : Nat :=
  if v.turn = .done then v.accepted.length else v.accepted.length - 1

theorem View.past_le (v : View) : v.past ≤ v.accepted.length := by
  unfold View.past
  split <;> omega

theorem View.pred_le_past (v : View) : v.accepted.length - 1 ≤ v.past := by
  unfold View.past
  split <;> omega

structure TrailOk (v : View) (t : Trail) : Prop where
  cachedAt : ∀ i ∈ t.cachedAt, i < v.accepted.length
  cached : t.cachedAt.bind (v.accepted[·]?) = v.cached
  listed : t.listedAt.length = v.accepted.length
  sorted : (t.joined.toList ++ t.fanned.map Fanned.index).Pairwise (· < ·)
  bound : ∀ i ∈ t.joined.toList ++ t.fanned.map Fanned.index, i < v.past
  units : ∀ e ∈ t.fanned, v.accepted[e.index]? = some e.au
  served : ∀ i < v.past, t.listedAt[i]? = some true → ∃ e ∈ t.fanned, e.index = i
  keyed : ∀ e ∈ t.fanned, e.au.keyframe = true → e.closed = false → e.enqueued = true
  pframes : t.fanned.IsChain (fun p e =>
    e.enqueued = true → e.au.keyframe = false → p.enqueued = true)
  first : ∀ e ∈ t.fanned.head?, e.enqueued = true → e.au.keyframe = false → t.joined.isSome = true
  /-- An open receiver that is not gated has its last unit. -/
  gate : v.recv.closed = false → v.recv.needKeyframe = false → t.primed = true
  queue : v.recv.queue <:+ t.enqueues.filterMap (v.accepted[·]?)

variable {au : AccessUnit} {listed sc : Bool} {s : Fan} {x : Receiver} {r : ReceiverId} {t : Trail}
  {turn : Turn} {v v' : View}

theorem cachedAt_published {at_} (hlt : ∀ i ∈ at_, i < v.accepted.length)
    (hcached : at_.bind (v.accepted[·]?) = v.cached) (au : AccessUnit) :
    (∀ i ∈ if au.keyframe then some v.accepted.length else at_, i < (v.accepted ++ [au]).length) ∧
      (if au.keyframe then some v.accepted.length else at_).bind ((v.accepted ++ [au])[·]?) =
        if au.keyframe then some au else v.cached := by
  rw [length_append, length_singleton]
  cases au.keyframe with
  | true => simp
  | false =>
    refine ⟨fun i hi => Nat.lt_succ_of_lt (hlt i hi), ?_⟩
    rw [if_neg Bool.false_ne_true, if_neg Bool.false_ne_true, ← hcached]
    cases hc : at_ with
    | none => rfl
    | some i => exact getElem?_append_left (hlt i hc)

theorem Fan.view_unlisted (h : s.Ok) (hfresh : s.ps.fresh = r) : (s.view r).listed = false := by
  by_contra hl
  have hmem : r ∈ s.ps.bc.receivers := by simpa [Fan.view] using hl
  exact Nat.lt_irrefl _ (hfresh ▸ h.listed r hmem)

theorem TrailOk.gated (h : TrailOk v t) : Gated v t where
  keyframes := by
    intro i au hi hk hl hover
    have hlt : i < v.past := by
      obtain ⟨hlen, -⟩ := List.getElem?_eq_some_iff.mp hi
      unfold View.past
      split
      · exact hlen
      · rcases hover with hdone | hmore
        · contradiction
        · omega
    obtain ⟨e, he, rfl⟩ := h.served i hlt hl
    have hau : e.au = au := some.inj ((h.units e he).symm.trans hi)
    exact ⟨e, he, rfl, hau, h.keyed e he (hau ▸ hk)⟩
  pframes := h.pframes
  first := h.first
  order := by
    refine h.sorted.sublist ?_
    exact (Sublist.refl _).append (filter_sublist.map _)
  queue := h.queue

theorem TrailOk.recv (h : TrailOk v t) (hturn : turn = .done ↔ v.turn = .done) (hq : x.queue <:+ v.recv.queue)
    (hcl : x.closed = false → v.recv.closed = false)
    (hneed : x.needKeyframe = false → v.recv.needKeyframe = false) :
    TrailOk { v with recv := x, listed := listed, turn := turn } t := by
  have hpast : ({ v with recv := x, listed := listed, turn := turn } : View).past = v.past := by
    simp only [View.past, hturn]
  exact
    { h with
      bound := by rw [hpast]; exact h.bound
      served := by rw [hpast]; exact h.served
      gate := fun hc hn => h.gate (hcl hc) (hneed hn)
      queue := hq.trans h.queue }

theorem TrailOk.published (h : TrailOk v t) (hturn : v.turn = .done) (sc : Bool) (au : AccessUnit) :
    TrailOk
      { v with
        turn := if v.listed then .waiting sc au else .done
        cached := if au.keyframe then some au else v.cached
        accepted := v.accepted ++ [au] }
      { t with
        listedAt := t.listedAt ++ [v.listed]
        cachedAt := if au.keyframe then some v.accepted.length else t.cachedAt } := by
  have hpast : v.past = v.accepted.length := if_pos hturn
  have hbound := h.bound
  rw [hpast] at hbound
  obtain ⟨hat, hcached⟩ := cachedAt_published h.cachedAt h.cached au
  refine ⟨hat, hcached, by simp [h.listed], h.sorted, ?_, ?_, ?_, h.keyed, h.pframes, h.first,
    h.gate, ?_⟩
  · intro i hi
    refine Nat.lt_of_lt_of_le (hbound i hi) (Nat.le_trans ?_ (View.pred_le_past _))
    simp
  · intro e he
    rw [getElem?_append_left (hbound _ (mem_append_right _ (mem_map_of_mem he)))]
    exact h.units e he
  · intro i hi hl
    -- a listed receiver still waits for the new unit
    have hlt : i < v.accepted.length := by
      by_contra hge
      have hle := Nat.lt_of_lt_of_le hi (View.past_le _)
      simp only [length_append, length_singleton] at hle
      obtain rfl : i = v.accepted.length := by omega
      rw [← h.listed, getElem?_concat_length] at hl
      simp only [View.past, some.inj hl, if_true] at hi
      simp at hi
    rw [getElem?_append_left (h.listed ▸ hlt)] at hl
    exact h.served i (hpast ▸ hlt) hl
  · have hsame : t.enqueues.filterMap ((v.accepted ++ [au])[·]?) =
        t.enqueues.filterMap (v.accepted[·]?) := by
      apply filterMap_congr
      intro i hi
      have hmem : i ∈ t.joined.toList ++ t.fanned.map Fanned.index :=
        (Sublist.append (Sublist.refl _) (filter_sublist.map _)).subset hi
      exact getElem?_append_left (hbound i hmem)
    show v.recv.queue <:+ t.enqueues.filterMap ((v.accepted ++ [au])[·]?)
    rw [hsame]
    exact h.queue

theorem TrailOk.served_turn (h : TrailOk v t) {closed} (hturn : v.turn ≠ .done)
    (hlast : v.accepted.getLast? = some au)
    (hq : x.queue = v.recv.queue ++ [au] ∨ x.queue = v.recv.queue)
    (hkey : au.keyframe = true → closed = false → x.queue = v.recv.queue ++ [au])
    (hpframe : x.queue = v.recv.queue ++ [au] → au.keyframe = false → t.primed = true)
    (hgate : x.closed = false → x.needKeyframe = false → x.queue = v.recv.queue ++ [au]) :
    TrailOk { v with recv := x, turn := .done }
      (t.served v { v with recv := x, turn := .done } au closed) := by
  have hpast : v.past = v.accepted.length - 1 := if_neg hturn
  have hne := length_pos_of_mem (mem_of_getLast? hlast)
  have hbound := h.bound
  rw [hpast] at hbound
  have hidx : v.accepted[v.accepted.length - 1]? = some au := by
    rw [← getLast?_eq_getElem?, hlast]
  set e : Fanned :=
    { index := v.accepted.length - 1
      au := au
      closed := closed
      enqueued := decide (x.queue = v.recv.queue ++ [au]) } with he
  have hfanned : (t.served v { v with recv := x, turn := .done } au closed).fanned =
      t.fanned ++ [e] := rfl
  refine ⟨h.cachedAt, h.cached, h.listed, ?_, ?_, ?_, ?_, ?_, ?_, ?_, ?_, ?_⟩
  · rw [hfanned, map_append, ← append_assoc]
    exact Slots.pairwise_snoc h.sorted hbound
  · rw [hfanned, map_append, ← append_assoc]
    show ∀ i ∈ _, i < v.accepted.length
    intro i hi
    rcases mem_append.mp hi with hold | hnew
    · have := hbound i hold
      omega
    · rw [map_singleton, mem_singleton] at hnew
      rw [hnew]
      show v.accepted.length - 1 < v.accepted.length
      omega
  · exact Slots.forall_mem_snoc h.units hidx
  · intro i hi hl
    have hi : i < v.accepted.length := hi
    by_cases hlt : i < v.accepted.length - 1
    · obtain ⟨f, hf, hfi⟩ := h.served i (hpast ▸ hlt) hl
      exact ⟨f, mem_append_left _ hf, hfi⟩
    · refine ⟨e, mem_concat_self, ?_⟩
      show v.accepted.length - 1 = i
      omega
  · refine Slots.forall_mem_snoc h.keyed ?_
    exact fun hk hc => decide_eq_true (hkey hk hc)
  · refine isChain_append.mpr ⟨h.pframes, isChain_singleton _, ?_⟩
    intro p hp f hf
    cases hf
    intro henq hk
    have hprimed := hpframe (of_decide_eq_true henq) hk
    unfold Trail.primed at hprimed
    rw [hp] at hprimed
    exact hprimed
  · rw [hfanned]
    intro f hf henq hk
    cases hft : t.fanned with
    | nil =>
      rw [hft] at hf
      cases hf
      have hprimed := hpframe (of_decide_eq_true henq) hk
      unfold Trail.primed at hprimed
      rw [hft] at hprimed
      exact hprimed
    | cons g rest =>
      rw [hft] at hf
      cases hf
      exact h.first f (by rw [hft]; rfl) henq hk
  · intro hc hn
    unfold Trail.primed
    rw [hfanned, getLast?_concat]
    exact decide_eq_true (hgate hc hn)
  · unfold Trail.enqueues
    rw [hfanned, filter_append, map_append, ← append_assoc, filterMap_append]
    rcases hq with hadded | hsame
    · have hen : e.enqueued = true := decide_eq_true hadded
      rw [filter_cons_of_pos hen, filter_nil, map_singleton, hadded]
      rw [filterMap_cons_some hidx, filterMap_nil]
      obtain ⟨d, hd⟩ := h.queue
      refine ⟨d, ?_⟩
      rw [← append_assoc, hd]
      rfl
    · have hen : ¬ e.enqueued = true := by
        intro hen
        have hadded := of_decide_eq_true hen
        rw [hsame] at hadded
        exact absurd (congrArg length hadded) (by simp)
      rw [filter_cons_of_neg hen, filter_nil, map_nil, filterMap_nil,
        append_nil, hsame]
      exact h.queue

theorem TrailOk.subscribed (h : TrailOk v t) (hturn : v.turn = .done)
    (hnew : t.fanned = []) (hq : x.queue = v.cached.toList)
    (hneed : x.needKeyframe = v.cached.isNone) :
    TrailOk { v with recv := x, listed := true }
      { t with joined := if x.queue = [] then none else t.cachedAt } := by
  have hpast : v.past = v.accepted.length := if_pos hturn
  have hbound : ∀ i ∈ (if x.queue = [] then none else t.cachedAt).toList, i < v.past := by
    intro i hi
    rw [hpast]
    split at hi
    · cases hi
    · exact h.cachedAt i (by simpa using hi)
  -- What is in the cache is at a position.
  have hjoined : ∀ k, v.cached = some k → ∃ i, t.cachedAt = some i ∧ v.accepted[i]? = some k ∧
      x.queue = [k] := by
    intro k hk
    have hbind := h.cached
    rw [hk] at hbind
    obtain ⟨i, hi, hik⟩ := bind_eq_some_iff.mp hbind
    exact ⟨i, hi, hik, by rw [hq, hk]; rfl⟩
  refine ⟨h.cachedAt, h.cached, h.listed, ?_, ?_, h.units, h.served, h.keyed, h.pframes, ?_, ?_, ?_⟩
  · simp only [hnew, map_nil, append_nil]
    cases (if x.queue = [] then none else t.cachedAt) <;> simp
  · simp only [hnew, map_nil, append_nil]
    exact hbound
  · intro e he
    simp only [hnew] at he
    cases he
  · intro _ hn
    have hn : x.needKeyframe = false := hn
    rw [hneed] at hn
    obtain ⟨k, hk⟩ := isSome_iff_exists.mp (by simpa using hn : v.cached.isSome = true)
    obtain ⟨i, hi, -, hqk⟩ := hjoined k hk
    simp [Trail.primed, hnew, hqk, hi]
  · simp only [Trail.enqueues, hnew, filter_nil, map_nil, append_nil]
    cases hk : v.cached with
    | none =>
      rw [hq, hk]
      exact nil_suffix
    | some k =>
      obtain ⟨i, hi, hik, hqk⟩ := hjoined k hk
      simp [hqk, hi, hik]

/-! ## Every step keeps it -/

theorem record_recv (t : Trail)
    (hl : listed = true → v.listed = true) (hturn : turn = .done → v.turn = .done) :
    t.record v { v with recv := x, listed := listed, turn := turn } = t := by
  unfold Trail.record
  rw [if_neg (Nat.lt_irrefl _), if_neg (by intro h; rw [hl h.2] at h; cases h.1)]
  split
  · next hw hd => rw [hturn hd] at hw; cases hw
  · next hw hd => rw [hturn hd] at hw; cases hw
  · rfl

theorem record_self (v : View) (t : Trail) : t.record v v = t :=
  record_recv t (x := v.recv) id id

theorem record_served (t : Trail) {closed}
    (hturn : v.turn = .waiting sc au ∧ closed = v.recv.closed ∨
      v.turn = .resending sc au ∧ closed = false) (x : Receiver) :
    t.record v { v with recv := x, turn := .done } =
      t.served v { v with recv := x, turn := .done } au closed := by
  unfold Trail.record
  rw [if_neg (Nat.lt_irrefl _), if_neg (by intro h; exact absurd (h.1.symm.trans h.2) (by simp))]
  rcases hturn with ⟨hturn, rfl⟩ | ⟨hturn, rfl⟩ <;> simp only [hturn]

theorem record_published (t : Trail) {cached} (au : AccessUnit) :
    t.record v { v with turn := turn, cached := cached, accepted := v.accepted ++ [au] } =
      { t with
        listedAt := t.listedAt ++ [v.listed]
        cachedAt := if au.keyframe then some v.accepted.length else t.cachedAt } := by
  simp [Trail.record]

theorem TurnOk.done (hcap : v.listed = true → 0 < v.recv.cap) (hturn : v.turn = .done) :
    TurnOk v where
  last := by simp [hturn]
  held := by simp [hturn]
  room := by simp [hturn]
  cap := fun h => hcap (h.resolve_right (fun hne => hne hturn))

theorem TurnOk.recv (h : TurnOk v)
    (hl : listed = true → v.listed = true) (hq : x.queue.length ≤ v.recv.queue.length)
    (hcap : x.cap = v.recv.cap) : TurnOk { v with recv := x, listed := listed } where
  last := h.last
  held := h.held
  room := by
    intro sc au hturn
    have hroom : v.recv.queue.length < v.recv.cap := h.room sc au hturn
    show x.queue.length < x.cap
    omega
  cap := by
    intro hor
    rw [hcap]
    exact h.cap (hor.imp_left hl)

theorem TurnOk.step (h : TurnOk (s.view r)) {l} (hv : ViewStep s r l v')
    (hsc : s.ps.bc.selfContained = false) : TurnOk v' := by
  cases hv with
  | published au au' _ hdone =>
    rw [hsc]
    by_cases hl : (s.view r).listed = true
    · simp only [if_pos hl]
      refine ⟨?_, by simp, by simp, fun _ => h.cap (.inl hl)⟩
      intro sc x hx
      rcases hx with hx | hx | hx <;> cases hx
      exact ⟨rfl, getLast?_concat⟩
    · simp only [if_neg hl]
      exact .done (fun hl' => absurd hl' hl) rfl
  | tried sc au hturn =>
    obtain ⟨rfl, hlast⟩ := h.last sc au (.inl hturn)
    have hcap := h.cap (.inr (by rw [hturn]; simp))
    have hout := Receiver.fanoutTry_outcome false au (s.view r).recv
    generalize (s.view r).recv.fanoutTry false au = res at hout ⊢
    cases hout with
    | enqueued x _ _ _ _ hcap' _ _ => exact .done (fun _ => by rw [hcap']; exact hcap) rfl
    | full _ _ hk =>
      refine ⟨?_, ?_, by simp, fun _ => hcap⟩
      · intro sc x hx
        rcases hx with hx | hx | hx <;> cases hx
        exact ⟨rfl, hlast⟩
      · intro sc x hx
        rcases hx with hx | hx <;> cases hx
        exact hk.resolve_left (by simp)
    | _ => exact .done (fun _ => hcap) rfl
  | evicted sc au hturn =>
    have hlast := h.last sc au (.inr (.inl hturn))
    have hkey := h.held sc au (.inl hturn)
    have hcap := h.cap (.inr (by rw [hturn]; simp))
    refine ⟨?_, ?_, ?_, fun _ => hcap⟩
    · intro sc x hx
      rcases hx with hx | hx | hx <;> cases hx
      exact hlast
    · intro sc x hx
      rcases hx with hx | hx <;> cases hx
      exact hkey
    · -- one unit is gone, and the channel holds at least one
      intro _ _ _
      have hlen := (s.view r).recv.queue_length_le
      show (s.view r).recv.queue.tail.length < (s.view r).recv.cap
      rw [length_tail]
      omega
  | resent sc au hturn =>
    obtain ⟨-, hcap, -⟩ := Receiver.fanoutResend_outcome sc au (s.view r).recv
    refine .done (fun _ => ?_) rfl
    rw [hcap]
    exact h.cap (.inr (by rw [hturn]; simp))
  | subscribed want _ hdone =>
    obtain ⟨-, hcap, -, -⟩ := s.ps.bc.newReceiver_spec (s.ps.bc.capacityFor_pos want)
    refine .done (fun _ => ?_) hdone
    rw [hcap]
    exact s.ps.bc.capacityFor_pos want
  | unsubscribed => exact h.recv (fun hl => Bool.noConfusion hl) (Nat.le_refl _) rfl
  | closed => exact h.recv id (by simp) (by simp)
  | _ => exact h

theorem TrailOk.tried (h : TrailOk v t) (hok : TurnOk v) (hturn : v.turn = .waiting sc au)
    (hv : v' = { v with
      recv := (v.recv.fanoutTry sc au).1
      turn := if (v.recv.fanoutTry sc au).2 then .evicting sc au else .done }) :
    TrailOk v' (t.record v v') := by
  obtain ⟨rfl, hlast⟩ := hok.last sc au (.inl hturn)
  have hne : v.turn ≠ .done := by rw [hturn]; simp
  have hout := Receiver.fanoutTry_outcome false au v.recv
  generalize v.recv.fanoutTry false au = res at hout hv
  subst hv
  cases hout with
  | skipped hskip =>
    simp only [Bool.false_eq_true, if_false]
    rw [record_served t (.inl ⟨hturn, rfl⟩)]
    -- closed, or gated and not a keyframe
    refine h.served_turn hne hlast (.inr rfl) ?_ ?_ ?_
    · intro hk hc
      rcases hskip with hcl | ⟨-, -, hp⟩
      · rw [hcl] at hc; cases hc
      · rw [hp] at hk; cases hk
    · intro hq
      exact absurd (congrArg length hq) (by simp)
    · intro hc hn
      rcases hskip with hcl | ⟨-, hgated, -⟩
      · exact absurd (hc.symm.trans hcl) (by simp)
      · exact absurd (hn.symm.trans hgated) (by simp)
  | enqueued x hopen _ _ hq _ hgate _ =>
    simp only [Bool.false_eq_true, if_false]
    rw [record_served t (.inl ⟨hturn, rfl⟩)]
    refine h.served_turn hne hlast (.inl hq) (fun _ _ => hq) ?_ (fun _ _ => hq)
    -- a P-frame that passes the gate follows an enqueued unit
    intro _ hp
    rcases hgate rfl with hn | hk
    · exact h.gate hopen hn
    · rw [hp] at hk; cases hk
  | full _ _ _ =>
    rw [record_recv t id (by simp)]
    exact h.recv (by simp [hturn]) (suffix_refl _) id id
  | dropped _ _ _ hp =>
    simp only [Bool.false_eq_true, if_false]
    rw [record_served t (.inl ⟨hturn, rfl⟩)]
    refine h.served_turn hne hlast (.inr rfl) ?_ ?_ ?_
    · intro hk
      rw [hp] at hk; cases hk
    · intro hq
      exact absurd (congrArg length hq) (by simp [Receiver.queue])
    · nofun

theorem TrailOk.resent (h : TrailOk v t) (hok : TurnOk v) (hturn : v.turn = .resending sc au) :
    TrailOk { v with recv := v.recv.fanoutResend sc au, turn := .done }
      (t.record v { v with recv := v.recv.fanoutResend sc au, turn := .done }) := by
  obtain ⟨rfl, hlast⟩ := hok.last sc au (.inr (.inr hturn))
  have hkey := hok.held false au (.inr hturn)
  have hne : v.turn ≠ .done := by rw [hturn]; simp
  obtain ⟨hq, -, -, -⟩ := Receiver.fanoutResend_of_lt false au (hok.room false au hturn)
  rw [record_served t (.inr ⟨hturn, rfl⟩)]
  refine h.served_turn hne hlast (.inl hq) (fun _ _ => hq) ?_ (fun _ _ => hq)
  intro _ hp
  rw [hkey] at hp; cases hp

structure GateInv (r : ReceiverId) (x : Fan × Trail) : Prop where
  ok : x.1.Ok
  video : x.1.ps.bc.selfContained = false
  unborn : x.1.ps.fresh ≤ r → x.2.fanned = []
  turn : TurnOk (x.1.view r)
  trail : TrailOk (x.1.view r) x.2

def recordOf (r : ReceiverId) (s : Fan) (_ : GateLabel) (s' : Fan) (t : Trail) : Trail :=
  t.record (s.view r) (s'.view r)

theorem GateInv.unborn_step (h : GateInv r (s, t)) (hr : s.ps.fresh ≤ r) : (t.record (s.view r) v').fanned = [] := by
  have hturn : (s.view r).turn = .done := by
    by_contra hne
    exact Nat.lt_irrefl _ (Nat.lt_of_lt_of_le (h.ok.turn r hne) hr)
  unfold Trail.record
  rw [hturn]
  split
  · exact h.unborn hr
  · split <;> exact h.unborn hr

theorem GateInv.fan {s'} (h : GateInv r (s, t)) {l} (hstep : s.step l = some s') :
    GateInv r (s', t.record (s.view r) (s'.view r)) := by
  have hv := Fan.step_view h.ok hstep r
  have hview : TrailOk (s'.view r) (t.record (s.view r) (s'.view r)) := by
    have htrail := h.trail
    generalize s'.view r = v' at hv ⊢
    cases hv with
    | published au au' _ hdone =>
      rw [record_published t au']
      exact htrail.published hdone _ au'
    | tried sc au hwait => exact htrail.tried h.turn hwait rfl
    | evicted sc au hev =>
      rw [record_recv t id (by simp)]
      exact htrail.recv (by simp [hev]) (tail_suffix _) id id
    | resent sc au hre => exact htrail.resent h.turn hre
    | subscribed want hfresh hdone =>
      obtain ⟨hq, -, -, hneed⟩ := s.ps.bc.newReceiver_spec (s.ps.bc.capacityFor_pos want)

      have hrecord := htrail.subscribed hdone (h.unborn (Nat.le_of_eq hfresh)) hq
        (by rw [hneed, h.video]; simp [Fan.view])
      unfold Trail.record
      rw [if_neg (Nat.lt_irrefl _), if_pos ⟨Fan.view_unlisted h.ok hfresh, rfl⟩]
      exact hrecord
    | unsubscribed =>
      rw [record_recv t (fun hl => Bool.noConfusion hl) id]
      exact htrail.recv Iff.rfl (suffix_refl _) id id
    | closed =>
      rw [record_recv t id id]
      refine htrail.recv Iff.rfl (by simp) (fun hc => ?_) (by simp)
      exact absurd (hc.symm.trans (Receiver.close_closed _)) (by simp)
    | _ => rw [record_self]; exact htrail
  refine ⟨Fan.ok_step h.ok hstep, (Fan.config_step hstep).1.trans h.video, fun hr => ?_,
    h.turn.step hv h.video, hview⟩
  exact h.unborn_step (Nat.le_trans (Fan.fresh_le (Fan.step_cases hstep)) hr)

theorem GateInv.setRecv {q} (h : GateInv r (s, t)) (hq : x.queue <:+ (s.recvAt q).queue)
    (hcap : x.cap = (s.recvAt q).cap) (hcl : x.closed = (s.recvAt q).closed)
    (hneed : x.needKeyframe = false → (s.recvAt q).needKeyframe = false) :
    GateInv r (s.setRecv q x, t.record (s.view r) ((s.setRecv q x).view r)) := by
  by_cases hrq : r = q
  · subst hrq
    rw [Fan.view_setRecv_self, record_recv t id id]
    refine ⟨Fan.ok_setRecv h.ok r x, h.video, h.unborn, ?_, ?_⟩
    · rw [Fan.view_setRecv_self]
      exact h.turn.recv id hq.length_le hcap
    · rw [Fan.view_setRecv_self]
      exact h.trail.recv Iff.rfl hq (fun hc => hcl ▸ hc) hneed
  · rw [Fan.view_setRecv_of_ne s hrq, record_self]
    refine ⟨Fan.ok_setRecv h.ok q x, h.video, h.unborn, ?_, ?_⟩
    · rw [Fan.view_setRecv_of_ne s hrq]
      exact h.turn
    · rw [Fan.view_setRecv_of_ne s hrq]
      exact h.trail

theorem GateInv.step {x x'} (h : GateInv r x) {l}
    (hstep : withHistory Fan.gateStep (recordOf r) x l = some x') : GateInv r x' := by
  obtain ⟨hnext, hrec⟩ := withHistory_eq_some.mp hstep
  obtain ⟨s', t'⟩ := x'
  obtain rfl : recordOf r x.1 l s' x.2 = t' := hrec
  cases l with
  | fan l => exact h.fan hnext
  | read q =>
    obtain ⟨-, hnext⟩ := ite_none_right_eq_some.mp hnext
    obtain ⟨⟨au, y⟩, hrecv, rfl⟩ := map_eq_some_iff.mp hnext
    obtain ⟨hq, hcap, hcl, hneed⟩ := Receiver.recv_some hrecv
    exact h.setRecv (hq ▸ suffix_cons _ _) hcap hcl (fun hn => hneed ▸ hn)
  | request q =>
    obtain ⟨-, rfl⟩ := of_guard hnext
    exact h.setRecv (suffix_refl _) rfl rfl (by rintro ⟨⟩)

/-! ## Results -/

/-- Any interceptors, channel size and size cap; with the trail of `r`. -/
def gatingSystem (chanSize maxAUBytes : Int) (chain : List Interceptor) (r : ReceiverId) :
    System (Fan × Trail) GateLabel :=
  ofFun
    (Fan.start { newBroadcasterWithBytes chanSize maxAUBytes with interceptors := chain }, Trail.start)
    (withHistory Fan.gateStep (recordOf r))

/-- **Gating for video.** Keyframes are enqueued, P-frames only behind an enqueued unit, and
    all in publish order. -/
theorem receiver_gated (chanSize maxAUBytes : Int) (chain : List Interceptor) (r : ReceiverId) :
    ∀ x, Reachable (gatingSystem chanSize maxAUBytes chain r) x → Gated (x.1.view r) x.2 := by
  intro x hx
  have hinv : GateInv r x := by
    refine invariant_ofFun (GateInv r) ?_ (fun _ _ _ _ h => h.step) x hx
    refine ⟨Fan.ok_start _, rfl, fun _ => rfl, .done (fun hl => ?_) rfl, nofun, rfl, rfl,
      Pairwise.nil, nofun, nofun, nofun, nofun, isChain_nil, nofun, nofun, nil_suffix⟩
    simp [Fan.view, Fan.start, PubSub.new] at hl
  exact hinv.trail.gated

/-- A queue of one: a P-frame is dropped, the next withheld, and a read falls between test
    and eviction for the second keyframe. -/
def fullQueueRun : List GateLabel :=
  [.fan (.publish (.bare true 1)), .fan (.subscribe 0), .fan (.publish (.bare false 2)),
   .fan (.fanout 0), .fan (.publish (.bare false 3)), .fan (.fanout 0),
   .fan (.publish (.bare true 4)), .fan (.fanout 0), .read 0, .fan .evict, .fan .resend, .read 0,
   .fan (.publish (.bare false 5)), .fan (.fanout 0)]

theorem receiver_gated_fullQueue :
    ∃ x, Reachable (gatingSystem 1 0 [] 0) x ∧ x.2.joined = some 0 ∧
      x.2.fanned.map Fanned.enqueued = [false, false, true, true] ∧ x.2.enqueues = [0, 3, 4] ∧
      Gated (x.1.view 0) x.2 :=
  exists_run_imp fullQueueRun (fun x hx (hp : x.2.joined = some 0 ∧
    x.2.fanned.map Fanned.enqueued = [false, false, true, true] ∧ x.2.enqueues = [0, 3, 4]) =>
      ⟨hp.1, hp.2.1, hp.2.2, receiver_gated 1 0 [] 0 x hx⟩) (by decide +kernel)

end QuicRTC

import QuicRTC.Pubsub.Fan
import QuicRTC.Resume.Replay

/-! # Resuming While the Producer Publishes

`OnResume` runs beside the producer: `ReplaySince` is one `b.mu` section, `SpliceFront` (or
`RequestKeyframe`) one `r.mu` section after it, and a `Publish` may be between its two sections all
the while. The receiver is read only once its pump runs, after the resume.
-/

namespace QuicRTC

open List Option

open LTS Function

/-! ## The system -/

inductive ResumePhase where
  /-- Or not resumed yet. -/
  | parked
  /-- `SpliceFront` is next. -/
  | replaying (cursor : UInt32) (replay : List AccessUnit)
  /-- `RequestKeyframe` is next on a video track. -/
  | unavailable (cursor : UInt32)
  /-- The cursor the client sent, if any. -/
  | live (cursor : Option UInt32)
  deriving DecidableEq

/-- `yielded` is history: what was read from each receiver. -/
structure ResumeState where
  fan : Fan
  phase : ReceiverId → ResumePhase
  yielded : ReceiverId → List AccessUnit

inductive ResumeLabel where
  | fan (l : FanLabel)
  /-- Without a resume cursor. -/
  | attach (q : ReceiverId)
  | replaySince (q : ReceiverId) (cursor : UInt32)
  | splice (q : ReceiverId)
  | request (q : ReceiverId)
  | read (q : ReceiverId)

/-- Of the accepted units. -/
def increasing (s : Fan) : FanLabel → Bool
  | .publish au =>
    match s.ps.bc.accept au with
    | none => true
    | some au' => s.accepted.getLast?.all (fun last => last.key < au'.key)
  | _ => true

namespace ResumeState

def start (bc : Broadcaster) : ResumeState where
  fan := Fan.start bc
  phase := fun _ => .parked
  yielded := fun _ => []

def setPhase (s : ResumeState) (q : ReceiverId) (ph : ResumePhase) : ResumeState :=
  { s with phase := update s.phase q ph }

def setRecv (s : ResumeState) (q : ReceiverId) (x : Receiver) : ResumeState :=
  { s with fan := s.fan.setRecv q x }

@[simp] theorem setPhase_phase (s : ResumeState) (q : ReceiverId) (ph : ResumePhase) :
    (s.setPhase q ph).phase q = ph := update_self ..

/-- `ReplaySince(cursor+1)` and what `OnResume` does next. -/
def replaySince (s : ResumeState) (q : ReceiverId) (cursor : UInt32) : ResumeState :=
  match s.fan.ps.bc.replaySince (cursor + 1) with
  | none => s.setPhase q (.unavailable cursor)
  | some replay => s.setPhase q (.replaying cursor replay)

/-- When there is something to replay. -/
def splice (s : ResumeState) (q : ReceiverId) (cursor : UInt32) (replay : List AccessUnit) :
    ResumeState :=
  let x := s.fan.recvAt q
  (s.setRecv q (if 0 < replay.length then x.spliceFront replay else x)).setPhase q
    (.live (some cursor))

def request (s : ResumeState) (q : ReceiverId) (cursor : UInt32) : ResumeState :=
  let x := s.fan.recvAt q
  (s.setRecv q (if s.fan.ps.bc.selfContained then x else x.requestKeyframe)).setPhase q
    (.live (some cursor))

def read (s : ResumeState) (q : ReceiverId) (au : AccessUnit) (x : Receiver) : ResumeState :=
  { s.setRecv q x with yielded := update s.yielded q (s.yielded q ++ [au]) }

/-- `producer` says which publishes the producer makes. -/
def step (producer : Fan → FanLabel → Bool) (s : ResumeState) :
    ResumeLabel → Option ResumeState
  | .fan l =>
    if producer s.fan l then (s.fan.step l).map (fun f => { s with fan := f }) else none
  -- Whoever has no cursor is attached as it is.
  | .attach q =>
    if q < s.fan.ps.fresh ∧ s.phase q = .parked then some (s.setPhase q (.live none)) else none
  | .replaySince q cursor =>
    if q < s.fan.ps.fresh ∧ s.phase q = .parked then some (s.replaySince q cursor) else none
  -- `SpliceFront` takes `r.mu`, and so waits for a section in progress.
  | .splice q =>
    match s.phase q with
    | .replaying cursor replay =>
      if s.fan.locked q then none else some (s.splice q cursor replay)
    | _ => none
  | .request q =>
    match s.phase q with
    | .unavailable cursor => if s.fan.locked q then none else some (s.request q cursor)
    | _ => none
  -- The pump starts once the handshake is over.
  | .read q =>
    match s.phase q with
    | .live _ => (s.fan.recvAt q).recv.map (fun y => s.read q y.1 y.2)
    | _ => none

/-- **Inversion** of a step. -/
inductive Step (producer : Fan → FanLabel → Bool) (s : ResumeState) :
    ResumeLabel → ResumeState → Prop where
  | fan (l : FanLabel) (f : Fan) (hprod : producer s.fan l = true)
      (hf : s.fan.step l = some f) : Step producer s (.fan l) { s with fan := f }
  | attach (q : ReceiverId) (hq : q < s.fan.ps.fresh) (hph : s.phase q = .parked) :
      Step producer s (.attach q) (s.setPhase q (.live none))
  | gone (q : ReceiverId) (cursor : UInt32) (hq : q < s.fan.ps.fresh)
      (hph : s.phase q = .parked)
      (hr : s.fan.ps.bc.replaySince (cursor + 1) = none) :
      Step producer s (.replaySince q cursor) (s.setPhase q (.unavailable cursor))
  | found (q : ReceiverId) (cursor : UInt32) (replay : List AccessUnit)
      (hq : q < s.fan.ps.fresh) (hph : s.phase q = .parked)
      (hr : s.fan.ps.bc.replaySince (cursor + 1) = some replay) :
      Step producer s (.replaySince q cursor) (s.setPhase q (.replaying cursor replay))
  | splice (q : ReceiverId) (cursor : UInt32) (replay : List AccessUnit)
      (hph : s.phase q = .replaying cursor replay) (hlock : s.fan.locked q = false) :
      Step producer s (.splice q) (s.splice q cursor replay)
  | request (q : ReceiverId) (cursor : UInt32) (hph : s.phase q = .unavailable cursor)
      (hlock : s.fan.locked q = false) : Step producer s (.request q) (s.request q cursor)
  | read (q : ReceiverId) (cursor : Option UInt32) (au : AccessUnit) (x : Receiver)
      (hph : s.phase q = .live cursor) (hrecv : (s.fan.recvAt q).recv = some (au, x)) :
      Step producer s (.read q) (s.read q au x)

theorem step_cases {producer : Fan → FanLabel → Bool} {s : ResumeState} {s' l} :
    s.step producer l = some s' → Step producer s l s' := by
  fun_cases s.step producer l <;> intro h <;> try cases h
  · next hp =>
    obtain ⟨f, hf, rfl⟩ := map_eq_some_iff.mp h
    exact .fan _ f hp hf
  · next hg => exact .attach _ hg.1 hg.2
  · next hg =>
    unfold replaySince
    split
    · next hr => exact .gone _ _ hg.1 hg.2 hr
    · next replay hr => exact .found _ _ replay hg.1 hg.2 hr
  · next hph hl => exact .splice _ _ _ hph (by simpa using hl)
  · next hph hl => exact .request _ _ hph (by simpa using hl)
  · next hph =>
    obtain ⟨⟨au, x⟩, hx, rfl⟩ := map_eq_some_iff.mp h
    exact .read _ _ au x hph hx

end ResumeState

/-! ## What is on record and what is on its way -/

/-- Still to be brought to the receiver. -/
def Turn.unit : Turn → Option AccessUnit
  | .done => none
  | .waiting _ au => some au
  | .evicting _ au => some au
  | .resending _ au => some au

variable {au : AccessUnit} {l : FanLabel} {seen : List AccessUnit} {x : Receiver} {r : ReceiverId}
  {s : ResumeState} {v : View}

theorem ascending_snoc {l} (h : SeqAscending l) (hlt : ∀ x ∈ l, x.key < au.key) :
    SeqAscending (l ++ [au]) := Slots.pairwise_snoc h hlt

theorem key_lt_last {l} (h : SeqAscending l) {last} (hlast : l.getLast? = some last) {x}
    (hx : x ∈ l) (hne : x ≠ last) : x.key < last.key := by
  obtain ⟨d, rfl⟩ := getLast?_eq_some_iff.mp hlast
  have hx := (Slots.mem_snoc hx).resolve_right hne
  exact (pairwise_append.mp h).2.2 x hx last (mem_singleton_self _)

theorem increasing_lt {s : Fan} (h : SeqAscending s.accepted) {au'}
    (hprod : increasing s (.publish au) = true) (hacc : s.ps.bc.accept au = some au') :
    ∀ x ∈ s.accepted, x.key < au'.key := by
  intro x hx
  obtain ⟨last, hlast⟩ : ∃ last, s.accepted.getLast? = some last :=
    isSome_iff_exists.mp (by simpa using ne_nil_of_mem hx)
  simp only [increasing, hacc, hlast, all_some, decide_eq_true_eq] at hprod
  -- The producer only compares with the last unit.
  by_cases hne : x = last
  · rw [hne]; exact hprod
  · exact Nat.lt_trans (key_lt_last h hlast hx hne) hprod

/-- What was read (`seen`) and what is queued ascends, was accepted, and is below the unit
    on its way. -/
structure Ordered (v : View) (seen : List AccessUnit) : Prop where
  accepted : SeqAscending v.accepted
  order : SeqAscending (seen ++ v.recv.queue)
  sub : ∀ x ∈ seen ++ v.recv.queue, x ∈ v.accepted
  due : ∀ au ∈ v.turn.unit,
    v.accepted.getLast? = some au ∧ ∀ x ∈ seen ++ v.recv.queue, x.key < au.key
  room : v.recv.closed = false → 0 < v.recv.cap

theorem Ordered.shrink (h : Ordered v seen)
    {t : Turn} (hq : List.Sublist x.queue v.recv.queue) (hcap : x.cap = v.recv.cap)
    (hcl : x.closed = false → v.recv.closed = false) (ht : ∀ au ∈ t.unit, au ∈ v.turn.unit) :
    Ordered { v with recv := x, turn := t } seen := by
  have hsub : Sublist (seen ++ x.queue) (seen ++ v.recv.queue) :=
    (Sublist.refl _).append hq
  refine ⟨h.accepted, h.order.sublist hsub, fun y hy => h.sub y (hsub.subset hy), ?_,
    fun hc => hcap ▸ h.room (hcl hc)⟩
  intro au hau
  obtain ⟨h1, h2⟩ := h.due au (ht au hau)
  exact ⟨h1, fun y hy => h2 y (hsub.subset hy)⟩

theorem Ordered.arrive (h : Ordered v seen) (hau : au ∈ v.turn.unit) (hq : x.queue = v.recv.queue ++ [au])
    (hcap : x.cap = v.recv.cap) (hcl : x.closed = false → v.recv.closed = false) :
    Ordered { v with recv := x, turn := .done } seen := by
  obtain ⟨hlast, hlt⟩ := h.due au hau
  have happ : seen ++ x.queue = seen ++ v.recv.queue ++ [au] := by
    rw [hq, append_assoc]
  refine ⟨h.accepted, ?_, ?_, by simp [Turn.unit], fun hc => hcap ▸ h.room (hcl hc)⟩
  · simp only [happ]
    exact ascending_snoc h.order hlt
  · simp only [happ]
    exact Slots.forall_mem_snoc h.sub (mem_of_getLast? hlast)

theorem Ordered.step {s : Fan} (h : Ordered (s.view r) seen) {v'} (hv : ViewStep s r l v')
    (hprod : increasing s l = true) (hrec : s.ps.bc.Records s.accepted)
    (hunborn : s.ps.fresh = r → seen = []) : Ordered v' seen := by
  cases hv with
  | published au au' hacc hturn =>
    -- The new unit is on its way to `r` and above what `r` has.
    have hlt := increasing_lt h.accepted hprod hacc
    refine ⟨ascending_snoc h.accepted hlt, h.order,
      fun y hy => mem_append_left _ (h.sub y hy), ?_, h.room⟩
    intro x hx
    split at hx
    · cases hx
      exact ⟨getLast?_concat, fun y hy => hlt y (h.sub y hy)⟩
    · cases hx
  | tried sc au hturn =>
    have hau : au ∈ (s.view r).turn.unit := by rw [hturn]; rfl
    have hout := Receiver.fanoutTry_outcome sc au (s.view r).recv
    generalize (s.view r).recv.fanoutTry sc au = res at hout ⊢
    cases hout with
    | skipped _ =>
      exact h.shrink (Sublist.refl _) rfl id (by simp [Turn.unit])
    | enqueued x hopen _ _ hq hcap _ _ => exact h.arrive hau hq hcap (fun _ => hopen)
    | full _ _ _ =>
      refine h.shrink (Sublist.refl _) rfl id (fun y hy => ?_)
      cases hy
      exact hau
    | dropped _ _ _ _ => exact h.shrink (Sublist.refl _) rfl id (by simp [Turn.unit])
  | evicted sc au hturn =>
    refine h.shrink (tail_sublist _) rfl id (fun y hy => ?_)
    rw [hturn]
    exact hy
  | resent sc au hturn =>
    have hau : au ∈ (s.view r).turn.unit := by rw [hturn]; rfl
    -- It arrives, or the consumer left no room for it.
    obtain ⟨hq | ⟨hq, -⟩, hcap, hcl⟩ := Receiver.fanoutResend_outcome sc au (s.view r).recv
    · exact h.arrive hau hq hcap (fun hc => hcl ▸ hc)
    · refine h.shrink (by rw [hq]) hcap (fun hc => hcl ▸ hc) (by simp [Turn.unit])
  | subscribed want hfresh hturn =>
    -- Nothing was read yet, and the cached keyframe was accepted.
    obtain ⟨hq, hcap, -, -⟩ := s.ps.bc.newReceiver_spec (s.ps.bc.capacityFor_pos want)
    have hpos := s.ps.bc.capacityFor_pos want
    refine ⟨h.accepted, ?_, ?_, ?_, fun _ => Nat.lt_of_lt_of_eq hpos hcap.symm⟩
    · simp only [hunborn hfresh, hq]
      cases s.ps.bc.latestKeyframe <;> simp [SeqAscending]
    · intro y hy
      simp only [hunborn hfresh, hq, nil_append] at hy
      exact (hrec.cached_mem (by simpa using hy)).1
    · intro au hau
      rw [hturn] at hau
      cases hau
  | unsubscribed => exact { h with }
  | closed =>
    refine h.shrink (by simp) ?_ (by simp) (fun _ hau => hau)
    unfold Receiver.close
    split <;> rfl
  | _ => exact h

/-! ## The invariant of a resumed receiver -/

/-- `SpliceFront` on `r` replays no unit whose section on `r` is still to come. -/
def undelivered (r : ReceiverId) (s : ResumeState) : ResumeLabel → Bool
  | .splice q =>
    match s.phase q, turnOf s.fan.flight q with
    | .replaying _ replay, .waiting _ au => q ≠ r ∨ au ∉ replay
    | _, _ => true
  | _ => true

structure OnceInv (r : ReceiverId) (s : ResumeState) : Prop where
  ok : s.fan.Ok
  records : s.fan.ps.bc.Records s.fan.accepted
  ordered : Ordered (s.fan.view r) (s.yielded r)
  unread : (∀ c, s.phase r ≠ .live c) → s.yielded r = []
  unborn : s.fan.ps.fresh ≤ r → s.phase r = .parked
  replay : ∀ c replay, s.phase r = .replaying c replay → replay ⊆ s.fan.accepted

theorem onceInv_start {bc} (hrec : (PubSub.new bc).bc.Records []) (r : ReceiverId) :
    OnceInv r (ResumeState.start bc) where
  ok := Fan.ok_start bc
  records := hrec
  ordered :=
    { accepted := Pairwise.nil
      order := Pairwise.nil
      sub := nofun
      due := nofun
      room := nofun }
  unread := fun _ => rfl
  unborn := fun _ => rfl
  replay := nofun

theorem accepted_subset {s f : Fan} (h : s.step l = some f) : s.accepted ⊆ f.accepted := by
  have hist := Fan.history_step h
  generalize f.published = pub, f.accepted = acc at hist ⊢
  cases hist with
  | accepted au au' _ => exact subset_append_left _ _
  | _ => exact Subset.refl _

theorem OnceInv.fan_step (h : OnceInv r s) {f} (hprod : increasing s.fan l = true)
    (hf : s.fan.step l = some f) :
    OnceInv r { s with fan := f } where
  ok := Fan.ok_step h.ok hf
  records := (Fan.records_step h.records hf).1
  ordered := by
    -- A receiver that does not exist yet has nothing to show.
    refine h.ordered.step (Fan.step_view h.ok hf r) hprod h.records (fun hfresh => ?_)
    exact h.unread (fun c => by rw [h.unborn (Nat.le_of_eq hfresh)]; simp)
  unread := h.unread
  unborn := fun hr => h.unborn (Nat.le_trans (Fan.fresh_le (Fan.step_cases hf)) hr)
  replay := fun c l hph => Subset.trans (h.replay c l hph) (accepted_subset hf)

theorem turn_of_unlocked {s : Fan} (h : s.locked r = false)
    (hau : au ∈ (turnOf s.flight r).unit) : ∃ sc, turnOf s.flight r = .waiting sc au := by
  unfold Fan.locked at h
  rcases hf : s.flight with _ | f
  · rw [hf] at hau; cases hau
  · rw [hf, any_some] at h
    rw [hf] at hau
    rw [Fan.turnOf_some] at hau ⊢
    -- Evicting and resending hold the lock; only waiting is left.
    unfold Flight.turn at hau ⊢
    split at hau
    · next hc => simp [hc] at h
    · next hc =>
      split at hau
      · next hc' => simp [hc'] at h
      · next hc' =>
        rw [if_neg hc, if_neg hc']
        split at hau
        · next hp => cases hau; exact ⟨_, if_pos hp⟩
        · cases hau

theorem Ordered.splice (h : Ordered v []) {replay} (hsub : replay ⊆ v.accepted)
    (hdue : ∀ au ∈ v.turn.unit, au ∉ replay) :
    Ordered { v with
      recv := if 0 < replay.length then v.recv.spliceFront replay else v.recv } [] := by
  by_cases hne : replay = []
  · simpa [hne] using h
  rw [if_pos (length_pos_iff.mpr hne)]
  cases hcl : v.recv.closed with
  | true =>
    have : v.recv.spliceFront replay = v.recv := by simp [Receiver.spliceFront, hcl]
    rw [this]; exact h
  | false =>
    obtain ⟨hq, hcap, hcl', -⟩ := Receiver.spliceFront_spec hne hcl (h.room hcl)
    -- Units with one key are the same unit, so the merge loses none.
    have hinj : ∀ x ∈ replay ++ v.recv.queue, ∀ y ∈ replay ++ v.recv.queue,
        x.key = y.key → x = y := by
      have hall : ∀ x ∈ replay ++ v.recv.queue, x ∈ v.accepted := fun x hx =>
        (mem_append.mp hx).elim (fun hx => hsub hx) (h.sub x)
      exact fun x hx y hy => Keyed.eq_of_key_eq h.accepted x (hall x hx) y (hall y hy)
    have hmem : ∀ x ∈ (v.recv.spliceFront replay).queue, x ∈ replay ∨ x ∈ v.recv.queue := by
      intro x hx
      rw [hq] at hx
      exact (Keyed.mem_mergeByKey _ hinj).mp (mem_of_mem_drop hx)
    refine ⟨h.accepted, ?_, ?_, ?_, fun _ => Nat.lt_of_lt_of_eq (h.room hcl) hcap.symm⟩
    · rw [hq]
      exact (Keyed.mergeByKey_pairwise _ _ _).sublist (drop_sublist _ _)
    · exact fun x hx => (hmem x hx).elim (fun hx => hsub hx) (h.sub x)
    · intro au hau
      obtain ⟨hlast, hlt⟩ := h.due au hau
      refine ⟨hlast, fun x hx => ?_⟩
      rcases hmem x hx with hx | hx
      · -- This is where the condition counts: a replayed unit that is on its
        -- way would not be below itself.
        refine key_lt_last h.accepted hlast (hsub hx) ?_
        rintro rfl
        exact hdue x hau hx
      · exact hlt x hx

theorem OnceInv.frame {q} {s' : ResumeState} (h : OnceInv r s) (hne : r ≠ q)
    (hfan : s'.fan = s.fan.setRecv q x) (hph : s'.phase r = s.phase r)
    (hy : s'.yielded r = s.yielded r) : OnceInv r s' where
  -- The view of `r` does not contain another receiver.
  ok := hfan ▸ Fan.ok_setRecv h.ok q x
  records := hfan ▸ h.records
  ordered := by
    rw [hfan, hy, Fan.view_setRecv_of_ne s.fan hne]
    exact h.ordered
  unread := by rw [hph, hy]; exact h.unread
  unborn := by rw [hfan, hph]; exact h.unborn
  replay := by rw [hfan, hph]; exact h.replay

theorem OnceInv.enter (h : OnceInv r s) (hr : r < s.fan.ps.fresh) (hph : s.phase r = .parked) {ph}
    (hrep : ∀ c replay, ph = .replaying c replay → replay ⊆ s.fan.accepted) :
    OnceInv r (s.setPhase r ph) where
  ok := h.ok
  records := h.records
  ordered := h.ordered
  unread := fun _ => h.unread (by rw [hph]; simp)
  unborn := fun hle => absurd hr (Nat.not_lt.mpr hle)
  replay := fun c replay hx => hrep c replay (by simpa using hx)

theorem OnceInv.goLive (h : OnceInv r s) (hph : s.phase r ≠ .parked) {cursor}
    (hx : Ordered { s.fan.view r with recv := x } (s.yielded r)) :
    OnceInv r ((s.setRecv r x).setPhase r (.live cursor)) where
  ok := Fan.ok_setRecv h.ok r x
  records := h.records
  ordered := by
    show Ordered ((s.fan.setRecv r x).view r) (s.yielded r)
    rw [Fan.view_setRecv_self]
    exact hx
  unread := fun hl => absurd (ResumeState.setPhase_phase ..) (hl cursor)
  unborn := fun hle => absurd (h.unborn hle) hph
  replay := fun c replay hx => by simp at hx

theorem OnceInv.splice (h : OnceInv r s) {cursor replay}
    (hph : s.phase r = .replaying cursor replay) (hlock : s.fan.locked r = false)
    (hok : undelivered r s (.splice r) = true) : OnceInv r (s.splice r cursor replay) := by
  have hseen : s.yielded r = [] := h.unread (by rw [hph]; simp)
  have hord := h.ordered
  rw [hseen] at hord
  refine h.goLive (by rw [hph]; simp) ?_
  rw [hseen]
  refine hord.splice (h.replay cursor replay hph) (fun au hau => ?_)
  obtain ⟨sc, hturn⟩ := turn_of_unlocked hlock hau
  simpa [undelivered, hph, hturn] using hok

theorem OnceInv.read (h : OnceInv r s) {cursor} (hph : s.phase r = .live cursor)
    (hrecv : (s.fan.recvAt r).recv = some (au, x)) : OnceInv r (s.read r au x) := by
  obtain ⟨hq, hcap, hcl, -⟩ := Receiver.recv_some hrecv
  have hy : (s.read r au x).yielded r = s.yielded r ++ [au] := update_self ..
  have happ : s.yielded r ++ [au] ++ x.queue = s.yielded r ++ (s.fan.view r).recv.queue := by
    rw [append_assoc, singleton_append, ← hq]; rfl
  refine ⟨Fan.ok_setRecv h.ok r x, h.records, ?_, ?_, h.unborn, h.replay⟩
  · show Ordered ((s.fan.setRecv r x).view r) _
    rw [hy, Fan.view_setRecv_self]
    have ho := h.ordered
    exact ⟨ho.accepted, by simpa only [happ] using ho.order, by simpa only [happ] using ho.sub,
      by simpa only [happ] using ho.due,
      fun hc => Nat.lt_of_lt_of_eq (ho.room (hcl.symm.trans hc)) hcap.symm⟩
  · exact fun hl => absurd hph (hl cursor)

theorem OnceInv.step {s'} (h : OnceInv r s) {l} (hok : undelivered r s l = true)
    (hstep : s.step increasing l = some s') : OnceInv r s' := by
  -- Steps that change no receiver are written as one that does.
  have hself : ∀ q, s.fan = s.fan.setRecv q (s.fan.recvAt q) := by
    intro q
    simp [Fan.setRecv, Fan.recvAt]
  cases ResumeState.step_cases hstep with
  | fan l f hprod hf => exact h.fan_step hprod hf
  | attach q hq hph | gone q cursor hq hph _ =>
    by_cases hrq : r = q
    · subst hrq; exact h.enter hq hph (by simp)
    · exact h.frame hrq (hself q) (update_of_ne hrq _ _) rfl
  | found q cursor replay hq hph hr =>
    by_cases hrq : r = q
    · subst hrq
      refine h.enter hq hph (fun c l hl => ?_)
      cases hl
      exact h.records.replaySince_subset hr
    · exact h.frame hrq (hself q) (update_of_ne hrq _ _) rfl
  | splice q cursor replay hph hlock =>
    by_cases hrq : r = q
    · subst hrq; exact h.splice hph hlock hok
    · exact h.frame hrq rfl (update_of_ne hrq _ _) rfl
  | request q cursor hph _ =>
    by_cases hrq : r = q
    · subst hrq
      refine h.goLive (by rw [hph]; simp) ?_
      split
      · exact h.ordered
      · exact h.ordered.shrink (Sublist.refl _) rfl id (fun _ hau => hau)
    · exact h.frame hrq rfl (update_of_ne hrq _ _) rfl
  | read q cursor au x hph hrecv =>
    by_cases hrq : r = q
    · subst hrq; exact h.read hph hrecv
    · exact h.frame hrq rfl rfl (update_of_ne hrq _ _)

/-! ## Results -/

/-- One track with any interceptors, and a producer of increasing numbers. -/
def resumeSystem (chanSize maxAUBytes replayMaxBytes : Int) (selfContained : Bool)
    (chain : List Interceptor) (producer : Fan → FanLabel → Bool) :
    System ResumeState ResumeLabel :=
  ofFun (ResumeState.start
    { ((newBroadcasterWithBytes chanSize maxAUBytes).setSelfContained
        selfContained).setReplayMaxBytes replayMaxBytes with interceptors := chain })
    (ResumeState.step producer)

/-- **At most once**, if `SpliceFront` on `r` never replays a unit that is still on its way
    to `r`. -/
theorem resumed_at_most_once (chanSize maxAUBytes replayMaxBytes : Int) (selfContained : Bool)
    (chain : List Interceptor) (r : ReceiverId) :
    ∀ s, Reachable ((resumeSystem chanSize maxAUBytes replayMaxBytes selfContained chain
        increasing).restrict (fun s l => undelivered r s l = true)) s →
      ((s.yielded r).map AccessUnit.seq).Nodup := by
  intro s hs
  have hinv : OnceInv r s := by
    have h := Broadcaster.records_nil chanSize maxAUBytes replayMaxBytes selfContained
    refine invariant_restrict (OnceInv r) (onceInv_start ?_ r) (fun _ _ _ _ h => h.step) s hs
    exact { h with }
  have hasc : SeqAscending (s.yielded r) :=
    hinv.ordered.order.sublist (sublist_append_left _ _)
  refine pairwise_map.mpr (hasc.imp ?_)
  intro a b hlt heq
  exact absurd (congrArg UInt32.toNat heq) (Nat.ne_of_lt hlt)

theorem resumed_at_most_once_after_fanout :
    ∃ s, Reachable ((resumeSystem 30 0 0 false [] increasing).restrict
        (fun s l => undelivered 0 s l = true)) s ∧
      s.yielded 0 = [.bare true 1, .bare false 2] ∧
      ((s.yielded 0).map AccessUnit.seq).Nodup :=
  exists_run_given_imp [.fan (.publish (.bare true 1)), .fan (.subscribe parkedChanCap),
    .fan (.publish (.bare false 2)), .fan (.fanout 0), .replaySince 0 1, .splice 0, .read 0, .read 0]
    (fun s hs (hp : s.yielded 0 = [.bare true 1, .bare false 2]) =>
      ⟨hp, resumed_at_most_once 30 0 0 false [] 0 s hs⟩) (by decide)

/-- The resume falls between the two sections of a publish: the unit is read twice. -/
theorem resume_races_fanout :
    ∃ s, Reachable (resumeSystem 30 0 0 false [] increasing) s ∧
      s.yielded 0 = [.bare true 1, .bare true 1] ∧
      ¬ ((s.yielded 0).map AccessUnit.seq).Nodup := by
  exact exists_run [.fan (.subscribe parkedChanCap), .fan (.publish (.bare true 1)), .replaySince 0 0,
     .splice 0, .fan (.fanout 0), .read 0, .read 0] (by decide)

end QuicRTC

import QuicRTC.Feed.Decodability
import QuicRTC.Resume.AtMostOnce

/-! # Where a Resumed Video Stream Continues

A resumed video track whose client sent a cursor is served by a per-GOP pump that may start on a
P-frame (`AllowLeadingPFrames`); the permission comes from the HELLO alone.
-/

namespace QuicRTC

open LTS Function List Option

/-! ## The system -/

structure ContState where
  base : ResumeState
  pumps : ReceiverId → GopPump

inductive ContLabel where
  | base (l : ResumeLabel)
  | dequeue (q : ReceiverId)
  | pump (q : ReceiverId) (ev : PumpEvent)
  | request (q : ReceiverId)

def ResumePhase.cursor : ResumePhase → Option UInt32
  | .parked => none
  | .replaying c _ => some c
  | .unavailable c => some c
  | .live c => c

def ResumePhase.isLive : ResumePhase → Bool
  | .live _ => true
  | _ => false

namespace ContState

def start (bc : Broadcaster) : ContState where
  base := ResumeState.start bc
  pumps := fun _ => GopPump.start false

def setPump (s : ContState) (q : ReceiverId) (p : GopPump) : ContState :=
  { s with pumps := update s.pumps q p }

/-- `AllowLeadingPFrames`: the client sent a cursor. -/
def startPump (s : ContState) (q : ReceiverId) : ContState :=
  s.setPump q (GopPump.start (s.base.phase q).cursor.isSome)

def dequeue (s : ContState) (q : ReceiverId) (au : AccessUnit) (x : Receiver) : ContState :=
  { s with base := s.base.read q au x }.setPump q ((s.pumps q).dequeue au)

def request (s : ContState) (q : ReceiverId) : ContState :=
  { s with base := s.base.setRecv q (s.base.fan.recvAt q).requestKeyframe }.setPump q
    { s.pumps q with pc := .waiting }

def starts : ResumeLabel → Option ReceiverId
  | .attach q => some q
  | .splice q => some q
  | .request q => some q
  | _ => none

def step (s : ContState) : ContLabel → Option ContState
  | .base (.read _) => none
  | .base l =>
    (s.base.step consecutive l).map (fun b =>
      match starts l with
      | some q => ContState.startPump { s with base := b } q
      | none => { s with base := b })
  | .dequeue q =>
    if (s.base.phase q).isLive ∧ (s.pumps q).pc = .waiting then
      (s.base.fan.recvAt q).recv.map (fun y => s.dequeue q y.1 y.2)
    else none
  | .pump q ev =>
    if (s.base.phase q).isLive then ((s.pumps q).advance true ev).map (s.setPump q) else none
  | .request q =>
    if (s.base.phase q).isLive ∧ (s.pumps q).pc = .requesting ∧ s.base.fan.locked q = false then
      some (s.request q)
    else none

end ContState

/-! ## The head of a queue nobody has read -/

/-- The queue starts with a good unit; while it is empty, only keyframes get in. -/
structure Head (good : AccessUnit → Prop) (v : View) : Prop where
  head : ∀ x ∈ v.recv.queue.head?, good x
  gate : v.recv.queue = [] → v.recv.closed = false →
    v.recv.needKeyframe = true ∨ ∃ sc au, v.turn = .resending sc au
  video : ∀ sc au, v.turn = .waiting sc au → sc = false
  held : ∀ sc au, v.turn = .evicting sc au ∨ v.turn = .resending sc au →
    sc = false ∧ au.keyframe = true

variable {au : AccessUnit} {s : ContState} {x : Receiver} {r : ReceiverId} {v : View}

theorem Head.mono {good good' : AccessUnit → Prop} (himp : ∀ x, good x → good' x)
    (h : Head good v) : Head good' v :=
  { h with head := fun x hx => himp x (h.head x hx) }

theorem Head.arrive {good : AccessUnit → Prop} (h : Head good v) (hq : x.queue = v.recv.queue ++ [au])
    (hau : v.recv.queue = [] → good au) : Head good { v with recv := x, turn := .done } where
  head := by
    intro y hy
    simp only [hq] at hy
    by_cases hnil : v.recv.queue = []
    · rw [hnil] at hy
      cases hy
      exact hau hnil
    · rw [head?_append_of_ne_nil _ hnil] at hy
      exact h.head y hy
  gate := by
    intro hnil
    simp [hq] at hnil
  video := by simp
  held := by simp

theorem Head.step {good : AccessUnit → Prop} (hgood : ∀ x, x.keyframe = true → good x) {s : Fan}
    (h : Head good (s.view r)) {l v'} (hv : ViewStep s r l v') (hsc : s.ps.bc.selfContained = false)
    (hrec : s.ps.bc.Records s.accepted)
    (hevict : l = .evict → ∀ sc au, turnOf s.flight r = .evicting sc au →
      ∀ y ∈ (s.ps.heap r).queue.tail.head?, good y) : Head good v' := by
  -- outside the third `select` an empty queue is gated
  have hneed : (∀ sc au, (s.view r).turn ≠ .resending sc au) → (s.view r).recv.queue = [] →
      (s.view r).recv.closed = false → (s.view r).recv.needKeyframe = true := by
    intro ht hnil hc
    exact (h.gate hnil hc).resolve_right (fun ⟨sc, au, hx⟩ => ht sc au hx)
  cases hv with
  | published au au' hacc hturn =>
    refine ⟨h.head, fun hnil hc => .inl (hneed (by simp [hturn]) hnil hc), ?_, ?_⟩
    · intro sc x ht
      split at ht
      · rw [← (Turn.waiting.inj ht).1]; exact hsc
      · cases ht
    · intro sc x ht
      split at ht <;> rcases ht with ht | ht <;> cases ht
  | tried sc au hturn =>
    obtain rfl := h.video sc au hturn
    have hneed' := hneed (by simp [hturn])
    have hout := Receiver.fanoutTry_outcome false au (s.view r).recv
    generalize (s.view r).recv.fanoutTry false au = res at hout ⊢
    cases hout with
    | skipped _ => exact ⟨h.head, fun hnil hc => .inl (hneed' hnil hc), by simp, by simp⟩
    | enqueued x hopen _ _ hq _ hgate _ =>
      refine h.arrive hq (fun hnil => ?_)
      have hn := hneed' hnil hopen
      exact hgood au ((hgate rfl).resolve_left (by simp [hn]))
    | full _ _ hk =>
      refine ⟨h.head, fun hnil hc => .inl (hneed' hnil hc), by simp, ?_⟩
      intro sc x ht
      rcases ht with ht | ht <;> cases ht
      exact ⟨rfl, hk.resolve_left (by simp)⟩
    | dropped _ _ _ _ => exact ⟨h.head, fun _ _ => .inl rfl, by simp, by simp⟩
  | evicted sc au hturn =>
    obtain ⟨rfl, hk⟩ := h.held sc au (.inl hturn)
    refine ⟨hevict rfl _ au hturn, fun _ _ => .inr ⟨false, au, rfl⟩, by simp, ?_⟩
    intro sc x ht
    rcases ht with ht | ht <;> cases ht
    exact ⟨rfl, hk⟩
  | resent sc au hturn =>
    obtain ⟨rfl, hk⟩ := h.held sc au (.inr hturn)
    obtain ⟨hq | ⟨hq, hn⟩, -, hcl⟩ := Receiver.fanoutResend_outcome false au (s.view r).recv
    · exact h.arrive hq (fun _ => hgood au hk)
    · refine ⟨?_, fun _ _ => .inl (hn rfl), by simp, by simp⟩
      simpa only [hq] using h.head
  | subscribed want hfresh hturn =>
    obtain ⟨hq, -, -, hn⟩ := s.ps.bc.newReceiver_spec (s.ps.bc.capacityFor_pos want)
    refine ⟨?_, ?_, by simp [hturn], by simp [hturn]⟩
    · intro x hx
      simp only [hq] at hx
      have hx : s.ps.bc.latestKeyframe = some x := by
        cases hk : s.ps.bc.latestKeyframe with
        | none => rw [hk] at hx; cases hx
        | some k => rw [hk] at hx; simpa using hx
      exact hgood x (hrec.cached_mem hx).2
    · intro hnil _
      simp only [hq, toList_eq_nil_iff] at hnil
      exact .inl (by simp [hn, hnil, hsc])
  | unsubscribed => exact { h with }
  | closed =>
    refine ⟨by simpa using h.head, fun _ hc => ?_, h.video, h.held⟩
    rw [Receiver.close_closed] at hc
    cases hc
  | _ => exact h

/-! ## Consecutive histories and the splice -/

/-- Without wraparound. -/
def KeysConsecutive (l : List AccessUnit) : Prop := l.IsChain (fun x y => y.key = x.key + 1)

theorem KeysConsecutive.ascending {l} (h : KeysConsecutive l) : SeqAscending l := by
  have hlt : l.IsChain (fun x y => x.key < y.key) := h.imp (fun x y hxy => by omega)
  have : IsTrans AccessUnit (fun x y => x.key < y.key) := ⟨fun _ _ _ => Nat.lt_trans⟩
  exact isChain_iff_pairwise.mp hlt

theorem KeysConsecutive.exists_key {l} (h : KeysConsecutive l) {n} :
    ∀ {a : AccessUnit}, l.head? = some a → a.key ≤ n → (∃ y ∈ l, n ≤ y.key) →
      ∃ x ∈ l, x.key = n := by
  induction l with
  | nil => intro a ha; cases ha
  | cons b l ih =>
    intro a ha hle hy
    obtain rfl : b = a := by simpa using ha
    rcases Nat.eq_or_lt_of_le hle with heq | hlt
    · exact ⟨b, mem_cons_self, heq⟩
    · obtain ⟨y, hy, hny⟩ := hy
      rcases mem_cons.mp hy with rfl | hy
      · omega
      · obtain ⟨c, l', rfl⟩ := exists_cons_of_ne_nil (ne_nil_of_mem hy)
        have hbc := (isChain_cons_cons.mp h)
        obtain ⟨x, hx, hxn⟩ := ih hbc.2 (a := c) rfl (by omega) ⟨y, hy, hny⟩
        exact ⟨x, mem_cons_of_mem _ hx, hxn⟩

/-- `ReplaySince` answers nothing, or a list that reaches down to `fromSeq`. -/
structure Reaches (fromSeq : UInt32) (hist replay : List AccessUnit) : Prop where
  sub : replay ⊆ hist
  least : replay ≠ [] → ∃ y ∈ replay, y.seq = fromSeq
  above : ∀ y ∈ replay, fromSeq.toNat ≤ y.key

theorem reaches_of_replaySince {b : Broadcaster} {hist} (hrec : b.Records hist)
    (hcons : KeysConsecutive hist) {fromSeq replay} (hr : b.replaySince fromSeq = some replay) :
    Reaches fromSeq hist replay := by
  have hsub := hrec.replaySince_subset hr
  by_cases hne : hist = []
  · have : replay = [] := eq_nil_of_subset_nil (hne ▸ hsub)
    exact ⟨hsub, fun h => absurd this h, by simp [this]⟩
  obtain ⟨hrep, -, au, rest, hsnap, hle⟩ := hrec.replaySince_some hcons.ascending hne hr
  have habove : ∀ y ∈ replay, fromSeq.toNat ≤ y.key := by
    intro y hy
    rw [hrep, mem_filter, decide_eq_true_eq, UInt32.le_iff_toNat_le] at hy
    exact hy.2
  refine ⟨hsub, fun hr0 => ?_, habove⟩
  obtain ⟨y, hy⟩ := exists_mem_of_ne_nil _ hr0
  -- the ring starts at or below `fromSeq` and holds everything above
  obtain ⟨d, hd⟩ := hrec.window
  rw [hsnap] at hd
  have hwin : KeysConsecutive (au :: rest) := hcons.suffix ⟨d, hd⟩
  have hyw : y ∈ au :: rest := by
    have hasc := hcons.ascending
    refine Keyed.mem_suffix_of_le hasc ⟨d, hd⟩ (hsub hy) ?_
    exact Nat.le_trans hle (habove y hy)
  obtain ⟨x, hx, hxn⟩ := hwin.exists_key rfl (UInt32.le_iff_toNat_le.mp hle)
    ⟨y, hyw, habove y hy⟩
  have hseq : x.seq = fromSeq := UInt32.toNat_inj.mp hxn
  refine ⟨x, ?_, hseq⟩
  rw [hrep, mem_filter]
  exact ⟨hd ▸ mem_append_right _ hx, by simp [hseq]⟩

theorem Head.splice {cursor} {good : AccessUnit → Prop} (hgood : ∀ x, x.seq = cursor + 1 → good x)
    (h : Head good v) (hord : Ordered v []) {replay} (hrep : Reaches (cursor + 1) v.accepted replay)
    (hfit : (Receiver.mergeBySeq replay v.recv.queue).length ≤ v.recv.cap) :
    Head good { v with
      recv := if 0 < replay.length then v.recv.spliceFront replay else v.recv } := by
  by_cases hne : replay = []
  · simpa [hne] using h
  rw [if_pos (length_pos_iff.mpr hne)]
  cases hcl : v.recv.closed with
  | true =>
    have : v.recv.spliceFront replay = v.recv := by simp [Receiver.spliceFront, hcl]
    rw [this]; exact h
  | false =>
    obtain ⟨hq, -, -, hneed⟩ := Receiver.spliceFront_spec hne hcl (hord.room hcl)
    rw [Chan.rtake_of_length_le hfit] at hq
    have hall : ∀ x ∈ replay ++ v.recv.queue, x ∈ v.accepted := fun x hx =>
      (mem_append.mp hx).elim (fun hx => hrep.sub hx) (hord.sub x)
    have hmem : ∀ x, x ∈ Receiver.mergeBySeq replay v.recv.queue ↔
        x ∈ replay ∨ x ∈ v.recv.queue := fun x =>
      Keyed.mem_mergeByKey _ (fun a ha b hb =>
        Keyed.eq_of_key_eq hord.accepted a (hall a ha) b (hall b hb))
    obtain ⟨y, hy, hyseq⟩ := hrep.least hne
    obtain ⟨m, rest, hm⟩ := exists_cons_of_ne_nil
      (ne_nil_of_mem ((hmem y).mpr (.inl hy)))
    have hleast : ∀ x ∈ Receiver.mergeBySeq replay v.recv.queue, m.key ≤ x.key := by
      have hasc := Keyed.mergeByKey_pairwise AccessUnit.key replay v.recv.queue
      rw [Receiver.mergeBySeq] at hm ⊢
      rw [hm] at hasc ⊢
      exact Keyed.head_le hasc
    refine ⟨?_, ?_, h.video, h.held⟩
    · intro x hx
      simp only [hq, hm] at hx
      cases hx
      rcases (hmem m).mp (hm ▸ mem_cons_self) with hmr | hmq
      · -- replayed: not below the unit after the cursor, and not above it
        have h1 := hrep.above m hmr
        have h2 := hleast y ((hmem y).mpr (.inl hy))
        have h3 : y.key = (cursor + 1).toNat := congrArg UInt32.toNat hyseq
        exact hgood m (UInt32.toNat_inj.mp (Nat.le_antisymm (h3 ▸ h2) h1))
      · -- queued: nothing queued is below it
        obtain ⟨q, qs, hqs⟩ := exists_cons_of_ne_nil (ne_nil_of_mem hmq)
        have hqasc : SeqAscending (q :: qs) := hqs ▸ hord.order
        have h1 := hleast q ((hmem q).mpr (.inr (hqs ▸ mem_cons_self)))
        have h2 := Keyed.head_le hqasc m (hqs ▸ hmq)
        have hmeq : m = q := Keyed.eq_of_key_eq hqasc m (hqs ▸ hmq) q mem_cons_self
          (Nat.le_antisymm h1 h2)
        exact h.head m (by rw [hqs, hmeq]; rfl)
    · intro hnil
      simp only [hq, hm] at hnil
      cases hnil

/-! ## The invariant -/

/-- At a keyframe, or just after the cursor. -/
def ResumePhase.good (ph : ResumePhase) (x : AccessUnit) : Prop :=
  x.keyframe = true ∨ ∃ c ∈ ph.cursor, x.seq = c + 1

/-- The condition on a step, for receiver `r`: publishes are accepted with their number,
    which does not wrap around; until the pump reads, an eviction uncovers a unit a stream
    may start at, or nothing; and the merge of the splice fits the channel. -/
def continuous (r : ReceiverId) (s : ContState) : ContLabel → Bool
  | .base (.fan (.publish au)) =>
    (s.base.fan.ps.bc.accept au).any (fun au' =>
      au'.seq = au.seq ∧ s.base.fan.accepted.getLast?.all (fun last => last.key < au'.key))
  | .base (.fan .evict) =>
    match turnOf s.base.fan.flight r with
    | .evicting _ _ =>
      s.base.yielded r ≠ [] ∨ (s.base.fan.recvAt r).queue.tail.head?.all (fun x =>
        x.keyframe ∨ (s.base.phase r).cursor.any (fun c => x.seq = c + 1))
    | _ => true
  | .base (.splice q) =>
    match s.base.phase q with
    | .replaying _ replay =>
      q ≠ r ∨ (Receiver.mergeBySeq replay (s.base.fan.recvAt q).queue).length
        ≤ (s.base.fan.recvAt q).cap
    | _ => true
  | _ => true

structure ContInv (r : ReceiverId) (s : ContState) : Prop where
  ok : s.base.fan.Ok
  records : s.base.fan.ps.bc.Records s.base.fan.accepted
  video : s.base.fan.ps.bc.selfContained = false
  last : s.base.fan.accepted.getLast?.map AccessUnit.seq =
    s.base.fan.published.getLast?.map AccessUnit.seq
  keys : KeysConsecutive s.base.fan.accepted
  unborn : s.base.fan.ps.fresh ≤ r → s.base.phase r = .parked
  early : (s.base.phase r).isLive = false →
    Ordered (s.base.fan.view r) [] ∧ s.base.yielded r = []
  head : s.base.yielded r = [] → Head (s.base.phase r).good (s.base.fan.view r)
  replay : ∀ c replay, s.base.phase r = .replaying c replay →
    Reaches (c + 1) s.base.fan.accepted replay
  pump : (s.base.phase r).isLive = true → (s.pumps r).Opens (s.base.phase r).good ∧
    (s.base.yielded r = [] → (s.pumps r).current = none ∧ (s.pumps r).hand = none) ∧
    (s.base.yielded r ≠ [] → (s.pumps r).leadingAllowed = false)

section

variable (h : ContInv r s)
include h

theorem ContInv.publish (hok : continuous r s (.base (.fan (.publish au))) = true)
    (hprod : consecutive s.base.fan (.publish au) = true) :
    ∃ au', s.base.fan.ps.bc.accept au = some au' ∧ au'.seq = au.seq ∧
      KeysConsecutive (s.base.fan.accepted ++ [au']) ∧
      increasing s.base.fan (.publish au) = true := by
  obtain ⟨au', hacc, hx⟩ := (any_eq_true _ _).mp hok
  obtain ⟨hseq, hlt⟩ : au'.seq = au.seq ∧
      s.base.fan.accepted.getLast?.all (fun last => last.key < au'.key) = true := by
    simpa using hx
  refine ⟨au', hacc, hseq, ?_, by simpa [increasing, hacc] using hlt⟩
  refine isChain_append.mpr ⟨h.keys, isChain_singleton _, ?_⟩
  intro x hx y hy
  cases hy
  rw [mem_def] at hx
  have hlast := h.last
  rw [hx] at hlast
  obtain ⟨p, hp, hpx⟩ := map_eq_some_iff.mp hlast.symm
  simp only [consecutive, hp, beq_iff_eq] at hprod
  simp only [hx, all_some, decide_eq_true_eq] at hlt
  have hnext : au'.seq = x.seq + 1 := by rw [hseq, hprod, hpx]
  -- the sequence number went up, so it did not wrap around
  simp only [AccessUnit.key, hnext, UInt32.toNat_add] at hlt ⊢
  have := x.seq.toNat_lt
  have hone : (1 : UInt32).toNat = 1 := rfl
  omega

theorem ContInv.fan_step {l f} (hok : continuous r s (.base (.fan l)) = true)
    (hprod : consecutive s.base.fan l = true) (hf : s.base.fan.step l = some f) :
    ContInv r { s with base := { s.base with fan := f } } := by
  have hinc : increasing s.base.fan l = true := by
    cases l with
    | publish au => exact (h.publish hok hprod).choose_spec.2.2.2
    | _ => rfl
  have hhist : f.accepted.getLast?.map AccessUnit.seq = f.published.getLast?.map AccessUnit.seq ∧
      KeysConsecutive f.accepted := by
    have hist := Fan.history_step hf
    generalize f.published = pub, f.accepted = acc at hist ⊢
    cases hist with
    | rejected au hacc =>
      obtain ⟨au', hacc', -⟩ := h.publish hok hprod
      rw [hacc] at hacc'
      cases hacc'
    | accepted au au' hacc =>
      obtain ⟨au'', hacc', hseq, hkeys, -⟩ := h.publish hok hprod
      rw [hacc] at hacc'
      cases hacc'
      exact ⟨by simp [hseq], hkeys⟩
    | other _ _ => exact ⟨h.last, h.keys⟩
  have hview := Fan.step_view h.ok hf r
  refine ⟨Fan.ok_step h.ok hf, (Fan.records_step h.records hf).1,
    (Fan.config_step hf).1.trans h.video, hhist.1, hhist.2,
    fun hr => h.unborn (Nat.le_trans (Fan.fresh_le (Fan.step_cases hf)) hr), ?_, ?_, ?_, h.pump⟩
  · intro hl
    exact ⟨(h.early hl).1.step hview hinc h.records (fun _ => rfl), (h.early hl).2⟩
  · intro hy
    refine (h.head hy).step (fun _ hk => .inl hk) hview h.video h.records ?_
    rintro rfl sc au hturn y hmem
    have hy' : s.base.yielded r = [] := hy
    rw [mem_def] at hmem
    simp only [continuous, hturn, hy', Fan.recvAt, hmem] at hok
    simpa [ResumePhase.good, Option.any_eq_true] using hok
  · intro c replay hph
    have := h.replay c replay hph
    exact { this with sub := Subset.trans this.sub (accepted_subset hf) }

theorem ContInv.frame {q} {s' : ContState} (hne : r ≠ q)
    (hfan : s'.base.fan = s.base.fan.setRecv q x) (hph : s'.base.phase r = s.base.phase r)
    (hy : s'.base.yielded r = s.base.yielded r) (hp : s'.pumps r = s.pumps r) : ContInv r s' := by
  have hview : s'.base.fan.view r = s.base.fan.view r := by
    rw [hfan, Fan.view_setRecv_of_ne s.base.fan hne]
  refine ⟨hfan ▸ Fan.ok_setRecv h.ok q x, hfan ▸ h.records, hfan ▸ h.video, hfan ▸ h.last,
    hfan ▸ h.keys, ?_, ?_, ?_, ?_, ?_⟩
  · rw [hfan, hph]; exact h.unborn
  · rw [hview, hph, hy]; exact h.early
  · rw [hview, hph, hy]; exact h.head
  · rw [hfan, hph]; exact h.replay
  · rw [hph, hy, hp]; exact h.pump

theorem ContInv.enter (hr : r < s.base.fan.ps.fresh) (hph : s.base.phase r = .parked)
    {ph : ResumePhase} (hlive : ph.isLive = false) (hrep : ∀ c replay, ph = .replaying c replay →
      Reaches (c + 1) s.base.fan.accepted replay) :
    ContInv r { s with base := s.base.setPhase r ph } where
  ok := h.ok
  records := h.records
  video := h.video
  last := h.last
  keys := h.keys
  unborn := fun hle => absurd hr (Nat.not_lt.mpr hle)
  early := fun _ => h.early (by rw [hph]; rfl)
  head := fun hy => by
    have hh := h.head hy
    rw [hph] at hh
    refine hh.mono (fun x hx => .inl (hx.resolve_right ?_))
    rintro ⟨c, hc, -⟩
    cases hc
  replay := fun c replay hx => hrep c replay (by simpa using hx)
  pump := fun hl => by simp [hlive] at hl

theorem ContInv.goLive (hlive : (s.base.phase r).isLive = false) (hborn : r < s.base.fan.ps.fresh)
    {cursor} (hx : Head (ResumePhase.live cursor).good { s.base.fan.view r with recv := x }) :
    ContInv r (ContState.startPump
      { s with base := (s.base.setRecv r x).setPhase r (.live cursor) } r) := by
  have hph : ((s.base.setRecv r x).setPhase r (.live cursor)).phase r = .live cursor := by simp
  refine ⟨Fan.ok_setRecv h.ok r x, h.records, h.video, h.last, h.keys,
    fun hle => absurd hborn (Nat.not_lt.mpr hle), ?_, ?_, ?_, ?_⟩
  · intro hl
    have : (ResumePhase.live cursor).isLive = false := hph ▸ hl
    cases this
  · intro _
    show Head (((s.base.setRecv r x).setPhase r (.live cursor)).phase r).good
      ((s.base.fan.setRecv r x).view r)
    rw [hph, Fan.view_setRecv_self]
    exact hx
  · intro c replay hc
    have : ResumePhase.live cursor = .replaying c replay := hph ▸ hc
    cases this
  · intro _
    have hy : s.base.yielded r = [] := (h.early hlive).2
    have hp : (ContState.startPump
        { s with base := (s.base.setRecv r x).setPhase r (.live cursor) } r).pumps r
        = GopPump.start cursor.isSome := by
      show update s.pumps r (GopPump.start _) r = _
      rw [update_self, hph]
      rfl
    rw [hp]
    refine ⟨⟨nofun, nofun, nofun, ?_, nofun⟩, fun _ => ⟨rfl, rfl⟩, fun hne => absurd hy hne⟩
    rintro _ (h | h) <;> cases h

theorem ContInv.dequeue (hlive : (s.base.phase r).isLive = true) (hpc : (s.pumps r).pc = .waiting)
    (hrecv : (s.base.fan.recvAt r).recv = some (au, x)) : ContInv r (s.dequeue r au x) := by
  obtain ⟨hq, -⟩ := Receiver.recv_some hrecv
  obtain ⟨hopens, hnone, hlead⟩ := h.pump hlive
  have hy : (s.dequeue r au x).base.yielded r ≠ [] := by
    have : (s.dequeue r au x).base.yielded r = s.base.yielded r ++ [au] :=
      update_self ..
    rw [this]; simp
  have hp : (s.dequeue r au x).pumps r = (s.pumps r).dequeue au := update_self ..
  refine { h with ok := Fan.ok_setRecv h.ok r x, early := ?_, head := fun hnil => absurd hnil hy, pump := ?_ }
  · intro hl
    exact absurd (hlive.symm.trans hl) (by simp)
  · intro _
    rw [hp]
    refine ⟨hopens.dequeue hpc ?_, fun hnil => absurd hnil hy, fun _ => ?_⟩
    · rintro (hk | hl)
      · exact .inl hk
      · by_cases hfirst : s.base.yielded r = []
        · exact (h.head hfirst).head au (by
            show au ∈ (s.base.fan.recvAt r).queue.head?
            rw [hq]; rfl)
        · rw [hlead hfirst] at hl; cases hl
    · by_cases hfirst : s.base.yielded r = []
      · exact GopPump.dequeue_leading _ au (hnone hfirst).1
      · exact GopPump.dequeue_leading_of_false (hlead hfirst) au

theorem ContInv.setPump {p : GopPump}
    (hp : (s.base.phase r).isLive = true → p.Opens (s.base.phase r).good ∧
      (s.base.yielded r = [] → p.current = none ∧ p.hand = none) ∧
      (s.base.yielded r ≠ [] → p.leadingAllowed = false)) : ContInv r (s.setPump r p) := by
  have hself : (s.setPump r p).pumps r = p := update_self ..
  exact { h with pump := by rw [hself]; exact hp }

theorem ContInv.advance {ev p} (hlive : (s.base.phase r).isLive = true)
    (hadv : (s.pumps r).advance true ev = some p) : ContInv r (s.setPump r p) := by
  obtain ⟨hopens, hnone, hlead⟩ := h.pump hlive
  refine h.setPump (fun _ => ⟨hopens.advance hadv, fun hy => ?_, fun hy => ?_⟩)
  · exact GopPump.advance_of_hand_none hadv (hnone hy).2
  · exact (GopPump.advance_leading hadv).trans (hlead hy)

end

theorem Head.request {good : AccessUnit → Prop} (h : Head good v) :
    Head good { v with recv := v.recv.requestKeyframe } :=
  { h with gate := fun _ _ => .inl rfl }

theorem ContInv.request (h : ContInv r s)
    (hlive : (s.base.phase r).isLive = true) (hpc : (s.pumps r).pc = .requesting) :
    ContInv r (s.request r) := by
  obtain ⟨hopens, hnone, hlead⟩ := h.pump hlive
  have hbase : ContInv r
      { s with base := s.base.setRecv r (s.base.fan.recvAt r).requestKeyframe } := by
    refine { h with ok := Fan.ok_setRecv h.ok r _, early := ?_, head := ?_ }
    · intro hl
      exact absurd (hlive.symm.trans hl) (by simp)
    · intro hy
      show Head _ ((s.base.fan.setRecv r _).view r)
      rw [Fan.view_setRecv_self]
      exact (h.head hy).request
  refine hbase.setPump (fun _ => ⟨hopens.requested hpc, fun hy => ?_, hlead⟩)
  exact ⟨(hnone hy).1, rfl⟩

theorem ContInv.born (h : ContInv r s)
    (hph : s.base.phase r ≠ .parked) : r < s.base.fan.ps.fresh := by
  by_contra hle
  exact hph (h.unborn (Nat.not_lt.mp hle))

theorem ContInv.base_step (h : ContInv r s) {l b} (hok : continuous r s (.base l) = true)
    (hread : ∀ q, l ≠ .read q) (hs : ContState.starts l = none)
    (hb : s.base.step consecutive l = some b) : ContInv r { s with base := b } := by
  have hself : ∀ q, s.base.fan = s.base.fan.setRecv q (s.base.fan.recvAt q) := fun q => by
    simp [Fan.setRecv, Fan.recvAt]
  cases ResumeState.step_cases hb with
  | fan l f hprod hf => exact h.fan_step hok hprod hf
  | gone q cursor hq hph _ =>
    by_cases hrq : r = q
    · subst hrq; exact h.enter hq hph rfl (by simp)
    · exact h.frame hrq (hself q) (update_of_ne hrq _ _) rfl rfl
  | found q cursor replay hq hph hr =>
    by_cases hrq : r = q
    · subst hrq
      refine h.enter hq hph rfl (fun c l hl => ?_)
      cases hl
      exact reaches_of_replaySince h.records h.keys hr
    · exact h.frame hrq (hself q) (update_of_ne hrq _ _) rfl rfl
  | read q _ _ _ _ _ => exact absurd rfl (hread q)
  | _ => cases hs

theorem ContInv.start_step (h : ContInv r s) {l q b} (hok : continuous r s (.base l) = true)
    (hs : ContState.starts l = some q) (hb : s.base.step consecutive l = some b) :
    ContInv r (ContState.startPump { s with base := b } q) := by
  have hself : ∀ q, s.base.setRecv q (s.base.fan.recvAt q) = s.base := fun q => by
    simp [ResumeState.setRecv, Fan.setRecv, Fan.recvAt]
  cases ResumeState.step_cases hb with
  | attach q hq hph =>
    cases hs
    by_cases hrq : r = q
    · subst hrq
      have hhead := h.head (h.early (by rw [hph]; rfl)).2
      rw [hph] at hhead
      have := h.goLive (x := s.base.fan.recvAt r) (by rw [hph]; rfl) hq hhead
      rwa [hself] at this
    · exact h.frame hrq (congrArg ResumeState.fan (hself q)).symm
        (update_of_ne hrq _ _) rfl (update_of_ne hrq _ _)
  | splice q cursor replay hph hlock =>
    cases hs
    by_cases hrq : r = q
    · subst hrq
      have hlive : (s.base.phase r).isLive = false := by rw [hph]; rfl
      obtain ⟨hord, hy⟩ := h.early hlive
      have hhead := h.head hy
      rw [hph] at hhead
      refine h.goLive hlive (h.born (by rw [hph]; simp)) ?_
      refine hhead.splice (fun x hx => .inr ⟨cursor, rfl, hx⟩) hord
        (h.replay cursor replay hph) ?_
      show (Receiver.mergeBySeq replay (s.base.fan.recvAt r).queue).length
        ≤ (s.base.fan.recvAt r).cap
      simpa [continuous, hph] using hok
    · exact h.frame hrq rfl (update_of_ne hrq _ _) rfl (update_of_ne hrq _ _)
  | request q cursor hph hlock =>
    cases hs
    by_cases hrq : r = q
    · subst hrq
      have hlive : (s.base.phase r).isLive = false := by rw [hph]; rfl
      have hhead := h.head (h.early hlive).2
      rw [hph] at hhead
      refine h.goLive hlive (h.born (by rw [hph]; simp)) ?_
      rw [h.video]
      exact hhead.request
    · exact h.frame hrq rfl (update_of_ne hrq _ _) rfl (update_of_ne hrq _ _)
  | _ => cases hs

theorem ContInv.step {s'} (h : ContInv r s) {l} (hok : continuous r s l = true)
    (hstep : s.step l = some s') : ContInv r s' := by
  have hself : ∀ q, s.base.fan = s.base.fan.setRecv q (s.base.fan.recvAt q) := fun q => by
    simp [Fan.setRecv, Fan.recvAt]
  cases l with
  | base l =>
    have hbase : ∀ (hl : ∀ q, l ≠ .read q), (s.base.step consecutive l).map (fun b =>
        match ContState.starts l with
        | some q => ContState.startPump { s with base := b } q
        | none => { s with base := b }) = some s' → ContInv r s' := by
      intro hl hstep
      obtain ⟨b, hb, rfl⟩ := map_eq_some_iff.mp hstep
      split
      · next q hs => exact h.start_step hok hs hb
      · next hs => exact h.base_step hok hl hs hb
    cases l with
    | read q => cases hstep
    | _ => exact hbase (by simp) hstep
  | dequeue q =>
    obtain ⟨⟨hph, hpc⟩, hstep⟩ := ite_none_right_eq_some.mp hstep
    obtain ⟨⟨au, x⟩, hrecv, rfl⟩ := map_eq_some_iff.mp hstep
    by_cases hrq : r = q
    · subst hrq; exact h.dequeue hph hpc hrecv
    · exact h.frame hrq rfl rfl (update_of_ne hrq _ _) (update_of_ne hrq _ _)
  | pump q ev =>
    obtain ⟨hph, hstep⟩ := ite_none_right_eq_some.mp hstep
    obtain ⟨p, hadv, rfl⟩ := map_eq_some_iff.mp hstep
    by_cases hrq : r = q
    · subst hrq; exact h.advance hph hadv
    · exact h.frame hrq (hself q) rfl rfl (update_of_ne hrq _ _)
  | request q =>
    obtain ⟨⟨hph, hpc, -⟩, rfl⟩ := of_guard hstep
    by_cases hrq : r = q
    · subst hrq; exact h.request hph hpc
    · exact h.frame hrq rfl rfl rfl (update_of_ne hrq _ _)

/-- One video track with any interceptors and byte ceiling, and a producer of consecutive
    numbers. -/
def contSystem (chanSize maxAUBytes replayMaxBytes : Int) (chain : List Interceptor) :
    System ContState ContLabel :=
  ofFun (ContState.start
    { ((newBroadcasterWithBytes chanSize maxAUBytes).setSelfContained false).setReplayMaxBytes
        replayMaxBytes with interceptors := chain })
    ContState.step

/-- **Continuation.** If the steps are continuous for `r`, the first frame its pump writes
    after a resume with cursor `c` is a keyframe or the unit after `c`. -/
theorem resumed_stream_continues (chanSize maxAUBytes replayMaxBytes : Int)
    (chain : List Interceptor) (r : ReceiverId) :
    ∀ s, Reachable ((contSystem chanSize maxAUBytes replayMaxBytes chain).restrict
        (fun s l => continuous r s l = true)) s →
      ∀ c, s.base.phase r = .live (some c) →
        ∀ au ∈ (s.pumps r).wrote.head?, au.keyframe = true ∨ au.seq = c + 1 := by
  intro s hs c hph au hau
  have hinv : ContInv r s := by
    have h := Broadcaster.records_nil chanSize maxAUBytes replayMaxBytes false
    refine invariant_restrict (ContInv r) ?_ (fun _ _ _ _ h => h.step) s hs
    refine ⟨Fan.ok_start _, { h with }, rfl, rfl, isChain_nil, fun _ => rfl,
      fun _ => ⟨⟨Pairwise.nil, Pairwise.nil, nofun, nofun, nofun⟩, rfl⟩,
      fun _ => ⟨nofun, nofun, nofun, ?_⟩, nofun, nofun⟩
    rintro _ _ (ht | ht) <;> cases ht
  have hpump := (hinv.pump (by rw [hph]; rfl)).1
  rw [hph] at hpump
  refine (hpump.head au hau).imp_right ?_
  rintro ⟨c', hc', hseq⟩
  cases hc'
  exact hseq

/-- The P-frame the client missed opens its stream. -/
theorem resumed_stream_continues_after_cursor :
    ∃ s, Reachable ((contSystem 30 0 0 []).restrict
        (fun s l => continuous 0 s l = true)) s ∧
      s.base.phase 0 = .live (some 1) ∧ (s.pumps 0).wrote = [.bare false 2] ∧
      ∀ au ∈ (s.pumps 0).wrote.head?, au.keyframe = true ∨ au.seq = 1 + 1 :=
  exists_run_given_imp [.base (.fan (.publish (.bare true 1))), .base (.fan (.publish (.bare false 2))),
    .base (.fan (.publish (.bare true 3))), .base (.fan (.subscribe parkedChanCap)),
    .base (.replaySince 0 1), .base (.splice 0), .dequeue 0, .pump 0 .opened, .pump 0 .headerWritten,
    .pump 0 .written]
    (fun s hs (hp : s.base.phase 0 = .live (some 1) ∧ (s.pumps 0).wrote = [.bare false 2]) =>
      ⟨hp.1, hp.2, resumed_stream_continues 30 0 0 [] 0 s hs 1 hp.1⟩) (by decide)

/-- The default buffer and no interceptor. -/
abbrev plainTrack : System ContState ContLabel := contSystem 30 0 0 []

/-- P-frames fill the queue of the parked session, and the next keyframe makes room in it.
    -/
def overflowRun : List ContLabel :=
  [.base (.fan (.publish (.bare true 1))), .base (.fan (.publish (.bare false 2))),
    .base (.fan (.subscribe parkedChanCap))] ++
  (List.range 319).flatMap (fun i =>
    [.base (.fan (.publish (.bare false (UInt32.ofNat (i + 3))))), .base (.fan (.fanout 0))]) ++
  [.base (.fan (.publish (.bare true 322))), .base (.fan (.fanout 0)), .base (.fan .evict),
    .base (.fan .resend), .base (.replaySince 0 1), .base (.request 0), .dequeue 0,
    .pump 0 .opened, .pump 0 .headerWritten, .pump 0 .written]

set_option maxRecDepth 20000 in
/-- **Overflow.** The resumed stream starts on a P-frame two past the keyframe the client
    saw. -/
theorem overflow_starts_on_pframe :
    ∃ s, Reachable plainTrack s ∧ s.base.phase 0 = .live (some 1) ∧
      (s.pumps 0).wrote = [.bare false 3] ∧
      ¬ ∀ au ∈ (s.pumps 0).wrote.head?, au.keyframe = true ∨ au.seq = 1 + 1 := by
  obtain ⟨s, hs, hph, hw⟩ : ∃ s, Reachable plainTrack s ∧ s.base.phase 0 = .live (some 1) ∧
      (s.pumps 0).wrote = [.bare false 3] := exists_run overflowRun (by decide +kernel)
  exact ⟨s, hs, hph, hw, by rw [hw]; decide⟩

end QuicRTC

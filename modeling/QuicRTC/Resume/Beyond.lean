import QuicRTC.Resume.AtMostOnce

/-! # What a Resumed Receiver Holds

A parked receiver starts with the cached keyframe, which the client may have had before it went
away. If what it holds when the resume ends is above the cursor, so is everything that comes later.
-/

namespace QuicRTC

open Function List Option

theorem ViewStep.brings {s r l v'} (h : ViewStep s r l v') (hborn : s.ps.fresh ≠ r) :
    (∀ x ∈ v'.recv.queue, x ∈ (s.view r).recv.queue ∨ x ∈ (s.view r).turn.unit) ∧
      ∀ x ∈ v'.turn.unit, x ∈ (s.view r).turn.unit ∨
        ∃ au, l = .publish au ∧ s.ps.bc.accept au = some x := by
  cases h with
  | published au au' hacc hturn =>
    refine ⟨fun x => .inl, fun x hx => .inr ⟨au, rfl, ?_⟩⟩
    split at hx
    · cases hx
      exact hacc
    · cases hx
  | tried sc au hturn =>
    rw [hturn]
    have hout := Receiver.fanoutTry_outcome sc au (s.view r).recv
    generalize (s.view r).recv.fanoutTry sc au = res at hout ⊢
    cases hout with
    | enqueued y _ _ _ hq =>
      refine ⟨fun x hx => ?_, nofun⟩
      simp only [hq] at hx
      rcases Slots.mem_snoc hx with hx | rfl
      · exact .inl hx
      · exact .inr rfl
    | full => exact ⟨fun x => .inl, fun x => .inl⟩
    | _ => exact ⟨fun x => .inl, nofun⟩
  | evicted sc au hturn =>
    rw [hturn]
    exact ⟨fun x hx => .inl (mem_of_mem_tail hx), fun x => .inl⟩
  | resent sc au hturn =>
    rw [hturn]
    refine ⟨fun x hx => ?_, nofun⟩
    obtain ⟨hq | ⟨hq, -⟩, -, -⟩ := Receiver.fanoutResend_outcome sc au (s.view r).recv
    · simp only [hq] at hx
      rcases Slots.mem_snoc hx with hx | rfl
      · exact .inl hx
      · exact .inr rfl
    · simp only [hq] at hx
      exact .inl hx
  | subscribed want hfresh => exact absurd hfresh hborn
  | closed =>
    refine ⟨fun x hx => .inl ?_, fun x => .inl⟩
    simpa using hx
  | _ => exact ⟨fun x => .inl, fun x => .inl⟩

/-- What it holds and what is on its way is above `c`, and the producer has come as far. -/
structure AboveCursor (c : UInt32) (v : View) : Prop where
  queue : ∀ x ∈ v.recv.queue, c < x.seq
  due : ∀ x ∈ v.turn.unit, c < x.seq
  seen : ∃ x ∈ v.accepted, c ≤ x.seq

namespace AboveCursor

variable {c : UInt32} {v : View}

theorem mono (h : AboveCursor c v) {x : Receiver} (hsub : ∀ au ∈ x.queue, au ∈ v.recv.queue) :
    AboveCursor c { v with recv := x } :=
  ⟨fun au hau => h.queue au (hsub au hau), h.due, h.seen⟩

theorem step {s : Fan} {f r} (h : AboveCursor c (s.view r)) {l} (hok : s.Ok)
    (hprod : increasing s l = true) (hasc : SeqAscending s.accepted) (hborn : s.ps.fresh ≠ r)
    (hstep : s.step l = some f) : AboveCursor c (f.view r) := by
  obtain ⟨hqueue, hdue⟩ := (Fan.step_view hok hstep r).brings hborn
  obtain ⟨y, hy, hle⟩ := h.seen
  refine ⟨fun x hx => ?_, fun x hx => ?_, y, accepted_subset hstep hy, hle⟩
  · rcases hqueue x hx with hx | hx
    · exact h.queue x hx
    · exact h.due x hx
  · rcases hdue x hx with hx | ⟨au, rfl, hacc⟩
    · exact h.due x hx
    · -- it is above everything accepted so far
      exact UInt32.lt_of_le_of_lt hle (increasing_lt hasc hprod hacc y hy)

end AboveCursor

/-! ## The condition -/

namespace ResumeState

/-- What `q` is about to hold is above the cursor. -/
def clearOf (s : ResumeState) (q : ReceiverId) (c : UInt32) (replay : List AccessUnit) : Bool :=
  (replay ++ (s.fan.recvAt q).queue ++ (turnOf s.fan.flight q).unit.toList).all
      (fun x => decide (c < x.seq)) &&
    s.fan.accepted.any (fun x => decide (c ≤ x.seq))

/-- At the end of a resume. -/
def resumesAbove (s : ResumeState) : ResumeLabel → Bool
  | .splice q =>
    match s.phase q with
    | .replaying c replay => s.clearOf q c replay
    | _ => true
  | .request q =>
    match s.phase q with
    | .unavailable c => s.clearOf q c []
    | _ => true
  | _ => true

end ResumeState

def ResumedAbove (r : ReceiverId) (s : ResumeState) : Prop :=
  ∀ c, s.phase r = .live (some c) → AboveCursor c (s.fan.view r)

theorem aboveCursor_of_clearOf {s : ResumeState} {q c replay} (h : s.clearOf q c replay = true)
    {x : Receiver} (hx : ∀ au ∈ x.queue, au ∈ replay ∨ au ∈ (s.fan.recvAt q).queue) :
    AboveCursor c { s.fan.view q with recv := x } := by
  obtain ⟨hall, hany⟩ := Bool.and_eq_true_iff.mp h
  have habove : ∀ au, (au ∈ replay ∨ au ∈ (s.fan.recvAt q).queue) ∨
      au ∈ (turnOf s.fan.flight q).unit → c < au.seq := by
    intro au hau
    refine of_decide_eq_true (all_eq_true.mp hall au ?_)
    rw [mem_append, mem_append, mem_toList]
    exact hau
  obtain ⟨y, hy, hle⟩ := any_eq_true.mp hany
  exact ⟨fun au hau => habove au (.inl (hx au hau)), fun au hau => habove au (.inr hau), y, hy,
    of_decide_eq_true hle⟩

namespace ResumedAbove

variable {r : ReceiverId} {s : ResumeState}

theorem frame (h : ResumedAbove r s) {s' : ResumeState} (hview : s'.fan.view r = s.fan.view r)
    (hphase : s'.phase r = s.phase r) : ResumedAbove r s' := by
  intro c hc
  rw [hview]
  exact h c (hphase.symm.trans hc)

theorem splice (h : ResumedAbove r s) (hinv : OnceInv r s) {q cursor replay}
    (hclear : s.clearOf q cursor replay = true) : ResumedAbove r (s.splice q cursor replay) := by
  by_cases hrq : r = q
  · subst hrq
    intro c hc
    obtain rfl : cursor = c :=
      some.inj (ResumePhase.live.inj ((ResumeState.setPhase_phase ..).symm.trans hc))
    show AboveCursor cursor ((s.fan.setRecv r _).view r)
    rw [Fan.view_setRecv_self]
    refine aboveCursor_of_clearOf hclear (fun au hau => ?_)
    split at hau
    · -- a closed receiver is left alone
      cases hopen : (s.fan.recvAt r).closed with
      | false => exact Receiver.mem_spliceFront (hinv.ordered.room hopen) hau
      | true =>
        have hsame : (s.fan.recvAt r).spliceFront replay = s.fan.recvAt r := by
          simp [Receiver.spliceFront, hopen]
        exact .inr (hsame ▸ hau)
    · exact .inr hau
  · exact h.frame (Fan.view_setRecv_of_ne s.fan hrq _) (update_of_ne hrq _ _)

theorem request (h : ResumedAbove r s) {q cursor} (hclear : s.clearOf q cursor [] = true) :
    ResumedAbove r (s.request q cursor) := by
  by_cases hrq : r = q
  · subst hrq
    intro c hc
    obtain rfl : cursor = c :=
      some.inj (ResumePhase.live.inj ((ResumeState.setPhase_phase ..).symm.trans hc))
    show AboveCursor cursor ((s.fan.setRecv r _).view r)
    rw [Fan.view_setRecv_self]
    refine aboveCursor_of_clearOf hclear (fun au hau => .inr ?_)
    split at hau <;> exact hau
  · exact h.frame (Fan.view_setRecv_of_ne s.fan hrq _) (update_of_ne hrq _ _)

theorem setRecv (h : ResumedAbove r s) {q} {x : Receiver}
    (hsub : ∀ au ∈ x.queue, au ∈ (s.fan.recvAt q).queue) : ResumedAbove r (s.setRecv q x) := by
  by_cases hrq : r = q
  · subst hrq
    intro c hc
    show AboveCursor c ((s.fan.setRecv r x).view r)
    rw [Fan.view_setRecv_self]
    exact (h c hc).mono hsub
  · exact h.frame (Fan.view_setRecv_of_ne s.fan hrq _) rfl

theorem step (h : ResumedAbove r s) (hinv : OnceInv r s) {l s'} (hok : s.resumesAbove l = true)
    (hstep : s.step increasing l = some s') : ResumedAbove r s' := by
  have henter : ∀ q ph, (∀ c, ph ≠ .live (some c)) → ResumedAbove r (s.setPhase q ph) := by
    intro q ph hph
    by_cases hrq : r = q
    · subst hrq
      intro c hc
      exact absurd ((ResumeState.setPhase_phase ..).symm.trans hc) (hph c)
    · exact h.frame rfl (update_of_ne hrq _ _)
  cases ResumeState.step_cases hstep with
  | fan l f hprod hf =>
    intro c hc
    refine (h c hc).step hinv.ok hprod hinv.ordered.accepted (fun hfresh => ?_) hf
    have hparked := hinv.unborn (Nat.le_of_eq hfresh)
    cases hparked.symm.trans hc
  | attach q | gone q | found q => exact henter q _ nofun
  | splice q cursor replay hph =>
    simp only [ResumeState.resumesAbove, hph] at hok
    exact h.splice hinv hok
  | request q cursor hph =>
    simp only [ResumeState.resumesAbove, hph] at hok
    exact h.request hok
  | read q cursor au x hph hrecv =>
    obtain ⟨hq, -⟩ := Receiver.recv_some hrecv
    refine h.setRecv (fun y hy => ?_)
    rw [hq]
    exact mem_cons_of_mem _ hy

end ResumedAbove

namespace ResumeState

variable {producer : Fan → FanLabel → Bool} {s s' : ResumeState} {l : ResumeLabel} {q : ReceiverId}

theorem live_of_step (h : s.step producer l = some s') {c} (hlive : s.phase q = .live c) :
    s'.phase q = .live c := by
  have hother : ∀ p ph, s.phase p ≠ .live c → update s.phase p ph q = .live c := by
    intro p ph hp
    have hne : q ≠ p := by
      rintro rfl
      exact hp hlive
    rw [update_of_ne hne]
    exact hlive
  cases step_cases h with
  | attach p _ hph | gone p _ _ hph | found p _ _ _ hph | splice p _ _ hph | request p _ hph =>
    exact hother p _ (by rw [hph]; exact ResumePhase.noConfusion)
  | _ => exact hlive

theorem yielded_of_step (h : s.step producer l = some s') (hl : l ≠ .read q) :
    s'.yielded q = s.yielded q := by
  cases step_cases h with
  | read p => exact update_of_ne (fun heq => hl (congrArg _ heq.symm)) _ _
  | _ => rfl

end ResumeState

theorem OnceInv.requestKeyframe {r s} (h : OnceInv r s) (q : ReceiverId) :
    OnceInv r (s.setRecv q (s.fan.recvAt q).requestKeyframe) := by
  by_cases hrq : r = q
  · subst hrq
    refine { h with ok := Fan.ok_setRecv h.ok r _, ordered := ?_ }
    show Ordered ((s.fan.setRecv r _).view r) (s.yielded r)
    rw [Fan.view_setRecv_self]
    exact h.ordered.shrink (Sublist.refl _) rfl id (fun _ hau => hau)
  · exact h.frame hrq rfl rfl rfl

end QuicRTC

import QuicRTC.Framework.System
import QuicRTC.Pubsub.Broadcaster

/-! # Concurrent Publishing

One broadcaster with a single producer, at the granularity of its locks. A section of `Publish` in
which room has to be made is three steps, because the consumer reads the channel without taking
`r.mu`. `Subscribe` is one step, `Unsubscribe` a `b.mu` step and an `r.mu` step.

`ViewStep` says once what a step can mean for one receiver; invariants are proved from it.
-/

namespace QuicRTC

open Function Option

/-! ## State and steps -/

/-- The second or the third `select` is next. -/
inductive Stage where
  | evict
  | resend
  deriving DecidableEq

/-- Between the `b.mu` section of a `Publish` and its return. -/
structure Flight where
  au : AccessUnit
  selfContained : Bool
  pending : List ReceiverId
  current : Option (ReceiverId × Stage)

/-- `closing` are removed but not closed. `published` and `accepted` are history. -/
structure Fan where
  ps : PubSub
  flight : Option Flight
  closing : List ReceiverId
  published : List AccessUnit
  accepted : List AccessUnit

inductive FanLabel where
  /-- Interceptors, size cap and `b.mu` section of `Publish`. -/
  | publish (au : AccessUnit)
  /-- Start of the `r.mu` section: first `select`. -/
  | fanout (r : ReceiverId)
  | evict
  /-- Third `select`. -/
  | resend
  /-- `Subscribe` is `want = 0`. -/
  | subscribe (want : Nat)
  /-- The `b.mu` half of `Unsubscribe`. -/
  | unsubscribe (r : ReceiverId)
  /-- The `r.mu` half of `Unsubscribe`. -/
  | closeRecv (r : ReceiverId)

/-- Nothing once every receiver was served. -/
def Flight.settle (f : Flight) : Option Flight :=
  if f.pending = [] ∧ f.current = none then none else some f

theorem Flight.eq_of_settle {f g : Flight} (h : g ∈ f.settle) : g = f := by
  unfold Flight.settle at h
  split at h
  · cases h
  · exact (some.inj h).symm

namespace Fan

def start (bc : Broadcaster) : Fan where
  ps := PubSub.new bc
  flight := none
  closing := []
  published := []
  accepted := []

def locked (s : Fan) (r : ReceiverId) : Bool :=
  s.flight.any (fun f => f.current.any (fun c => c.1 == r))

def recvAt (s : Fan) (r : ReceiverId) : Receiver := s.ps.heap r

def setRecv (s : Fan) (r : ReceiverId) (x : Receiver) : Fan :=
  { s with ps := { s.ps with heap := update s.ps.heap r x } }

def publish (s : Fan) (au : AccessUnit) : Fan :=
  match s.ps.bc.accept au with
  | none => { s with published := s.published ++ [au] }
  | some au' =>
    { s with
      ps := { s.ps with bc := s.ps.bc.publishLocked au' }
      -- The snapshot of the receivers is taken under `b.mu`.
      flight := Flight.settle
        { au := au'
          selfContained := s.ps.bc.selfContained
          pending := s.ps.bc.receivers
          current := none }
      published := s.published ++ [au]
      accepted := s.accepted ++ [au'] }

def fanout (s : Fan) (f : Flight) (r : ReceiverId) : Fan :=
  let res := (s.recvAt r).fanoutTry f.selfContained f.au
  -- The order in which the snapshot is served is left open.
  let rest := f.pending.filter (· ≠ r)
  { s.setRecv r res.1 with
    flight := Flight.settle
      { f with pending := rest, current := if res.2 then some (r, .evict) else none } }

def evict (s : Fan) (f : Flight) (r : ReceiverId) : Fan :=
  { s.setRecv r (s.recvAt r).fanoutEvict with
    flight := some { f with current := some (r, .resend) } }

def resend (s : Fan) (f : Flight) (r : ReceiverId) : Fan :=
  { s.setRecv r ((s.recvAt r).fanoutResend f.selfContained f.au) with
    flight := Flight.settle { f with current := none } }

def subscribe (s : Fan) (want : Nat) : Fan :=
  { s with ps := s.ps.subscribeWithCapacity want }

def unsubscribe (s : Fan) (r : ReceiverId) : Fan :=
  if r ∈ s.ps.bc.receivers then
    { s with
      ps := { s.ps with
        bc := { s.ps.bc with receivers := s.ps.bc.receivers.filter (· ≠ r) } }
      closing := r :: s.closing }
  else s

def closeRecv (s : Fan) (r : ReceiverId) : Fan :=
  { s.setRecv r (s.recvAt r).close with closing := s.closing.erase r }

/-- `none` if the label is not enabled. -/
def step (s : Fan) : FanLabel → Option Fan
  -- One producer: the next `Publish` waits for the last one to return.
  | .publish au => if s.flight.isNone then some (s.publish au) else none
  | .fanout r =>
    match s.flight with
    | some f => if f.current = none ∧ r ∈ f.pending then some (s.fanout f r) else none
    | none => none
  | .evict =>
    match s.flight with
    | some f =>
      match f.current with
      | some (r, .evict) => some (s.evict f r)
      | _ => none
    | none => none
  | .resend =>
    match s.flight with
    | some f =>
      match f.current with
      | some (r, .resend) => some (s.resend f r)
      | _ => none
    | none => none
  | .subscribe want => some (s.subscribe want)
  | .unsubscribe r => some (s.unsubscribe r)
  -- Closing needs `r.mu`, which a section in progress holds.
  | .closeRecv r =>
    if r ∈ s.closing ∧ s.locked r = false then some (s.closeRecv r) else none

/-- **Inversion** of a step. -/
inductive Step (s : Fan) : FanLabel → Fan → Prop where
  | publish (au : AccessUnit) (hf : s.flight = none) : Step s (.publish au) (s.publish au)
  | fanout (f : Flight) (r : ReceiverId) (hf : s.flight = some f) (hcur : f.current = none)
      (hr : r ∈ f.pending) : Step s (.fanout r) (s.fanout f r)
  | evict (f : Flight) (r : ReceiverId) (hf : s.flight = some f)
      (hcur : f.current = some (r, .evict)) : Step s .evict (s.evict f r)
  | resend (f : Flight) (r : ReceiverId) (hf : s.flight = some f)
      (hcur : f.current = some (r, .resend)) : Step s .resend (s.resend f r)
  | subscribe (want : Nat) : Step s (.subscribe want) (s.subscribe want)
  | unsubscribe (r : ReceiverId) : Step s (.unsubscribe r) (s.unsubscribe r)
  | closeRecv (r : ReceiverId) (hr : r ∈ s.closing) (hlock : s.locked r = false) :
      Step s (.closeRecv r) (s.closeRecv r)

theorem step_cases {s : Fan} {s' l} : s.step l = some s' → Step s l s' := by
  fun_cases s.step l <;> intro h <;> cases h
  · next hf => exact .publish _ (isNone_iff_eq_none.mp hf)
  · next hf hg => exact .fanout _ _ hf hg.1 hg.2
  · next hf _ hc => exact .evict _ _ hf hc
  · next hf _ hc => exact .resend _ _ hf hc
  · exact .subscribe _
  · exact .unsubscribe _
  · next hg => exact .closeRecv _ hg.1 hg.2

end Fan

/-! ## What one receiver sees -/

/-- Where the flight stands with a receiver. -/
inductive Turn where
  | done
  | waiting (selfContained : Bool) (au : AccessUnit)
  | evicting (selfContained : Bool) (au : AccessUnit)
  | resending (selfContained : Bool) (au : AccessUnit)
  deriving DecidableEq

def Flight.turn (f : Flight) (r : ReceiverId) : Turn :=
  if f.current = some (r, .evict) then .evicting f.selfContained f.au
  else if f.current = some (r, .resend) then .resending f.selfContained f.au
  else if r ∈ f.pending then .waiting f.selfContained f.au
  else .done

def turnOf (flight : Option Flight) (r : ReceiverId) : Turn :=
  match flight with
  | none => .done
  | some f => f.turn r

/-- What of the state matters to one receiver. -/
structure View where
  recv : Receiver
  listed : Bool
  turn : Turn
  cached : Option AccessUnit
  accepted : List AccessUnit

def Fan.view (s : Fan) (r : ReceiverId) : View where
  recv := s.ps.heap r
  listed := s.ps.bc.receivers.contains r
  turn := turnOf s.flight r
  cached := s.ps.bc.latestKeyframe
  accepted := s.accepted

inductive ViewStep (s : Fan) (r : ReceiverId) : FanLabel → View → Prop where
  | rejected (au : AccessUnit) (hacc : s.ps.bc.accept au = none) :
      ViewStep s r (.publish au) (s.view r)
  | published (au au' : AccessUnit) (hacc : s.ps.bc.accept au = some au')
      (hturn : (s.view r).turn = .done) :
      ViewStep s r (.publish au)
        { s.view r with
          turn := if (s.view r).listed then .waiting s.ps.bc.selfContained au' else .done
          cached := if au'.keyframe then some au' else (s.view r).cached
          accepted := (s.view r).accepted ++ [au'] }
  | tried (sc : Bool) (au : AccessUnit) (hturn : (s.view r).turn = .waiting sc au) :
      ViewStep s r (.fanout r)
        { s.view r with
          recv := ((s.view r).recv.fanoutTry sc au).1
          turn := if ((s.view r).recv.fanoutTry sc au).2 then .evicting sc au else .done }
  | evicted (sc : Bool) (au : AccessUnit) (hturn : (s.view r).turn = .evicting sc au) :
      ViewStep s r .evict
        { s.view r with recv := (s.view r).recv.fanoutEvict, turn := .resending sc au }
  | resent (sc : Bool) (au : AccessUnit) (hturn : (s.view r).turn = .resending sc au) :
      ViewStep s r .resend
        { s.view r with recv := (s.view r).recv.fanoutResend sc au, turn := .done }
  | subscribed (want : Nat) (hfresh : s.ps.fresh = r) (hturn : (s.view r).turn = .done) :
      ViewStep s r (.subscribe want)
        { s.view r with recv := s.ps.bc.newReceiver (s.ps.bc.capacityFor want), listed := true }
  | unsubscribed : ViewStep s r (.unsubscribe r) { s.view r with listed := false }
  | closed : ViewStep s r (.closeRecv r) { s.view r with recv := (s.view r).recv.close }
  | other (l : FanLabel) (hl : ∀ au, l ≠ .publish au) : ViewStep s r l (s.view r)

namespace Fan

/-- Identifiers were handed out before, and a receiver is served once per flight. -/
structure Ok (s : Fan) : Prop where
  listed : ∀ r ∈ s.ps.bc.receivers, r < s.ps.fresh
  turn : ∀ r, turnOf s.flight r ≠ .done → r < s.ps.fresh
  once : ∀ f ∈ s.flight, ∀ q st, f.current = some (q, st) → q ∉ f.pending

@[simp] theorem turnOf_none (r : ReceiverId) : turnOf none r = .done := rfl

@[simp] theorem turnOf_some (f : Flight) (r : ReceiverId) : turnOf (some f) r = f.turn r := rfl

@[simp] theorem turnOf_settle (f : Flight) (r : ReceiverId) :
    turnOf f.settle r = f.turn r := by
  unfold Flight.settle
  split
  · next h => simp [turnOf, Flight.turn, h.1, h.2]
  · rfl

@[simp] theorem view_setRecv_self (s : Fan) (r : ReceiverId) (x : Receiver) :
    (s.setRecv r x).view r = { s.view r with recv := x } := by
  simp [view, setRecv]

variable {s s' : Fan} {l : FanLabel} {f : Flight} {q : ReceiverId}

theorem view_setRecv_of_ne (s : Fan) {r} (h : r ≠ q) (x : Receiver) :
    (s.setRecv q x).view r = s.view r := by
  simp [view, setRecv, update_of_ne h]

theorem ok_start (bc : Broadcaster) : (start bc).Ok where
  listed := nofun
  turn := fun _ h => absurd rfl h
  once := fun _ h => absurd h (by simp [start])

theorem fanout_view (hf : s.flight = some f)
    (hcur : f.current = none) (hq : q ∈ f.pending) (r : ReceiverId) :
    ViewStep s r (.fanout q) ((s.fanout f q).view r) := by
  have hturn : ∀ r, (s.view r).turn = if r ∈ f.pending then .waiting f.selfContained f.au
      else .done := by
    intro r
    simp [view, hf, Flight.turn, hcur]
  -- The served receiver sees its own section, the others nothing.
  by_cases hr : r = q
  · subst hr
    have hv : (s.view r).turn = .waiting f.selfContained f.au := by rw [hturn, if_pos hq]
    have := ViewStep.tried f.selfContained f.au hv
    convert this using 1
    cases hres : ((s.view r).recv.fanoutTry f.selfContained f.au).2 <;>
      simp_all [view, fanout, recvAt, setRecv, Flight.turn]
  · have : (s.fanout f q).view r = s.view r := by
      have h1 := hturn r
      cases hres : ((s.recvAt q).fanoutTry f.selfContained f.au).2 <;>
        simp_all [view, fanout, recvAt, setRecv, Flight.turn, Ne.symm hr]
    rw [this]
    exact .other _ (by simp)

theorem publish_view (hf : s.flight = none) (au : AccessUnit) (r : ReceiverId) :
    ViewStep s r (.publish au) ((s.publish au).view r) := by
  unfold publish
  rcases hacc : s.ps.bc.accept au with _ | au'
  · exact .rejected au hacc
  · have hturn : (s.view r).turn = .done := by simp [view, hf]
    convert ViewStep.published au au' hacc hturn using 1
    simp [view, Flight.turn, Broadcaster.publishLocked, Broadcaster.replayAppendLocked]

theorem evict_view (hf : s.flight = some f) (hc : f.current = some (q, .evict)) (r : ReceiverId) :
    ViewStep s r .evict ((s.evict f q).view r) := by
  by_cases hr : r = q
  · subst hr
    have hv : (s.view r).turn = .evicting f.selfContained f.au := by
      simp [view, hf, Flight.turn, hc]
    convert ViewStep.evicted f.selfContained f.au hv using 1
    simp [view, evict, setRecv, recvAt, Flight.turn]
  · have : (s.evict f q).view r = s.view r := by
      simp [view, evict, setRecv, hf, Flight.turn, hc, update_of_ne hr,
        Ne.symm hr]
    rw [this]
    exact .other _ (by simp)

theorem resend_view (hok : s.Ok) (hf : s.flight = some f) (hc : f.current = some (q, .resend)) (r : ReceiverId) :
    ViewStep s r .resend ((s.resend f q).view r) := by
  -- Once served, the receiver is not served again by this flight.
  have honce := hok.once f hf q .resend hc
  by_cases hr : r = q
  · subst hr
    have hv : (s.view r).turn = .resending f.selfContained f.au := by
      simp [view, hf, Flight.turn, hc]
    convert ViewStep.resent f.selfContained f.au hv using 1
    simp [view, resend, setRecv, recvAt, Flight.turn, honce]
  · have : (s.resend f q).view r = s.view r := by
      simp [view, resend, setRecv, hf, Flight.turn, hc, update_of_ne hr,
        Ne.symm hr]
    rw [this]
    exact .other _ (by simp)

theorem subscribe_view (hok : s.Ok) (want : Nat) (r : ReceiverId) :
    ViewStep s r (.subscribe want) ((s.subscribe want).view r) := by
  by_cases hr : s.ps.fresh = r
  · have hturn : (s.view r).turn = .done := by
      -- The identifier is new, so no flight can have it in its snapshot.
      by_contra hne
      exact absurd (hok.turn r hne) (by rw [hr]; exact Nat.lt_irrefl _)
    convert ViewStep.subscribed want hr hturn using 1
    subst hr
    simp [view, subscribe, PubSub.subscribeWithCapacity, PubSub.subscribeWithCap]
  · have : (s.subscribe want).view r = s.view r := by
      simp [view, subscribe, PubSub.subscribeWithCapacity, PubSub.subscribeWithCap, Ne.symm hr]
    rw [this]
    exact .other _ (by simp)

theorem unsubscribe_view (s : Fan) (q r : ReceiverId) :
    ViewStep s r (.unsubscribe q) ((s.unsubscribe q).view r) := by
  by_cases hq : q ∈ s.ps.bc.receivers
  · by_cases hr : r = q
    · subst hr
      convert ViewStep.unsubscribed using 1
      simp [view, unsubscribe, hq]
    · have : (s.unsubscribe q).view r = s.view r := by simp [view, unsubscribe, hq, hr]
      rw [this]
      exact .other _ (by simp)
  · have : s.unsubscribe q = s := if_neg hq
    rw [this]
    exact .other _ (by simp)

theorem closeRecv_view (s : Fan) (q r : ReceiverId) :
    ViewStep s r (.closeRecv q) ((s.closeRecv q).view r) := by
  by_cases hr : r = q
  · subst hr
    convert ViewStep.closed using 1
    simp [view, closeRecv, setRecv, recvAt]
  · have : (s.closeRecv q).view r = s.view r := by
      simp [view, closeRecv, setRecv, update_of_ne hr]
    rw [this]
    exact .other _ (by simp)

theorem step_view (hok : s.Ok) (h : s.step l = some s')
    (r : ReceiverId) : ViewStep s r l (s'.view r) := by
  cases step_cases h with
  | publish au hf => exact publish_view hf au r
  | fanout f q hf hcur hq => exact fanout_view hf hcur hq r
  | evict f q hf hcur => exact evict_view hf hcur r
  | resend f q hf hcur => exact resend_view hok hf hcur r
  | subscribe want => exact subscribe_view hok want r
  | unsubscribe q => exact unsubscribe_view s q r
  | closeRecv q _ _ => exact closeRecv_view s q r

/-! ## Invariants of every step -/

theorem fresh_le (h : Step s l s') : s.ps.fresh ≤ s'.ps.fresh := by
  cases h with
  | publish au hf =>
    unfold publish
    split <;> exact Nat.le_refl _
  | subscribe want => exact Nat.le_succ _
  | unsubscribe r =>
    unfold unsubscribe
    split <;> exact Nat.le_refl _
  | _ => exact Nat.le_refl _

theorem once_of_step (hok : s.Ok) (h : Step s l s') :
    ∀ f ∈ s'.flight, ∀ q st, f.current = some (q, st) → q ∉ f.pending := by
  cases h with
  | publish au hf =>
    unfold publish
    split
    · exact hok.once
    · intro f hfl q st hc
      rw [Flight.eq_of_settle hfl] at hc
      cases hc
  | fanout f r hf hcur hr =>
    intro g hg q st hc
    rw [Flight.eq_of_settle hg] at hc ⊢
    split at hc
    · obtain ⟨rfl, -⟩ := Prod.mk.inj (some.inj hc)
      simp
    · cases hc
  | evict f r hf hcur =>
    intro g hg q st hc
    cases hg
    obtain ⟨rfl, -⟩ := Prod.mk.inj (some.inj hc)
    exact hok.once f hf r .evict hcur
  | resend f r hf hcur =>
    intro g hg q st hc
    rw [Flight.eq_of_settle hg] at hc
    cases hc
  | unsubscribe r =>
    unfold unsubscribe
    split <;> exact hok.once
  | _ => exact hok.once

theorem ok_step (hok : s.Ok) (h : s.step l = some s') : s'.Ok := by
  have hfresh := fresh_le (step_cases h)
  have hview := fun r => step_view hok h r
  refine ⟨fun r hr => ?_, fun r hr => ?_, once_of_step hok (step_cases h)⟩
  · have hlisted : (s'.view r).listed = true := by simpa [view] using hr
    have hold : (s.view r).listed = true → r < s'.ps.fresh := by
      intro hl
      exact Nat.lt_of_lt_of_le (hok.listed r (by simpa [view] using hl)) hfresh
    -- A receiver is listed from its subscription on.
    have hv := hview r
    generalize s'.view r = v' at hlisted hv
    cases hv with
    | subscribed want hnew _ =>
      cases h
      exact hnew ▸ Nat.lt_succ_self _
    | unsubscribed => cases hlisted
    | _ => exact hold hlisted
  · have hturn : (s'.view r).turn ≠ .done := hr
    have hold : (s.view r).turn ≠ .done → r < s'.ps.fresh :=
      fun ht => Nat.lt_of_lt_of_le (hok.turn r ht) hfresh
    have hv := hview r
    generalize s'.view r = v' at hturn hv
    cases hv with
    | published au au' _ _ =>
      have hl : (s.view r).listed = true := by
        by_contra hl
        exact hturn (if_neg hl)
      exact Nat.lt_of_lt_of_le (hok.listed r (by simpa [view] using hl)) hfresh
    | tried sc au ht | evicted sc au ht | resent sc au ht => exact hold (by rw [ht]; simp)
    | _ => exact hold hturn

theorem ok_setRecv (hok : s.Ok) (r : ReceiverId) (x : Receiver) :
    (s.setRecv r x).Ok := { hok with }

theorem records_step (hrec : s.ps.bc.Records s.accepted) (h : s.step l = some s') :
    s'.ps.bc.Records s'.accepted ∧ s'.ps.bc.replay.cap = s.ps.bc.replay.cap := by
  -- The record does not depend on who is subscribed.
  have hsame : ∀ rs, ({ s.ps.bc with receivers := rs } : Broadcaster).Records s.accepted :=
    fun _ => { hrec with }
  cases step_cases h with
  | publish au hf =>
    unfold publish
    split
    · exact ⟨hrec, rfl⟩
    · next au' _ => exact hrec.publishLocked au'
  | subscribe want => exact ⟨hsame _, rfl⟩
  | unsubscribe r =>
    unfold unsubscribe
    split
    · exact ⟨hsame _, rfl⟩
    · exact ⟨hrec, rfl⟩
  | _ => exact ⟨hrec, rfl⟩

theorem config_step (h : s.step l = some s') :
    s'.ps.bc.selfContained = s.ps.bc.selfContained ∧ s'.ps.bc.accept = s.ps.bc.accept := by
  cases step_cases h with
  | publish au hf =>
    unfold publish
    split <;> exact ⟨rfl, rfl⟩
  | unsubscribe r =>
    unfold unsubscribe
    split <;> exact ⟨rfl, rfl⟩
  | _ => exact ⟨rfl, rfl⟩

/-- How the history variables change. -/
inductive HistoryStep (s : Fan) : FanLabel → List AccessUnit → List AccessUnit → Prop where
  | rejected (au : AccessUnit) (hacc : s.ps.bc.accept au = none) :
      HistoryStep s (.publish au) (s.published ++ [au]) s.accepted
  | accepted (au au' : AccessUnit) (hacc : s.ps.bc.accept au = some au') :
      HistoryStep s (.publish au) (s.published ++ [au]) (s.accepted ++ [au'])
  | other (l : FanLabel) (hl : ∀ au, l ≠ .publish au) :
      HistoryStep s l s.published s.accepted

theorem history_step (h : s.step l = some s') : HistoryStep s l s'.published s'.accepted := by
  cases step_cases h with
  | publish au hf =>
    unfold publish
    split
    · next hacc => exact .rejected au hacc
    · next au' hacc => exact .accepted au au' hacc
  | unsubscribe r =>
    unfold unsubscribe
    split <;> exact .other _ (by simp)
  | _ => exact .other _ (by simp)

theorem accepted_prefix (h : s.step l = some s') : s.accepted <+: s'.accepted := by
  have hhist := history_step h
  generalize s'.published = p at hhist
  generalize s'.accepted = a at hhist ⊢
  cases hhist with
  | accepted au au' _ => exact List.prefix_append _ _
  | _ => exact List.prefix_rfl

end Fan

end QuicRTC

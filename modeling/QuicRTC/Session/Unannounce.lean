import QuicRTC.Session.Inbound

/-! # Draining an Unannounced Track

An UNANNOUNCE is to end an inbound track after what is buffered. `handleUnannounce` closes `done` of
the entry and removes it from the map. A call that already holds the entry drains it. A later call
makes a new entry and waits there, and what was left in the old one is never read.
-/

namespace QuicRTC

open Wire LTS Function List Option Slots Registry

/-! ## Calls of an entry -/

def RecvPhase.pending : RecvPhase → Bool
  | .returned _ => false
  | _ => true
@[simp] theorem pending_waiting : RecvPhase.waiting.pending = true := rfl
@[simp] theorem pending_ending : RecvPhase.ending.pending = true := rfl
@[simp] theorem pending_returned (result : RecvResult) :
    (RecvPhase.returned result).pending = false := rfl

def RecvPhase.au? : RecvPhase → Option AccessUnit
  | .returned (.au au) => some au
  | _ => none

def pendingOn (calls : List RecvCall) (t : Nat) : Nat :=
  calls.countP (fun c => decide (c.t = t) && c.phase.pending)

def returnedOn (calls : List RecvCall) (t : Nat) : List AccessUnit :=
  calls.filterMap (fun c => if c.t = t then c.phase.au? else none)

theorem pendingOn_snoc (calls : List RecvCall) (track : GoString) (r t : Nat) :
    pendingOn calls t ≤ pendingOn (calls ++ [⟨track, r, .waiting⟩]) t := by
  unfold pendingOn
  rw [countP_append]
  exact Nat.le_add_right _ _

theorem returnedOn_snoc (calls : List RecvCall) (track : GoString) (r t : Nat) :
    returnedOn (calls ++ [⟨track, r, .waiting⟩]) t = returnedOn calls t := by
  unfold returnedOn
  rw [filterMap_append, filterMap_cons_none (by simp [RecvPhase.au?]),
    filterMap_nil, append_nil]

variable {calls : List RecvCall} {i : Nat} {c : RecvCall}

theorem pendingOn_set (h : calls[i]? = some c)
    (hpending : c.phase.pending = true) (result : RecvResult) (t : Nat) :
    pendingOn (calls.set i { c with phase := .returned result }) t + (if c.t = t then 1 else 0) =
      pendingOn calls t := by
  have := countP_set_add h (fun c => decide (c.t = t) && c.phase.pending)
    { c with phase := .returned result }
  simpa [pendingOn, hpending] using this

theorem pendingOn_set_ending
    (h : calls[i]? = some c) (hpending : c.phase.pending = true) (t : Nat) :
    pendingOn (calls.set i { c with phase := .ending }) t = pendingOn calls t := by
  have := countP_set_add h (fun c => decide (c.t = t) && c.phase.pending)
    { c with phase := .ending }
  simpa [pendingOn, hpending] using this

theorem returnedOn_set (h : calls[i]? = some c)
    {phase : RecvPhase} (hphase : phase.au? = c.phase.au?) (t : Nat) :
    returnedOn (calls.set i { c with phase := phase }) t = returnedOn calls t := by
  exact filterMap_set_eq h (by simp [hphase])

theorem au?_of_pending {phase : RecvPhase} (h : phase.pending = true) : phase.au? = none := by
  cases phase with
  | returned r => cases h
  | _ => rfl

/-! ## The invariant -/

namespace Inbound

structure Orderly (tracks : Registry InboundTrack) (calls : List RecvCall)
    (retired : GoString → Bool) : Prop where
  /-- Only open entries. -/
  listed : ∀ n t, tracks.lookup n = some t → (tracks.cell t).done = false
  held : ∀ c ∈ calls, c.t < tracks.created
  /-- Its calls would find it again. -/
  current : ∀ c ∈ calls, (tracks.cell c.t).done = false → tracks.lookup c.track = some c.t
  ending : ∀ c ∈ calls, c.phase = .ending → (tracks.cell c.t).done = true
  /-- After everything that was sent. -/
  eof : ∀ c ∈ calls, c.phase = .returned .eof →
               (tracks.cell c.t).done = true ∧ (tracks.cell c.t).ch.buf = []
  /-- What is left in a closed entry has calls that will read it. -/
  queued : ∀ t < tracks.created, (tracks.cell t).done = true →
               (tracks.cell t).ch.buf.length ≤ pendingOn calls t
  retired : ∀ c ∈ calls, retired c.track = true → c.phase.pending = true →
               (tracks.cell c.t).done = true
  returned : ∀ t < tracks.created, (returnedOn calls t).Perm (tracks.cell t).ch.got

namespace Orderly

variable {tracks : Registry InboundTrack} {calls : List RecvCall} {retired : GoString → Bool}

theorem returnedOn_created (h : Orderly tracks calls retired) :
    returnedOn calls tracks.created = [] := by
  apply filterMap_eq_nil_iff.mpr
  intro c hc
  rw [if_neg (Nat.ne_of_lt (h.held c hc))]

variable {name : GoString} {i : Nat} {c : RecvCall}

section

variable (h : Orderly tracks calls retired)
include h

theorem add (hname : tracks.lookup name = none) :
    Orderly (tracks.add name (.fresh name)) calls retired := by
  -- the calls hold older entries, which stay as they are
  have hcell : ∀ c ∈ calls, (tracks.add name (.fresh name)).cell c.t = tracks.cell c.t :=
    fun c hc => cell_add_of_lt _ _ _ (h.held c hc)
  refine ⟨fun n t hn => ?_, fun c hc => Nat.lt_succ_of_lt (h.held c hc), fun c hc hopen => ?_,
    fun c hc => ?_, fun c hc => ?_, fun t ht => ?_, fun c hc => ?_, fun t ht => ?_⟩
  · rcases lookup_add_eq_some_iff.mp hn with ⟨-, rfl⟩ | ⟨-, hold⟩
    · rw [cell_add_created]
      rfl
    · rw [cell_add_of_lt _ _ _ (lookup_lt hold)]
      exact h.listed n t hold
  · rw [hcell c hc] at hopen
    exact lookup_add_of_some hname (h.current c hc hopen)
  · rw [hcell c hc]
    exact h.ending c hc
  · rw [hcell c hc]
    exact h.eof c hc
  · rcases Nat.lt_succ_iff_lt_or_eq.mp ht with hlt | rfl
    · rw [cell_add_of_lt _ _ _ hlt]
      exact h.queued t hlt
    · rw [cell_add_created]
      exact fun hdone => absurd hdone Bool.false_ne_true
  · rw [hcell c hc]
    exact h.retired c hc
  · rcases Nat.lt_succ_iff_lt_or_eq.mp ht with hlt | rfl
    · rw [cell_add_of_lt _ _ _ hlt]
      exact h.returned t hlt
    · rw [cell_add_created, h.returnedOn_created]
      exact Perm.refl _

theorem getOrAdd (name : GoString) :
    Orderly (tracks.getOrAdd name (.fresh name)).2 calls retired := by
  cases hname : tracks.lookup name with
  | none =>
    rw [getOrAdd_of_none _ hname]
    exact h.add hname
  | some r =>
    rw [getOrAdd_of_some _ hname]
    exact h

theorem congr {tracks' : Registry InboundTrack} (hcreated : tracks'.created = tracks.created)
    (hlookup : ∀ n, tracks'.lookup n = tracks.lookup n)
    (hdone : ∀ t, (tracks'.cell t).done = (tracks.cell t).done)
    (hch : ∀ t, (tracks'.cell t).ch = (tracks.cell t).ch) : Orderly tracks' calls retired := by
  constructor
  · simpa only [hlookup, hdone] using h.listed
  · simpa only [hcreated] using h.held
  · simpa only [hlookup, hdone] using h.current
  · simpa only [hdone] using h.ending
  · simpa only [hdone, hch] using h.eof
  · simpa only [hcreated, hdone, hch] using h.queued
  · simpa only [hdone] using h.retired
  · simpa only [hcreated, hch] using h.returned

theorem record (a : Announce) (t : Nat) (authorized : Bool) :
    Orderly (tracks.modify t (·.record a authorized)) calls
      (update retired a.name false) := by
  have h' : Orderly (tracks.modify t (·.record a authorized)) calls retired :=
    h.congr rfl (fun _ => rfl) (cell_modify_congr InboundTrack.done rfl) (cell_modify_congr InboundTrack.ch rfl)
  refine ⟨h'.listed, h'.held, h'.current, h'.ending, h'.eof, h'.queued, ?_, h'.returned⟩
  intro c hc hretired
  by_cases hname : c.track = a.name
  · rw [hname, update_self] at hretired
    cases hretired
  · rw [update_of_ne hname] at hretired
    exact h'.retired c hc hretired

theorem send {t au e} (hopen : (tracks.cell t).done = false)
    (hsend : (tracks.cell t).send au = some e) :
    Orderly (tracks.modify t (fun _ => e)) calls retired := by
  obtain ⟨-, -, hdone, hgot⟩ := InboundTrack.send_spec hsend
  have hsame : ∀ r, ((tracks.modify t (fun _ => e)).cell r).done = (tracks.cell r).done :=
    cell_modify_congr InboundTrack.done hdone
  -- closed entries are other entries
  have hclosed : ∀ r, (tracks.cell r).done = true →
      (tracks.modify t (fun _ => e)).cell r = tracks.cell r := by
    intro r hr
    apply cell_modify_of_ne
    rintro rfl
    exact absurd (hr.symm.trans hopen) (by decide)
  refine ⟨fun n r hn => ?_, h.held, fun c hc hc' => ?_, fun c hc hp => ?_, fun c hc hp => ?_,
    fun r hr hd => ?_, fun c hc hret hp => ?_, fun r hr => ?_⟩
  · rw [hsame]
    exact h.listed n r hn
  · rw [hsame] at hc'
    exact h.current c hc hc'
  · rw [hsame]
    exact h.ending c hc hp
  · rw [hclosed c.t (h.eof c hc hp).1]
    exact h.eof c hc hp
  · rw [hsame] at hd
    rw [hclosed r hd]
    exact h.queued r hr hd
  · rw [hsame]
    exact h.retired c hc hret hp
  · have hkept : ((tracks.modify t (fun _ => e)).cell r).ch.got = (tracks.cell r).ch.got :=
      cell_modify_congr (fun e : InboundTrack => e.ch.got) hgot r
    rw [hkept]
    exact h.returned r hr

theorem unannounce {t} (ht : tracks.lookup name = some t)
    (hqueued : (tracks.cell t).ch.buf.length ≤ pendingOn calls t) :
    Orderly ((tracks.modify t (·.close)).remove name) calls
      (update retired name true) := by
  have hdone : ∀ r, (((tracks.modify t (·.close)).remove name).cell r).done =
      if r = t then true else (tracks.cell r).done := by
    intro r
    rw [cell_remove, cell_modify]
    split <;> rfl
  have hclosed : ∀ r, (tracks.cell r).done = true →
      (((tracks.modify t (·.close)).remove name).cell r).done = true := by
    intro r hr
    rw [hdone]
    split
    · rfl
    · exact hr
  have hch : ∀ r, (((tracks.modify t (·.close)).remove name).cell r).ch = (tracks.cell r).ch :=
    cell_modify_congr InboundTrack.ch rfl
  refine ⟨fun n r hn => ?_, h.held, fun c hc hopen => ?_, fun c hc hp => hclosed _ (h.ending c hc hp),
    fun c hc hp => ?_, fun r hr hd => ?_, fun c hc hret hp => ?_, fun r hr => ?_⟩
  · obtain ⟨hne, hold⟩ := lookup_remove_eq_some_iff.mp hn
    have hrt : r ≠ t := by
      rintro rfl
      exact hne (lookup_inj hold ht)
    rw [hdone, if_neg hrt]
    exact h.listed n r hold
  · rw [hdone] at hopen
    split at hopen
    · cases hopen
    · next hne =>
      have hold := h.current c hc hopen
      refine lookup_remove_eq_some_iff.mpr ⟨fun heq => ?_, hold⟩
      rw [heq, ht] at hold
      exact hne (some.inj hold).symm
  · obtain ⟨hd, hbuf⟩ := h.eof c hc hp
    exact ⟨hclosed _ hd, (hch c.t).symm ▸ hbuf⟩
  · rw [hch]
    rw [hdone] at hd
    split at hd
    · next heq => exact heq ▸ hqueued
    · exact h.queued r hr hd
  · by_cases hname : c.track = name
    · -- an open entry of this name would be the one just closed
      cases hd : (tracks.cell c.t).done with
      | true => exact hclosed _ hd
      | false =>
        have hold := h.current c hc hd
        rw [hname, ht] at hold
        rw [hdone, if_pos (some.inj hold).symm]
    · rw [update_of_ne hname] at hret
      exact hclosed _ (h.retired c hc hret hp)
  · rw [hch]
    exact h.returned r hr

theorem unannounce_absent (hname : tracks.lookup name = none) :
    Orderly tracks calls (update retired name true) := by
  refine { h with retired := ?_ }
  intro c hc hret hp
  by_cases heq : c.track = name
  · cases hd : (tracks.cell c.t).done with
    | true => rfl
    | false => exact absurd ((heq ▸ h.current c hc hd).symm.trans hname) (some_ne_none _)
  · rw [update_of_ne heq] at hret
    exact h.retired c hc hret hp

theorem recv {track r} (hr : tracks.lookup track = some r) (hretired : retired track = false) :
    Orderly tracks (calls ++ [⟨track, r, .waiting⟩]) retired where
  listed := h.listed
  held := forall_mem_snoc h.held (lookup_lt hr)
  current := forall_mem_snoc h.current (fun _ => hr)
  ending := forall_mem_snoc h.ending (fun hp => RecvPhase.noConfusion hp)
  eof := forall_mem_snoc h.eof (fun hp => RecvPhase.noConfusion hp)
  queued := fun t ht hd => (h.queued t ht hd).trans (pendingOn_snoc calls track r t)
  retired := forall_mem_snoc h.retired
                (fun hret => absurd (hret.symm.trans hretired) (by decide))
  returned := fun t ht => by
    rw [returnedOn_snoc]
    exact h.returned t ht

theorem seeDone (hc : calls[i]? = some c) (hwait : c.phase = .waiting)
    (hdone : (tracks.cell c.t).done = true) :
    Orderly tracks (calls.set i { c with phase := .ending }) retired := by
  have hpending : c.phase.pending = true := by rw [hwait]; rfl
  have hmem := mem_of_getElem? hc
  refine ⟨h.listed, forall_mem_set h.held (h.held c hmem),
    forall_mem_set h.current (h.current c hmem), forall_mem_set h.ending (fun _ => hdone),
    forall_mem_set h.eof (fun hp => RecvPhase.noConfusion hp), fun t ht hd => ?_,
    forall_mem_set h.retired (fun _ _ => hdone), fun t ht => ?_⟩
  · rw [pendingOn_set_ending hc hpending]
    exact h.queued t ht hd
  · rw [returnedOn_set hc (by rw [hwait]; rfl)]
    exact h.returned t ht

theorem giveUp {result} (hc : calls[i]? = some c) (hpending : c.phase.pending = true)
    (hau : (RecvPhase.returned result).au? = none)
    (heof : result = .eof → (tracks.cell c.t).done = true ∧ (tracks.cell c.t).ch.buf = [])
    (hleft : (tracks.cell c.t).done = true →
      (tracks.cell c.t).ch.buf = [] ∨ (tracks.cell c.t).ch.buf.length < pendingOn calls c.t) :
    Orderly tracks (calls.set i { c with phase := .returned result }) retired := by
  have hmem := mem_of_getElem? hc
  refine ⟨h.listed, forall_mem_set h.held (h.held c hmem),
    forall_mem_set h.current (h.current c hmem),
    forall_mem_set h.ending (fun hp => RecvPhase.noConfusion hp),
    forall_mem_set h.eof (fun hp => heof (RecvPhase.returned.inj hp)), fun t ht hd => ?_,
    forall_mem_set h.retired (fun _ hp => absurd hp Bool.false_ne_true), fun t ht => ?_⟩
  · have hcount := pendingOn_set hc hpending result t
    have hold := h.queued t ht hd
    split at hcount
    · next heq =>
      subst heq
      rcases hleft hd with hnil | hlt
      · rw [hnil]
        exact Nat.zero_le _
      · omega
    · omega
  · rw [returnedOn_set hc (hau.trans (au?_of_pending hpending).symm)]
    exact h.returned t ht

theorem handOver {au e} (hc : calls[i]? = some c) (hpending : c.phase.pending = true)
    (hrecv : (tracks.cell c.t).receive = some (au, e)) :
    Orderly (tracks.modify c.t (fun _ => e)) (calls.set i { c with phase := .returned (.au au) })
      retired := by
  obtain ⟨-, -, hdone, hgot, hbuf⟩ := InboundTrack.receive_spec hrecv
  have hmem := mem_of_getElem? hc
  have hsame : ∀ r, ((tracks.modify c.t (fun _ => e)).cell r).done = (tracks.cell r).done :=
    cell_modify_congr InboundTrack.done hdone
  constructor
  · simpa only [lookup_modify, hsame] using h.listed
  · exact forall_mem_set h.held (h.held c hmem)
  · refine forall_mem_set (fun c' hc' => ?_) ?_
    · simpa only [lookup_modify, hsame] using h.current c' hc'
    · simpa only [lookup_modify, hsame] using h.current c hmem
  · refine forall_mem_set (fun c' hc' => ?_) (fun hp => RecvPhase.noConfusion hp)
    simpa only [hsame] using h.ending c' hc'
  · refine forall_mem_set (fun c' hc' hp => ?_) nofun
    -- nobody has been told that this entry is at its end: it was not empty
    have hne : c'.t ≠ c.t := by
      intro heq
      have hnil := (h.eof c' hc' hp).2
      rw [heq, hbuf] at hnil
      cases hnil
    rw [cell_modify_of_ne _ _ hne]
    exact h.eof c' hc' hp
  · intro t ht hd
    have hcount := pendingOn_set hc hpending (.au au) t
    rw [hsame] at hd
    have hold := h.queued t ht hd
    rw [cell_modify]
    split at hcount
    · next heq =>
      subst heq
      rw [if_pos rfl]
      rw [hbuf, length_cons] at hold
      omega
    · next hne =>
      rw [if_neg (Ne.symm hne)]
      omega
  · refine forall_mem_set (fun c' hc' => ?_) (fun _ hp => absurd hp Bool.false_ne_true)
    simpa only [hsame] using h.retired c' hc'
  · intro t ht
    rw [cell_modify]
    split
    · next heq =>
      subst heq
      rw [hgot]
      refine (filterMap_set_perm hc ?_ ?_).trans ((h.returned c.t ht).append_right [au])
      · rw [if_pos rfl, au?_of_pending hpending]
      · rw [if_pos rfl]
        rfl
    · next hne =>
      have hother : returnedOn (calls.set i { c with phase := .returned (.au au) }) t =
          returnedOn calls t := by
        exact filterMap_set_eq hc (by rw [if_neg (Ne.symm hne), if_neg (Ne.symm hne)])
      rw [hother]
      exact h.returned t ht

end

end Orderly

/-! ## Runs that drain -/

/-- An UNANNOUNCE comes when enough calls are pending to read what is buffered, and stays
    so: no call begins before the next ANNOUNCE, no stream sends to the closed entry, and a
    call is cancelled only if the others can read the rest. -/
def drainable (s : Inbound) : Step → Bool
  | .unannounce u =>
    match s.inboundTracks.lookup u.name with
    | none => true
    | some t => decide ((s.inboundTracks.cell t).ch.buf.length ≤ pendingOn s.calls t)
  | .recv track => !s.retired track
  | .enqueue i _ =>
    match s.drains[i]? with
    | some (.draining _ t) => !(s.inboundTracks.cell t).done
    | _ => true
  | .cancel i =>
    match s.calls[i]? with
    | some c => !(s.inboundTracks.cell c.t).done ||
                  decide ((s.inboundTracks.cell c.t).ch.buf.length < pendingOn s.calls c.t)
    | none => true
  | _ => true

variable {s : Inbound} {i : Nat} {c : RecvCall}

theorem orderly_handleAnnounce (h : Orderly s.inboundTracks s.calls s.retired)
    (a : Announce) (verdict : Option GoString) :
    Orderly (s.handleAnnounce a verdict).inboundTracks (s.handleAnnounce a verdict).calls
      (s.handleAnnounce a verdict).retired := by
  have hlookup : ∀ t tracks, inboundTrackChanWire s.inboundTracks a.name = some (t, tracks) →
      Orderly tracks s.calls s.retired := by
    intro t tracks hwire
    obtain ⟨-, rfl⟩ := Prod.mk.inj (inboundTrackChanWire_spec hwire)
    exact h.getOrAdd a.name
  unfold handleAnnounce
  split
  · split
    · exact h
    · next hwire => exact hlookup _ _ hwire
  · split
    · exact h
    · next hwire => exact hlookup _ _ hwire

theorem orderly_step {s' st} (h : Orderly s.inboundTracks s.calls s.retired)
    (hok : s.drainable st = true) (hstep : Effect s st s') :
    Orderly s'.inboundTracks s'.calls s'.retired := by
  cases hstep with
  | announce => exact orderly_handleAnnounce h _ _
  | record => exact h.record _ _ _
  | @unannounce u =>
    unfold handleUnannounce
    split
    · next hnone => exact h.unannounce_absent hnone
    · next t ht =>
      simp only [drainable, ht] at hok
      exact h.unannounce ht (of_decide_eq_true hok)
  | gate =>
    unfold Inbound.gate
    split <;> exact h
  | lookup =>
    unfold lookupTrack
    split
    · exact h
    · next hwire =>
      obtain ⟨-, rfl⟩ := Prod.mk.inj (inboundTrackChanWire_spec hwire)
      exact h.getOrAdd _
  | enqueue hdrain hsent =>
    simp only [drainable, hdrain, Bool.not_eq_true'] at hok
    exact h.send hok hsent
  | @recv track =>
    have hretired : s.retired track = false := by simpa [drainable] using hok
    exact (h.getOrAdd track).recv (lookup_getOrAdd _ _ _) hretired
  | take hc hwait hrecv => exact h.handOver hc (by rw [hwait]; rfl) hrecv
  | drained hc hend hrecv => exact h.handOver hc (by rw [hend]; rfl) hrecv
  | seeDone hc hwait hdone => exact h.seeDone hc hwait hdone
  | ended hc hend hempty =>
    have hnil := InboundTrack.receive_eq_none_iff.mp hempty
    have hdone := h.ending _ (mem_of_getElem? hc) hend
    exact h.giveUp hc (by rw [hend]; rfl) rfl (fun _ => ⟨hdone, hnil⟩) (fun _ => .inl hnil)
  | cancel hc hwait =>
    refine h.giveUp hc (by rw [hwait]; rfl) rfl nofun (fun hdone => .inr ?_)
    simpa [drainable, hc, hdone] using hok
  | _ => exact h

theorem orderly_of_reachable {gated} :
    ∀ s, Reachable ((inboundSystem gated).restrict (fun s st => s.drainable st = true)) s →
      Orderly s.inboundTracks s.calls s.retired := by
  refine invariant_restrict _ ⟨fun _ _ h => absurd h (some_ne_none _).symm, nofun, nofun, nofun,
    nofun, fun _ ht => absurd ht (Nat.not_lt_zero _), nofun,
    fun _ ht => absurd ht (Nat.not_lt_zero _)⟩ ?_
  intro s st s' _ h hok hstep
  exact orderly_step h hok (effect_of_next hstep)

/-! ## Draining, then the end -/

def nextResult (e : InboundTrack) : RecvResult :=
  match e.ch.buf with
  | [] => .eof
  | au :: _ => .au au

def ownSteps (i : Nat) : RecvPhase → List Step
  | .waiting => [.seeDone i, .drainOrEnd i]
  | .ending => [.drainOrEnd i]
  | .returned _ => []

/-- By its own steps the call returns the next unit of its entry, or `io.EOF`. -/
def Returns (s : Inbound) (i : Nat) (c : RecvCall) : Prop :=
  ∃ s', run next (fun _ _ => true) s (ownSteps i c.phase) = some s' ∧
    s'.calls[i]? = some { c with phase := .returned (nextResult (s.inboundTracks.cell c.t)) }

theorem calls_setPhase (hc : s.calls[i]? = some c)
    (phase : RecvPhase) : (s.setPhase i c phase).calls[i]? = some { c with phase := phase } := by
  exact getElem?_set_some hc

theorem calls_drainOrEnd (hc : s.calls[i]? = some c) :
    (s.drainOrEnd i c).calls[i]? =
      some { c with phase := .returned (nextResult (s.inboundTracks.cell c.t)) } := by
  unfold drainOrEnd
  split
  · next hnone =>
    have hnil := InboundTrack.receive_eq_none_iff.mp (take_eq_none_iff.mp hnone)
    rw [calls_setPhase hc, nextResult, hnil]
  · next htake =>
    obtain ⟨au, e, hrecv, rfl⟩ := take_eq_some_iff.mp htake
    have hbuf := (InboundTrack.receive_spec hrecv).2.2.2.2
    rw [nextResult, hbuf]
    exact calls_setPhase hc _

theorem returns_of_done (hc : s.calls[i]? = some c)
    (hpending : c.phase.pending = true) (hdone : (s.inboundTracks.cell c.t).done = true) :
    Returns s i c := by
  cases hp : c.phase with
  | returned result =>
    rw [hp] at hpending
    cases hpending
  | ending =>
    refine ⟨s.drainOrEnd i c, ?_, calls_drainOrEnd hc⟩
    simp [ownSteps, run, next, hc, hp]
  | waiting =>
    have hc' := calls_setPhase hc .ending
    refine ⟨(s.setPhase i c .ending).drainOrEnd i { c with phase := .ending }, ?_,
      calls_drainOrEnd hc'⟩
    simp [ownSteps, run, next, hc, hp, hdone, hc']

structure DrainsThenEnds (s : Inbound) : Prop where
  inOrder : ∀ t < s.inboundTracks.created,
               (returnedOn s.calls t).Perm (s.inboundTracks.cell t).ch.got ∧
               (s.inboundTracks.cell t).ch.got <+: (s.inboundTracks.cell t).ch.sent
  eofLast : ∀ c ∈ s.calls, c.phase = .returned .eof →
               (s.inboundTracks.cell c.t).done = true ∧
               (s.inboundTracks.cell c.t).ch.got = (s.inboundTracks.cell c.t).ch.sent
  /-- When no call waits on a closed entry, nothing was lost. -/
  complete : ∀ t < s.inboundTracks.created, (s.inboundTracks.cell t).done = true →
               pendingOn s.calls t = 0 →
               (s.inboundTracks.cell t).ch.got = (s.inboundTracks.cell t).ch.sent
  ends : ∀ i c, s.calls[i]? = some c → s.retired c.track = true → c.phase.pending = true →
               Returns s i c

/-- **Unannounce.** In every run that stays drainable, an unannounced track is drained and
    then ends. -/
theorem unannounce_drains {gated : Bool} {s : Inbound}
    (h : Reachable ((inboundSystem gated).restrict (fun s st => s.drainable st = true)) s) :
    DrainsThenEnds s := by
  have ho := orderly_of_reachable s h
  refine ⟨fun t ht => ⟨ho.returned t ht, LoggedChan.got_prefix _⟩, fun c hc hp => ?_,
    fun t ht hd hnone => ?_, fun i c hc hret hp => ?_⟩
  · obtain ⟨hdone, hnil⟩ := ho.eof c hc hp
    exact ⟨hdone, LoggedChan.got_eq_sent hnil⟩
  · have hlen := ho.queued t ht hd
    rw [hnone] at hlen
    exact LoggedChan.got_eq_sent (length_eq_zero_iff.mp (Nat.le_zero.mp hlen))
  · exact returns_of_done hc hp (ho.retired c (mem_of_getElem? hc) hret hp)

/-- Two calls get the one buffered unit and the end. -/
def twoReaders : List Step :=
  [.announce ⟨str "cam", str "video", []⟩ none, .record, .stream (str "cam"), .gate 0, .lookup 0,
    .recv (str "cam"), .recv (str "cam"), .enqueue 0 ⟨typeKeyframe, 0, 1, 0, 0, []⟩, .unannounce ⟨str "cam"⟩,
    .seeDone 0, .seeDone 1, .drainOrEnd 1, .drainOrEnd 0]

theorem unannounce_drains_twoReaders :
    ∃ s, Reachable ((inboundSystem false).restrict (fun s st => s.drainable st = true)) s ∧
      s.calls.map RecvCall.phase = [.returned .eof, .returned (.au (.bare true 1))] ∧
      DrainsThenEnds s :=
  exists_run_given_imp twoReaders (fun s hs (hp : s.calls.map RecvCall.phase =
    [.returned .eof, .returned (.au (.bare true 1))]) => ⟨hp, unannounce_drains hs⟩) (by decide)

/-- `InboundRecv` is called after the UNANNOUNCE. -/
def lateReader : List Step :=
  [.announce ⟨str "cam", str "video", []⟩ none, .record, .stream (str "cam"), .gate 0, .lookup 0,
    .enqueue 0 ⟨typeKeyframe, 0, 1, 0, 0, []⟩, .unannounce ⟨str "cam"⟩, .recv (str "cam")]

/-- The call waits on a new entry: it gets neither the buffered unit nor `io.EOF`. -/
theorem lateReader_blocked :
    ∃ s, Reachable (inboundSystem false) s ∧ s.retired (str "cam") = true ∧
      s.calls = [⟨str "cam", 1, .waiting⟩] ∧ next s (.take 0) = none ∧ next s (.seeDone 0) = none ∧
      (s.inboundTracks.cell 0).ch.buf = [.bare true 1] ∧ ¬ DrainsThenEnds s := by
  refine exists_run_imp lateReader (fun s hs (hp : s.retired (str "cam") = true ∧
    s.calls = [⟨str "cam", 1, .waiting⟩] ∧ next s (.take 0) = none ∧ next s (.seeDone 0) = none ∧
    (s.inboundTracks.cell 0).ch.buf = [.bare true 1]) => ?_) (by decide)
  obtain ⟨hret, hcalls, htake, hsee, hbuf⟩ := hp
  refine ⟨hret, hcalls, htake, hsee, hbuf, fun h => ?_⟩
  obtain ⟨s', hrun, -⟩ := h.ends 0 ⟨str "cam", 1, .waiting⟩ (by rw [hcalls]; rfl) hret rfl
  simp [ownSteps, run, hsee] at hrun

end Inbound

end QuicRTC

import QuicRTC.Client.Client

/-! # Where Access Units Come From

An access unit that `RecvOn(n)` returns was decoded from a stream of track `n`. This leaves the
returns that do not come from a queue. They carry the zero access unit and what was in the slot of
`feedErr`. A CLOSE frame puts nil there, and then such a return looks like data.
-/

namespace QuicRTC

open Wire List Option Registry

namespace Client

/-! ## Holders of queues -/

def Holds (tracks : Registry TrackQueue) (track : GoString) (q : Nat) : Prop :=
  q < tracks.created ∧ (tracks.cell q).name = track

theorem holds_add {tracks track q} (name : GoString) (h : Holds tracks track q) :
    Holds (tracks.add name (.fresh name)) track q :=
  ⟨Nat.lt_succ_of_lt h.1, by rw [cell_add_of_lt _ _ _ h.1, h.2]⟩

theorem holds_getOrAdd {tracks track q} (name : GoString) (h : Holds tracks track q) :
    Holds (tracks.getOrAdd name (.fresh name)).2 track q := by
  cases hname : tracks.lookup name with
  | some r =>
    rw [getOrAdd_of_some _ hname]
    exact h
  | none =>
    rw [getOrAdd_of_none _ hname]
    exact holds_add name h

/-- What a drain holds belongs to its track. -/
def DrainOk (c : Client) : FeedDrain → Prop
  | .opened _ => True
  | .reading track q => Holds c.tracks track q
  | .holding track q au => Holds c.tracks track q ∧ (track, au) ∈ c.decoded
  | .stopped => True

/-- What a call has received or returned was decoded from a stream of its track. -/
def PhaseOk (c : Client) (track : GoString) : RecvOnPhase → Prop
  | .taken au => (track, au) ∈ c.decoded
  | .returned au none => (track, au) ∈ c.decoded
  | _ => True

def CallOk (c : Client) (call : RecvOnCall) : Prop :=
  Holds c.tracks call.track call.q ∧ PhaseOk c call.track call.phase

theorem DrainOk.mono {c' : Client} {c d} (h : DrainOk c d)
    (hholds : ∀ track q, Holds c.tracks track q → Holds c'.tracks track q)
    (hdecoded : ∀ x ∈ c.decoded, x ∈ c'.decoded) : DrainOk c' d := by
  cases d with
  | reading track q => exact hholds track q h
  | holding track q au => exact ⟨hholds track q h.1, hdecoded _ h.2⟩
  | _ => trivial

theorem CallOk.mono {c' : Client} {c call} (h : CallOk c call)
    (hholds : ∀ track q, Holds c.tracks track q → Holds c'.tracks track q)
    (hdecoded : ∀ x ∈ c.decoded, x ∈ c'.decoded) : CallOk c' call := by
  obtain ⟨track, q, phase⟩ := call
  refine ⟨hholds track q h.1, ?_⟩
  cases phase with
  | taken au => exact hdecoded _ h.2
  | returned au err =>
    cases err with
    | none => exact hdecoded _ h.2
    | some e => trivial
  | _ => trivial

/-! ## The invariant -/

structure Sourced (c : Client) : Prop where
  slot : c.feedErr ≠ some none
  listed : ∀ n q, c.tracks.lookup n = some q → (c.tracks.cell q).name = n
  queued : ∀ q < c.tracks.created, ∀ au ∈ (c.tracks.cell q).ch.buf,
             ((c.tracks.cell q).name, au) ∈ c.decoded
  drains : ∀ d ∈ c.drains, DrainOk c d
  calls : ∀ call ∈ c.calls, CallOk c call

def slotTaken (c : Client) : Step → Bool
  | .closeFrame => c.feedErr.isSome
  | _ => true

namespace Sourced

variable {c : Client}

theorem init : Sourced start := by
  refine ⟨(some_ne_none _).symm, fun n q hn => ?_, fun q hq au hau => ?_,
    nofun, nofun⟩
  · rcases lookup_add_eq_some_iff.mp hn with ⟨rfl, rfl⟩ | ⟨-, hold⟩
    · rfl
    · cases hold
  · obtain rfl : q = 0 := Nat.lt_one_iff.mp hq
    cases hau

section

variable (h : Sourced c)
include h

theorem frame {c' : Client} (htracks : c'.tracks = c.tracks) (hdecoded : c'.decoded = c.decoded)
    (hslot : c'.feedErr ≠ some none) (hdrains : ∀ d ∈ c'.drains, d ∈ c.drains ∨ DrainOk c d)
    (hcalls : ∀ call ∈ c'.calls, call ∈ c.calls ∨ CallOk c call) : Sourced c' := by
  have hholds : ∀ track q, Holds c.tracks track q → Holds c'.tracks track q :=
    fun track q hq => htracks ▸ hq
  have hmem : ∀ x ∈ c.decoded, x ∈ c'.decoded := fun x hx => hdecoded ▸ hx
  refine ⟨hslot, ?_, ?_, fun d hd => ?_, fun call hcall => ?_⟩
  · rw [htracks]
    exact h.listed
  · rw [htracks, hdecoded]
    exact h.queued
  · exact ((hdrains d hd).elim (h.drains d) id).mono hholds hmem
  · exact ((hcalls call hcall).elim (h.calls call) id).mono hholds hmem

theorem same {c' : Client} (htracks : c'.tracks = c.tracks) (hdecoded : c'.decoded = c.decoded)
    (hslot : c'.feedErr = c.feedErr) (hdrains : c'.drains = c.drains) (hcalls : c'.calls = c.calls) :
    Sourced c' :=
  h.frame htracks hdecoded (hslot ▸ h.slot) (fun _ hd => .inl (hdrains ▸ hd))
    (fun _ hcall => .inl (hcalls ▸ hcall))

theorem trackChan (name : GoString) :
    Sourced (c.trackChan name).2 ∧
      Holds (c.trackChan name).2.tracks name (c.trackChan name).1 := by
  have hholds : ∀ track q, Holds c.tracks track q → Holds (c.trackChan name).2.tracks track q :=
    fun track q => holds_getOrAdd name
  have hcalls : ∀ call ∈ c.calls, CallOk (c.trackChan name).2 call :=
    fun call hcall => (h.calls call hcall).mono hholds (fun _ hx => hx)
  have hdrains : ∀ d ∈ c.drains, DrainOk (c.trackChan name).2 d :=
    fun d hd => (h.drains d hd).mono hholds (fun _ hx => hx)
  cases hname : c.tracks.lookup name with
  | some r =>
    have heq : c.trackChan name = (r, c) := by
      simp only [Client.trackChan, getOrAdd_of_some _ hname]
    rw [heq]
    exact ⟨h, lookup_lt hname, h.listed name r hname⟩
  | none =>
    have htracks : (c.trackChan name).2.tracks = c.tracks.add name (.fresh name) := by
      simp only [Client.trackChan, getOrAdd_of_none _ hname]
    have hnew : (c.trackChan name).1 = c.tracks.created := by
      simp only [Client.trackChan, getOrAdd_of_none _ hname]
    refine ⟨⟨h.slot, fun n q hn => ?_, fun q hq au hau => ?_, hdrains, hcalls⟩, ?_⟩
    · rw [htracks] at hn ⊢
      rcases lookup_add_eq_some_iff.mp hn with ⟨rfl, rfl⟩ | ⟨-, hold⟩
      · rw [cell_add_created]
        rfl
      · rw [cell_add_of_lt _ _ _ (lookup_lt hold)]
        exact h.listed n q hold
    · rw [htracks] at hq hau ⊢
      rcases Nat.lt_succ_iff_lt_or_eq.mp hq with hlt | rfl
      · rw [cell_add_of_lt _ _ _ hlt] at hau ⊢
        exact h.queued q hlt au hau
      · rw [cell_add_created] at hau
        cases hau
    · rw [htracks, hnew]
      exact ⟨Nat.lt_succ_self _, by rw [cell_add_created]; rfl⟩

theorem setQueue {q} {ch : LoggedChan AccessUnit}
    (hch : ∀ au ∈ ch.buf, ((c.tracks.cell q).name, au) ∈ c.decoded) :
    Sourced (c.setQueue q ch) := by
  have hholds : ∀ track r, Holds c.tracks track r → Holds (c.setQueue q ch).tracks track r :=
    fun track r hr => ⟨hr.1, (name_setQueue c q r ch).trans hr.2⟩
  refine ⟨h.slot, fun n r hn => ?_, fun r hr au hau => ?_,
    fun d hd => (h.drains d hd).mono hholds (fun _ hx => hx),
    fun call hcall => (h.calls call hcall).mono hholds (fun _ hx => hx)⟩
  · rw [name_setQueue]
    exact h.listed n r hn
  · rw [name_setQueue]
    rw [ch_setQueue] at hau
    split at hau
    · next heq => exact heq ▸ hch au hau
    · exact h.queued r hr au hau

theorem setPhase {i call phase} (hget : c.calls[i]? = some call)
    (hphase : PhaseOk c call.track phase) : Sourced (c.setPhase i call phase) := by
  refine h.frame rfl rfl h.slot (fun _ hd => .inl hd) (fun call' hcall' => ?_)
  rcases mem_or_eq_of_mem_set hcall' with hold | rfl
  · exact .inl hold
  · exact .inr ⟨(h.calls call (mem_of_getElem? hget)).1, hphase⟩

theorem setDrain (i : Nat) {d} (hd : DrainOk c d) : Sourced (c.setDrain i d) := by
  refine h.frame rfl rfl h.slot (fun d' hd' => ?_) (fun _ hcall => .inl hcall)
  rcases mem_or_eq_of_mem_set hd' with hold | rfl
  · exact .inl hold
  · exact .inr hd

theorem fail {err} (hslot : c.feedErr = none → err ≠ none) : Sourced (c.fail err) := by
  refine h.frame rfl rfl (fun hnil => ?_) (fun _ hd => .inl hd) (fun _ hcall => .inl hcall)
  have hnone : c.feedErr.getD err = none := some.inj hnil
  cases hfree : c.feedErr with
  | none =>
    rw [hfree] at hnone
    exact hslot hfree hnone
  | some e =>
    rw [hfree, getD_some] at hnone
    exact h.slot (hfree.trans (congrArg some hnone))

theorem handleRemoteUnannounce (u : Unannounce) : Sourced (c.handleRemoteUnannounce u) := by
  refine ⟨h.slot, fun n q hn => ?_, h.queued,
    fun d hd => (h.drains d hd).mono (fun _ _ hq => hq) (fun _ hx => hx),
    fun call hcall => (h.calls call hcall).mono (fun _ _ hq => hq) (fun _ hx => hx)⟩
  exact h.listed n q (lookup_remove_eq_some_iff.mp hn).2

theorem decode {i q track} (f : FeedFrame) (hdrain : FeedDrain.reading track q ∈ c.drains) :
    Sourced (c.decode i track q f) := by
  have hmem : ∀ x ∈ c.decoded, x ∈ (c.decode i track q f).decoded :=
    fun x hx => mem_append_left _ hx
  refine ⟨h.slot, h.listed, fun r hr au hau => hmem _ (h.queued r hr au hau), ?_,
    fun call hcall => (h.calls call hcall).mono (fun _ _ hr => hr) hmem⟩
  have hold : ∀ d ∈ c.drains, DrainOk (c.decode i track q f) d :=
    fun d hd => (h.drains d hd).mono (fun _ _ hr => hr) hmem
  refine Slots.forall_mem_set hold ?_
  exact ⟨h.drains _ hdrain, mem_concat_self⟩

theorem observeSeq (track : GoString) (seq : UInt32) : Sourced (c.observeSeq track seq) := by
  unfold Client.observeSeq
  split
  · exact h.same rfl rfl rfl rfl rfl
  · split
    · exact h.same rfl rfl rfl rfl rfl
    · exact h

theorem takeErr {i call err} (hget : c.calls[i]? = some call) (hslot : c.feedErr = some err) :
    Sourced (c.takeErr i call err) := by
  -- the slot had an error, so this is no data
  have hphase : PhaseOk c call.track (.returned .zero err) := by
    cases err with
    | none => exact absurd hslot h.slot
    | some e => trivial
  exact (h.setPhase hget hphase).frame rfl rfl (some_ne_none _).symm (fun _ hd => .inl hd)
    (fun _ hcall => .inl hcall)

theorem step {st c'} (hok : c.slotTaken st = true) (hstep : Effect c st c') : Sourced c' := by
  cases hstep with
  | @announce a =>
    have h' := (h.trackChan a.name).1
    exact h'.same rfl rfl rfl rfl rfl
  | unannounce => exact h.handleRemoteUnannounce _
  | @errorFrame payload =>
    have h' := h.fail (fun _ => some_ne_none (RecvError.server payload))
    exact h'.same rfl rfl rfl rfl rfl
  | closeFrame =>
    have hfull : c.feedErr ≠ none := isSome_iff_ne_none.mp hok
    have h' : Sourced (c.fail none) := h.fail (fun hfree => absurd hfree hfull)
    exact h'.same rfl rfl rfl rfl rfl
  | @acceptError reason =>
    have h' := h.fail (fun _ => some_ne_none (RecvError.transport reason))
    exact h'.same rfl rfl rfl rfl rfl
  | stream =>
    refine h.frame rfl rfl h.slot (fun d hd => ?_) (fun _ hcall => .inl hcall)
    rcases Slots.mem_snoc hd with hold | rfl
    · exact .inl hold
    · exact .inr trivial
  | @lookup i track =>
    obtain ⟨h', hholds⟩ := h.trackChan track
    exact h'.setDrain i hholds
  | decode hdrain => exact h.decode _ hdrain
  | @deliver i track q au ch hdrain hsent =>
    obtain ⟨⟨hq, hname⟩, hdec⟩ := h.drains _ (mem_of_getElem? hdrain)
    obtain ⟨hbuf, -, -⟩ := LoggedChan.trySend_spec hsent
    have hch : ∀ x ∈ ch.buf, ((c.tracks.cell q).name, x) ∈ c.decoded := by
      intro x hx
      rw [hbuf] at hx
      rcases Slots.mem_snoc hx with hold | rfl
      · exact h.queued q hq x hold
      · exact hname.symm ▸ hdec
    exact (h.setQueue hch).setDrain i ⟨hq, (name_setQueue c q q ch).trans hname⟩
  | stop => exact h.setDrain _ trivial
  | @recvOn track =>
    obtain ⟨h', hholds⟩ := h.trackChan track
    refine h'.frame rfl rfl h'.slot (fun _ hd => .inl hd) (fun call hcall => ?_)
    rcases Slots.mem_snoc hcall with hold | rfl
    · exact .inl hold
    · exact .inr ⟨hholds, trivial⟩
  | @findDone i call hget =>
    have h' : Sourced (c.trackDoneChan call.track).2 := h.same rfl rfl rfl rfl rfl
    exact h'.setPhase hget trivial
  | @take i call d au ch hget _ hrecv =>
    obtain ⟨hq, hname⟩ := (h.calls call (mem_of_getElem? hget)).1
    obtain ⟨hbuf, -, -⟩ := LoggedChan.tryRecv_spec hrecv
    have hch : ∀ x ∈ ch.buf, ((c.tracks.cell call.q).name, x) ∈ c.decoded := by
      intro x hx
      apply h.queued call.q hq x
      rw [hbuf]
      exact mem_cons_of_mem _ hx
    have hau : (call.track, au) ∈ c.decoded := by
      rw [← hname]
      apply h.queued call.q hq au
      rw [hbuf]
      exact mem_cons_self
    exact (h.setQueue hch).setPhase hget hau
  | @observe i call au hget htaken =>
    have hau := (h.calls call (mem_of_getElem? hget)).2
    rw [htaken] at hau
    refine (h.observeSeq call.track au.seq).setPhase (by rw [observeSeq_calls, hget]) ?_
    show (call.track, au) ∈ (c.observeSeq call.track au.seq).decoded
    rw [observeSeq_decoded]
    exact hau
  | takeErr hget _ hslot | endErr hget _ hslot => exact h.takeErr hget hslot
  | takeDone hget | cancel hget | seeClosed hget | endClosed hget => exact h.setPhase hget trivial
  | _ => exact h.same rfl rfl rfl rfl rfl

end

end Sourced

end Client

end QuicRTC

import QuicRTC.Client.Client

/-! # Unannounced Tracks at the Client

After an UNANNOUNCE every `RecvOn` on the track is to end, with a unit that was still queued or with
`io.EOF`. `handleRemoteUnannounce` drops the queue and closes the done channel if there is one. A
call that holds both may take either case of its `select`. A call between its two lookups, or one
that begins later, gets a queue or a done channel that nobody will ever close.
-/

namespace QuicRTC

open Wire LTS Function List Option Registry

namespace Client

def noneLooked (c : Client) (track : GoString) : Bool :=
  c.calls.all (fun call => decide (call.track = track → call.phase ≠ .looked))

def queueEmpty (c : Client) (track : GoString) : Bool :=
  match c.tracks.lookup track with
  | none => true
  | some q => (c.tracks.cell q).ch.buf.isEmpty

/-- An UNANNOUNCE finds the queue empty and no call between its lookups, no call begins on
    an unannounced track, and a stream sends only to the queue in the map. -/
def orderly (c : Client) : Step → Bool
  | .unannounce u => c.queueEmpty u.name && c.noneLooked u.name
  | .recvOn track => !c.retired track
  | .deliver i =>
    match c.drains[i]? with
    | some (.holding track q _) => decide (c.tracks.lookup track = some q)
    | _ => true
  | .errorFrame _ => false
  | .closeFrame => false
  | .readError => false
  | .acceptError _ => false
  | .close => false
  | _ => true

/-! ## The invariant -/

def CallTidy (c : Client) (call : RecvOnCall) : Prop :=
  match call.phase with
  | .looked => c.retired call.track = false
  | .waiting d => d < c.trackDone.created ∧
      (c.trackDone.cell d = false →
        c.trackDone.lookup call.track = some d ∧ c.retired call.track = false)
  | .taken au => au ∈ (c.tracks.cell call.q).ch.got
  | .ending => False
  | .returned au err => (err = none ∧ au ∈ (c.tracks.cell call.q).ch.got) ∨
      err = some .eof ∨ err = some .ctx

/-- A queue that is out of the map has been read to its end. -/
structure Tidy (c : Client) : Prop where
  opened : c.closed = false
  noErr : c.feedErr = none
  dropped : ∀ q < c.tracks.created, (∀ n, c.tracks.lookup n ≠ some q) →
              (c.tracks.cell q).ch.buf = []
  held : ∀ call ∈ c.calls, call.q < c.tracks.created
  calls : ∀ call ∈ c.calls, CallTidy c call

variable {call : RecvOnCall} {c : Client}

theorem CallTidy.mono {c' : Client} (h : CallTidy c call)
    (hretired : c.retired call.track = false → c'.retired call.track = false)
    (hdone : ∀ d < c.trackDone.created, d < c'.trackDone.created ∧
      (c'.trackDone.cell d = false → c.trackDone.cell d = false ∧
        (c.trackDone.lookup call.track = some d → c'.trackDone.lookup call.track = some d)))
    (hgot : ∀ au ∈ (c.tracks.cell call.q).ch.got, au ∈ (c'.tracks.cell call.q).ch.got) :
    CallTidy c' call := by
  obtain ⟨track, q, phase⟩ := call
  cases phase with
  | looked => exact hretired h
  | waiting d =>
    obtain ⟨hlt, hopen⟩ := h
    obtain ⟨hlt', hdone'⟩ := hdone d hlt
    refine ⟨hlt', fun hfalse => ?_⟩
    obtain ⟨hfalse', hlookup⟩ := hdone' hfalse
    obtain ⟨hold, hret⟩ := hopen hfalse'
    exact ⟨hlookup hold, hretired hret⟩
  | taken au => exact hgot au h
  | ending => exact h
  | returned au err =>
    rcases h with ⟨herr, hau⟩ | h
    · exact .inl ⟨herr, hgot au hau⟩
    · exact .inr h

theorem done_same {c' : Client} (h : c'.trackDone = c.trackDone) (track : GoString) :
    ∀ d < c.trackDone.created, d < c'.trackDone.created ∧
      (c'.trackDone.cell d = false → c.trackDone.cell d = false ∧
        (c.trackDone.lookup track = some d → c'.trackDone.lookup track = some d)) := by
  rw [h]
  exact fun d hd => ⟨hd, fun hfalse => ⟨hfalse, id⟩⟩

namespace Tidy

variable {c : Client}

theorem init : Tidy start := by
  refine ⟨rfl, rfl, fun q hq _ => ?_, nofun,
    nofun⟩
  obtain rfl : q = 0 := Nat.lt_one_iff.mp hq
  rfl

theorem frame {c' : Client} (h : Tidy c) (htracks : c'.tracks = c.tracks)
    (hdone : c'.trackDone = c.trackDone) (hretired : c'.retired = c.retired)
    (hclosed : c'.closed = c.closed) (hslot : c'.feedErr = c.feedErr)
    (hcalls : ∀ call ∈ c'.calls, call ∈ c.calls ∨ call.q < c.tracks.created ∧ CallTidy c call) :
    Tidy c' := by
  refine ⟨hclosed.trans h.opened, hslot.trans h.noErr, ?_, fun call hcall => ?_, fun call hcall => ?_⟩
  · rw [htracks]
    exact h.dropped
  · rw [htracks]
    exact (hcalls call hcall).elim (h.held call) (fun hnew => hnew.1)
  · have hold : CallTidy c call := (hcalls call hcall).elim (h.calls call) (fun hnew => hnew.2)
    refine hold.mono ?_ (done_same hdone _) ?_
    · rw [hretired]
      exact id
    · rw [htracks]
      exact fun _ hau => hau

theorem setPhase (h : Tidy c) {i call phase} (hget : c.calls[i]? = some call)
    (hphase : CallTidy c { call with phase := phase }) : Tidy (c.setPhase i call phase) := by
  refine h.frame rfl rfl rfl rfl rfl (fun call' hcall' => ?_)
  rcases mem_or_eq_of_mem_set hcall' with hold | rfl
  · exact .inl hold
  · exact .inr ⟨h.held call (mem_of_getElem? hget), hphase⟩

theorem trackChan (h : Tidy c) (name : GoString) :
    Tidy (c.trackChan name).2 ∧ (c.trackChan name).1 < (c.trackChan name).2.tracks.created := by
  have hnew := lookup_lt (lookup_getOrAdd c.tracks name (.fresh name))
  refine ⟨?_, hnew⟩
  cases hname : c.tracks.lookup name with
  | some r =>
    have heq : (c.trackChan name).2 = c := by
      simp only [Client.trackChan, getOrAdd_of_some _ hname]
    rw [heq]
    exact h
  | none =>
    have htracks : (c.trackChan name).2.tracks = c.tracks.add name (.fresh name) := by
      simp only [Client.trackChan, getOrAdd_of_none _ hname]
    refine ⟨h.opened, h.noErr, fun q hq hlisted => ?_, fun call hcall => ?_, fun call hcall => ?_⟩
    · rw [htracks] at hq hlisted ⊢
      rcases Nat.lt_succ_iff_lt_or_eq.mp hq with hlt | rfl
      · rw [cell_add_of_lt _ _ _ hlt]
        exact h.dropped q hlt (fun n hn => hlisted n (lookup_add_of_some hname hn))
      · exact absurd (lookup_add_self _ _ _) (hlisted name)
    · rw [htracks]
      exact Nat.lt_succ_of_lt (h.held call hcall)
    · refine (h.calls call hcall).mono id (done_same rfl _) ?_
      rw [htracks, cell_add_of_lt _ _ _ (h.held call hcall)]
      exact fun _ hau => hau

theorem setQueue (h : Tidy c) {q} {ch : LoggedChan AccessUnit}
    (hgot : ∀ au ∈ (c.tracks.cell q).ch.got, au ∈ ch.got)
    (hlisted : (∀ n, c.tracks.lookup n ≠ some q) → q < c.tracks.created → ch.buf = []) :
    Tidy (c.setQueue q ch) := by
  refine ⟨h.opened, h.noErr, fun r hr hun => ?_, h.held, fun call hcall => ?_⟩
  · rw [ch_setQueue]
    split
    · next heq => exact hlisted (heq ▸ hun) (heq ▸ hr)
    · exact h.dropped r hr hun
  · refine (h.calls call hcall).mono id (done_same rfl _) ?_
    rw [ch_setQueue]
    split
    · next heq => exact heq ▸ hgot
    · exact fun _ hau => hau

theorem findDone (h : Tidy c) {i call} (hget : c.calls[i]? = some call)
    (hlooked : call.phase = .looked) : Tidy (c.findDone i call) := by
  have hmem := mem_of_getElem? hget
  have hretired : c.retired call.track = false := by
    have := h.calls call hmem
    rwa [CallTidy, hlooked] at this
  have hlookup := lookup_getOrAdd c.trackDone call.track false
  have hdone : ∀ track, ∀ d < c.trackDone.created,
      d < (c.trackDoneChan call.track).2.trackDone.created ∧
      ((c.trackDoneChan call.track).2.trackDone.cell d = false → c.trackDone.cell d = false ∧
        (c.trackDone.lookup track = some d →
          (c.trackDoneChan call.track).2.trackDone.lookup track = some d)) := by
    intro track d hd
    simp only [trackDoneChan]
    cases hname : c.trackDone.lookup call.track with
    | some r =>
      rw [getOrAdd_of_some _ hname]
      exact ⟨hd, fun hfalse => ⟨hfalse, id⟩⟩
    | none =>
      rw [getOrAdd_of_none _ hname, cell_add_of_lt _ _ _ hd]
      exact ⟨Nat.lt_succ_of_lt hd, fun hfalse => ⟨hfalse, lookup_add_of_some hname⟩⟩
  have h' : Tidy (c.trackDoneChan call.track).2 :=
    { h with calls := fun call' hcall' => (h.calls call' hcall').mono id (hdone _) (fun _ hau => hau) }
  exact h'.setPhase hget ⟨lookup_lt hlookup, fun _ => ⟨hlookup, hretired⟩⟩

theorem closeDone_created (c : Client) (name : GoString) :
    (c.closeDone name).created = c.trackDone.created := by
  unfold closeDone
  split <;> rfl

theorem closeDone_open {c : Client} {name d} (hopen : (c.closeDone name).cell d = false) :
    c.trackDone.cell d = false ∧ ∀ track, c.trackDone.lookup track = some d →
      track ≠ name ∧ (c.closeDone name).lookup track = some d := by
  unfold closeDone at hopen ⊢
  split at hopen
  · next hnone =>
    refine ⟨hopen, fun track hd => ⟨?_, hd⟩⟩
    rintro rfl
    exact absurd (hd.symm.trans hnone) (some_ne_none _)
  · next d' hd' =>
    rw [cell_remove, cell_modify] at hopen
    split at hopen
    · cases hopen
    · next hne =>
      refine ⟨hopen, fun track hd => ?_⟩
      have htrack : track ≠ name := by
        rintro rfl
        exact hne (mem_unique hd hd')
      exact ⟨htrack, lookup_remove_eq_some_iff.mpr ⟨htrack, hd⟩⟩

theorem handleRemoteUnannounce (h : Tidy c) {u : Unannounce} (hempty : c.queueEmpty u.name = true)
    (hlooked : c.noneLooked u.name = true) : Tidy (c.handleRemoteUnannounce u) := by
  refine ⟨h.opened, h.noErr, fun q hq hun => ?_, h.held, fun call hcall => ?_⟩
  · by_cases hcur : c.tracks.lookup u.name = some q
    · unfold queueEmpty at hempty
      rw [hcur] at hempty
      exact isEmpty_iff.mp hempty
    · refine h.dropped q hq (fun n hn => hun n ?_)
      refine lookup_remove_eq_some_iff.mpr ⟨?_, hn⟩
      rintro rfl
      exact hcur hn
  · have hold := h.calls call hcall
    have hphase := of_decide_eq_true (all_eq_true.mp hlooked call hcall)
    obtain ⟨track, q, phase⟩ := call
    cases phase with
    | looked =>
      have hne : track ≠ u.name := fun heq => hphase heq rfl
      show update c.retired u.name true track = false
      rw [update_of_ne hne]
      exact hold
    | waiting d =>
      refine ⟨(closeDone_created c u.name).symm ▸ hold.1, fun hopen => ?_⟩
      obtain ⟨hfalse, hother⟩ := closeDone_open hopen
      obtain ⟨hlookup, hret⟩ := hold.2 hfalse
      obtain ⟨hne, hlookup'⟩ := hother track hlookup
      refine ⟨hlookup', ?_⟩
      show update c.retired u.name true track = false
      rw [update_of_ne hne]
      exact hret
    | _ => exact hold

theorem handleRemoteAnnounce (h : Tidy c) (a : Announce) : Tidy (c.handleRemoteAnnounce a) := by
  have h' := (h.trackChan a.name).1
  refine ⟨h'.opened, h'.noErr, h'.dropped, h'.held, fun call hcall => ?_⟩
  refine (h'.calls call hcall).mono (fun hret => ?_) (done_same rfl _) (fun _ hau => hau)
  show update c.retired a.name false call.track = false
  by_cases hname : call.track = a.name
  · rw [hname, update_self]
  · rw [update_of_ne hname]
    exact hret

theorem step {st c'} (h : Tidy c) (hok : c.orderly st = true) (hstep : Effect c st c') :
    Tidy c' := by
  cases hstep with
  | announce => exact h.handleRemoteAnnounce _
  | register | stream | decode | stop =>
    exact h.frame rfl rfl rfl rfl rfl (fun _ hcall => .inl hcall)
  | unannounce =>
    obtain ⟨hempty, hlooked⟩ := Bool.and_eq_true_iff.mp hok
    exact h.handleRemoteUnannounce hempty hlooked
  | @lookup i track =>
    exact (h.trackChan track).1.frame rfl rfl rfl rfl rfl (fun _ hcall => .inl hcall)
  | @deliver i track q au ch hdrain hsent =>
    obtain ⟨-, -, hgot⟩ := LoggedChan.trySend_spec hsent
    simp only [orderly, hdrain, decide_eq_true_eq] at hok
    have h' : Tidy (c.setQueue q ch) :=
      h.setQueue (fun x hx => hgot ▸ hx) (fun hun => absurd hok (hun track))
    exact h'.frame rfl rfl rfl rfl rfl (fun _ hcall => .inl hcall)
  | @recvOn track =>
    obtain ⟨h', hlt⟩ := h.trackChan track
    refine h'.frame rfl rfl rfl rfl rfl (fun call hcall => ?_)
    rcases Slots.mem_snoc hcall with hold | rfl
    · exact .inl hold
    · refine .inr ⟨hlt, ?_⟩
      show c.retired track = false
      simpa [orderly] using hok
  | findDone hget hlooked => exact h.findDone hget hlooked
  | @take i call d au ch hget _ hrecv =>
    obtain ⟨hbuf, -, hgot⟩ := LoggedChan.tryRecv_spec hrecv
    have h' : Tidy (c.setQueue call.q ch) := by
      refine h.setQueue (fun x hx => hgot ▸ mem_append_left _ hx) (fun hun hlt => ?_)
      -- a queue out of the map is empty, and this one is not
      rw [h.dropped call.q hlt hun] at hbuf
      cases hbuf
    refine h'.setPhase hget ?_
    show au ∈ ((c.setQueue call.q ch).tracks.cell call.q).ch.got
    rw [ch_setQueue, if_pos rfl, hgot]
    exact mem_concat_self
  | @observe i call au hget htaken =>
    have hau := h.calls call (mem_of_getElem? hget)
    rw [CallTidy, htaken] at hau
    have h' : Tidy (c.observeSeq call.track au.seq) := by
      unfold observeSeq
      split
      · exact h.frame rfl rfl rfl rfl rfl (fun _ hcall => .inl hcall)
      · split
        · exact h.frame rfl rfl rfl rfl rfl (fun _ hcall => .inl hcall)
        · exact h
    refine h'.setPhase (by rw [observeSeq_calls, hget]) (.inl ⟨rfl, ?_⟩)
    rw [observeSeq_tracks]
    exact hau
  | takeErr _ _ hslot => exact absurd (h.noErr.symm.trans hslot).symm (some_ne_none _)
  | takeDone hget => exact h.setPhase hget (.inr (.inl rfl))
  | cancel hget => exact h.setPhase hget (.inr (.inr rfl))
  | seeClosed _ _ hclosed => exact absurd (h.opened.symm.trans hclosed) (by decide)
  | endErr hget hend | endClosed hget hend =>
    have := h.calls _ (mem_of_getElem? hget)
    rw [CallTidy, hend] at this
    exact this.elim
  | _ => cases hok

end Tidy

theorem tidy_of_reachable :
    ∀ c, Reachable (clientSystem.restrict (fun c st => c.orderly st = true)) c → Tidy c := by
  refine invariant_restrict _ Tidy.init ?_
  intro c st c' _ h hok hstep
  exact h.step hok (effect_of_next hstep)

/-! ## Unannounced tracks end -/

/-- The steps a call on an unannounced track has left. -/
def ownSteps (i : Nat) : RecvOnPhase → List Step
  | .waiting _ => [.takeDone i]
  | .taken _ => [.observe i]
  | _ => []

/-- By its own steps, without its context, the call returns a unit of its queue or `io.EOF`.
    -/
def Returns (c : Client) (i : Nat) (call : RecvOnCall) : Prop :=
  ∃ c' au err, run next (fun _ _ => true) c (ownSteps i call.phase) = some c' ∧
    c'.calls[i]? = some { call with phase := .returned au err } ∧
    (err = none ∧ au ∈ (c.tracks.cell call.q).ch.got ∨ err = some .eof)

theorem calls_setPhase {i} (hget : c.calls[i]? = some call) (phase : RecvOnPhase) :
    (c.setPhase i call phase).calls[i]? = some { call with phase := phase } := by
  have hi := Slots.lt_of_getElem? hget
  exact getElem?_set_self hi

structure EndsTracks (c : Client) : Prop where
  returns : ∀ i call, c.calls[i]? = some call → c.retired call.track = true →
               call.phase.isReturned = false → Returns c i call
  results : ∀ call ∈ c.calls, ∀ au err, call.phase = .returned au err →
               (err = none ∧ au ∈ (c.tracks.cell call.q).ch.got) ∨ err = some .eof ∨ err = some .ctx
  lossless : ∀ q < c.tracks.created, (∀ n, c.tracks.lookup n ≠ some q) →
               (c.tracks.cell q).ch.got = (c.tracks.cell q).ch.sent

theorem Tidy.returns (h : Tidy c) {i} (hget : c.calls[i]? = some call)
    (hretired : c.retired call.track = true) (hpending : call.phase.isReturned = false) :
    Returns c i call := by
  have hcall := h.calls call (mem_of_getElem? hget)
  unfold CallTidy at hcall
  cases hphase : call.phase with
  | looked =>
    rw [hphase] at hcall
    exact absurd (hretired.symm.trans hcall) (by decide)
  | waiting d =>
    -- its done channel is closed: an open one would be of a track that is not retired
    rw [hphase] at hcall
    have hdone : c.trackDone.cell d = true := by
      cases hd : c.trackDone.cell d with
      | true => rfl
      | false => exact absurd (hretired.symm.trans (hcall.2 hd).2) (by decide)
    refine ⟨_, .zero, some .eof, ?_, calls_setPhase hget _, .inr rfl⟩
    simp [ownSteps, run, next, hget, hphase, hdone]
  | taken au =>
    rw [hphase] at hcall
    have hget' : (c.observeSeq call.track au.seq).calls[i]? = some call := by
      rw [observeSeq_calls, hget]
    refine ⟨_, au, none, ?_, calls_setPhase hget' _, .inl ⟨rfl, hcall⟩⟩
    simp [ownSteps, run, next, hget, hphase]
  | ending =>
    rw [hphase] at hcall
    exact hcall.elim
  | returned au err =>
    rw [hphase] at hpending
    cases hpending

/-- **Unannounce at the client.** The calls on an unannounced track end, and nothing queued
    is lost. -/
theorem unannounce_ends {c : Client}
    (h : Reachable (clientSystem.restrict (fun c st => c.orderly st = true)) c) : EndsTracks c := by
  have ht := tidy_of_reachable c h
  refine ⟨fun i call => ht.returns, fun call hcall au err hret => ?_, fun q hq hun => ?_⟩
  · have := ht.calls call hcall
    rwa [CallTidy, hret] at this
  · exact LoggedChan.got_eq_sent (ht.dropped q hq hun)

def readThenUnannounced : List Step :=
  [.announce ⟨str "cam", str "video", []⟩, .register, .stream (str "cam"), .lookup 0,
    .decode 0 ⟨typeKeyframe, 0, 1, 0, 0, []⟩, .deliver 0, .recvOn (str "cam"), .findDone 0, .take 0,
    .recvOn (str "cam"), .findDone 1, .unannounce ⟨str "cam"⟩, .takeDone 1]

theorem unannounce_ends_readThenUnannounced :
    ∃ c, Reachable (clientSystem.restrict (fun c st => c.orderly st = true)) c ∧
      c.retired (str "cam") = true ∧
      c.calls.map RecvOnCall.phase =
        [.taken (.bare true 1), .returned .zero (some .eof)] ∧ EndsTracks c :=
  exists_run_given_imp readThenUnannounced (fun c hc (hp : c.retired (str "cam") = true ∧
    c.calls.map RecvOnCall.phase = [.taken (.bare true 1), .returned .zero (some .eof)]) =>
      ⟨hp.1, hp.2, unannounce_ends hc⟩) (by decide)

def lateCall : List Step :=
  [.announce ⟨str "cam", str "video", []⟩, .register, .unannounce ⟨str "cam"⟩, .recvOn (str "cam"),
    .findDone 0]

/-- A track is unannounced with an access unit in its queue. -/
def leftBehind : List Step :=
  [.announce ⟨str "cam", str "video", []⟩, .register, .stream (str "cam"), .lookup 0,
    .decode 0 ⟨typeKeyframe, 0, 1, 0, 0, []⟩, .deliver 0, .unannounce ⟨str "cam"⟩]

/-- The late call waits for ever, and the queued access unit is lost. -/
theorem unannounce_blocks_or_loses :
    (∃ c, Reachable clientSystem c ∧ c.closed = false ∧ c.retired (str "cam") = true ∧
      c.calls = [⟨str "cam", 2, .waiting 0⟩] ∧ next c (.take 0) = none ∧
      next c (.takeDone 0) = none ∧ next c (.takeErr 0) = none ∧ ¬ EndsTracks c) ∧
    ∃ c, Reachable clientSystem c ∧ c.closed = false ∧ c.calls = [] ∧
      (c.tracks.cell 1).ch.buf = [.bare true 1] ∧ c.tracks.lookup (str "cam") = none ∧
      ¬ EndsTracks c := by
  constructor
  · refine exists_run_imp lateCall (fun c hc (hp : c.closed = false ∧ c.retired (str "cam") = true ∧
      c.calls = [⟨str "cam", 2, .waiting 0⟩] ∧ next c (.take 0) = none ∧
      next c (.takeDone 0) = none ∧ next c (.takeErr 0) = none) => ?_) (by decide)
    obtain ⟨hclosed, hret, hcalls, htake, hdone, herr⟩ := hp
    refine ⟨hclosed, hret, hcalls, htake, hdone, herr, fun h => ?_⟩
    obtain ⟨c', au, err, hrun, -⟩ :=
      h.returns 0 ⟨str "cam", 2, .waiting 0⟩ (by rw [hcalls]; rfl) hret rfl
    simp [ownSteps, run, hdone] at hrun
  · refine exists_run_imp leftBehind (fun c hc (hp : c.closed = false ∧ c.calls = [] ∧
      c.tracks.created = 2 ∧ (c.tracks.cell 1).ch.buf = [.bare true 1] ∧
      c.tracks.table.entries.map (fun e => e.2) = [0] ∧ c.tracks.lookup (str "cam") = none) => ?_)
      (by decide)
    obtain ⟨hclosed, hcalls, hcreated, hbuf, htable, hnone⟩ := hp
    refine ⟨hclosed, hcalls, hbuf, hnone, fun h => ?_⟩
    have hun : ∀ n, c.tracks.lookup n ≠ some 1 := by
      intro n hn
      have hmem := mem_map_of_mem (f := fun e => e.2) (GoMap.mem_entries_iff (e := ⟨n, 1⟩).mpr hn)
      rw [htable] at hmem
      simp at hmem
    have hlost := h.lossless 1 (by rw [hcreated]; decide) hun
    have hfifo := (c.tracks.cell 1).ch.fifo
    rw [← hlost, hbuf] at hfifo
    simp at hfifo

end Client

end QuicRTC

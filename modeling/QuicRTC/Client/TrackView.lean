import QuicRTC.Client.Provenance

/-! # One Track of the Client

What a client is for one track: a queue, the drains into it, the `RecvOn` calls on it, and the
cursor. As long as the track is not unannounced there is one queue for all of them (`Single`), so
that the steps of the client are steps on this view (`trackStep_of_next`).
-/

namespace QuicRTC

open Wire List Option Slots Registry AList

/-- The queue a drain holds, with its track. -/
def FeedDrain.held : FeedDrain → Option (GoString × Nat)
  | .reading n q => some (n, q)
  | .holding n q _ => some (n, q)
  | _ => none

def FeedDrain.track : FeedDrain → Option GoString
  | .opened n => some n
  | .reading n _ => some n
  | .holding n _ _ => some n
  | .stopped => none

namespace Client

/-! ## The view -/

inductive DrainView where
  | opened
  | reading
  | holding (au : AccessUnit)
deriving DecidableEq

/-- Goroutines and calls keep their numbers; those of other tracks are `none`. -/
structure TrackView where
  ch : LoggedChan AccessUnit
  drains : List (Option DrainView)
  calls : List (Option RecvOnPhase)
  cursor : Option UInt32

def viewDrain (t : GoString) : FeedDrain → Option DrainView
  | .opened n => if n = t then some .opened else none
  | .reading n _ => if n = t then some .reading else none
  | .holding n _ au => if n = t then some (.holding au) else none
  | .stopped => none

def viewCall (t : GoString) (call : RecvOnCall) : Option RecvOnPhase :=
  if call.track = t then some call.phase else none

/-- Where there is none, the one that would be made. -/
def queue (c : Client) (t : GoString) : LoggedChan AccessUnit :=
  match c.tracks.lookup t with
  | some q => (c.tracks.cell q).ch
  | none => (TrackQueue.fresh t).ch

def view (c : Client) (t : GoString) : TrackView where
  ch := c.queue t
  drains := c.drains.map (viewDrain t)
  calls := c.calls.map (viewCall t)
  cursor := c.lastSeenSeq.lookup t

namespace TrackView

def setDrain (v : TrackView) (i : Nat) (d : Option DrainView) : TrackView :=
  { v with drains := v.drains.set i d }

def setCall (v : TrackView) (i : Nat) (phase : RecvOnPhase) : TrackView :=
  { v with calls := v.calls.set i (some phase) }

end TrackView

/-- `observeSeq` on one entry. -/
def raise : Option UInt32 → UInt32 → UInt32
  | none, seq => seq
  | some prev, seq => if prev < seq then seq else prev

def accepts : Step → Bool
  | .stream _ => true
  | _ => false

inductive TrackStep (t : GoString) (slot : Option (Option RecvError)) (v : TrackView) :
    Step → TrackView → Prop where
  | same {st} (quiet : accepts st = false) : TrackStep t slot v st v
  | opened {header} (own : streamTrack header = t) :
      TrackStep t slot v (.stream header) { v with drains := v.drains ++ [some .opened] }
  | foreignStream {header} (other : streamTrack header ≠ t) :
      TrackStep t slot v (.stream header) { v with drains := v.drains ++ [none] }
  | lookup {i} (get : v.drains[i]? = some (some .opened)) :
      TrackStep t slot v (.lookup i) (v.setDrain i (some .reading))
  | decode {i f} (get : v.drains[i]? = some (some .reading)) :
      TrackStep t slot v (.decode i f) (v.setDrain i (some (.holding (feedUnit f))))
  | deliver {i au ch} (get : v.drains[i]? = some (some (.holding au)))
      (sent : v.ch.trySend au = some ch) :
      TrackStep t slot v (.deliver i) { v.setDrain i (some .reading) with ch := ch }
  | stop {i} : TrackStep t slot v (.stop i) (v.setDrain i none)
  | called {track} (own : track = t) :
      TrackStep t slot v (.recvOn track) { v with calls := v.calls ++ [some .looked] }
  | foreignCall {track} (other : track ≠ t) :
      TrackStep t slot v (.recvOn track) { v with calls := v.calls ++ [none] }
  | moved {st i phase phase'} (quiet : accepts st = false) (get : v.calls[i]? = some (some phase))
      (pending : phase = .looked ∨ (∃ d, phase = .waiting d) ∨ phase = .ending)
      (empty : (∃ d, phase' = .waiting d) ∨ phase' = .ending ∨
        ∃ err, phase' = .returned .zero (some err)) :
      TrackStep t slot v st (v.setCall i phase')
  | take {i d au ch} (get : v.calls[i]? = some (some (.waiting d)))
      (received : v.ch.tryRecv = some (au, ch)) :
      TrackStep t slot v (.take i) { v.setCall i (.taken au) with ch := ch }
  | observe {i au} (get : v.calls[i]? = some (some (.taken au))) :
      TrackStep t slot v (.observe i)
        { v.setCall i (.returned au none) with cursor := some (raise v.cursor au.seq) }
  | nilError {st i phase} (quiet : accepts st = false) (get : v.calls[i]? = some (some phase))
      (pending : (∃ d, phase = .waiting d) ∨ phase = .ending) (nil : slot = some none) :
      TrackStep t slot v st (v.setCall i (.returned .zero none))

/-! ## One queue for the track -/

/-- If `n` is our track, `q` is the queue in the map. -/
structure Current (t : GoString) (tracks : Registry TrackQueue) (n : GoString) (q : Nat) : Prop where
  holds : Holds tracks n q
  inMap : n = t → tracks.lookup t = some q

/-- The track has one queue, which all of its holders share. -/
structure Single (t : GoString) (c : Client) : Prop where
  listed : ∀ n q, c.tracks.lookup n = some q → (c.tracks.cell q).name = n
  drains : ∀ d ∈ c.drains, ∀ n q, d.held = some (n, q) → Current t c.tracks n q
  calls : ∀ call ∈ c.calls, Current t c.tracks call.track call.q

def keepsTrack (t : GoString) : Step → Bool
  | .unannounce u => decide (u.name ≠ t)
  | _ => true

variable {t n : GoString}

theorem Current.getOrAdd {tracks q} (h : Current t tracks n q) (name : GoString) :
    Current t (tracks.getOrAdd name (.fresh name)).2 n q := by
  refine ⟨holds_getOrAdd name h.holds, fun heq => ?_⟩
  have hmap := h.inMap heq
  obtain hnone | ⟨r, hsome⟩ := eq_none_or_eq_some (tracks.lookup name)
  · rw [getOrAdd_of_none _ hnone]
    exact lookup_add_of_some hnone hmap
  · rw [getOrAdd_of_some _ hsome]
    exact hmap

variable {c : Client}

theorem Current.setQueue {r} (h : Current t c.tracks n r) (q : Nat) (ch : LoggedChan AccessUnit) :
    Current t (c.setQueue q ch).tracks n r :=
  ⟨⟨h.holds.1, (name_setQueue c q r ch).trans h.holds.2⟩, h.inMap⟩

theorem Current.remove {name tracks q} (h : Current t tracks n q) (hne : name ≠ t) :
    Current t (tracks.remove name) n q :=
  ⟨h.holds, fun heq => lookup_remove_eq_some_iff.mpr ⟨hne.symm, h.inMap heq⟩⟩

namespace Single

variable {t : GoString} {c : Client}

theorem init (t : GoString) : Single t start := by
  refine ⟨fun n q hn => ?_, nofun, nofun⟩
  rcases lookup_add_eq_some_iff.mp hn with ⟨rfl, rfl⟩ | ⟨-, hold⟩
  · rfl
  · cases hold

variable {c' : Client}

theorem frame (h : Single t c) (htracks : c'.tracks = c.tracks)
    (hdrains : ∀ d ∈ c'.drains, d ∈ c.drains ∨ ∀ n q, d.held = some (n, q) → Current t c.tracks n q)
    (hcalls : ∀ call ∈ c'.calls, call ∈ c.calls ∨ Current t c.tracks call.track call.q) :
    Single t c' := by
  refine ⟨?_, fun d hd n q hq => ?_, fun call hcall => ?_⟩
  · rw [htracks]
    exact h.listed
  · rw [htracks]
    rcases hdrains d hd with hold | hnew
    · exact h.drains d hold n q hq
    · exact hnew n q hq
  · rw [htracks]
    exact (hcalls call hcall).elim (h.calls call) id

theorem same (h : Single t c) (htracks : c'.tracks = c.tracks) (hdrains : c'.drains = c.drains)
    (hcalls : c'.calls = c.calls) : Single t c' :=
  h.frame htracks (fun _ hd => .inl (hdrains ▸ hd)) (fun _ hcall => .inl (hcalls ▸ hcall))

theorem trackChan (h : Single t c) (name : GoString) :
    Single t (c.trackChan name).2 ∧
      Current t (c.trackChan name).2.tracks name (c.trackChan name).1 := by
  have hmap : (c.trackChan name).2.tracks.lookup name = some (c.trackChan name).1 :=
    lookup_getOrAdd _ _ _
  have hlisted : ∀ n q, (c.trackChan name).2.tracks.lookup n = some q →
      ((c.trackChan name).2.tracks.cell q).name = n := by
    intro n q hn
    obtain hnone | ⟨r, hsome⟩ := eq_none_or_eq_some (c.tracks.lookup name)
    · simp only [Client.trackChan, getOrAdd_of_none _ hnone] at hn ⊢
      rcases lookup_add_eq_some_iff.mp hn with ⟨rfl, rfl⟩ | ⟨-, hold⟩
      · rw [cell_add_created]
        rfl
      · rw [cell_add_of_lt _ _ _ (lookup_lt hold)]
        exact h.listed n q hold
    · simp only [Client.trackChan, getOrAdd_of_some _ hsome] at hn ⊢
      exact h.listed n q hn
  refine ⟨⟨hlisted, fun d hd n q hq => (h.drains d hd n q hq).getOrAdd name,
    fun call hcall => (h.calls call hcall).getOrAdd name⟩, ?_, fun heq => heq ▸ hmap⟩
  exact ⟨lookup_lt hmap, hlisted name _ hmap⟩

theorem setQueue (h : Single t c) (q : Nat) (ch : LoggedChan AccessUnit) :
    Single t (c.setQueue q ch) := by
  refine ⟨fun n r hn => ?_, fun d hd n r hr => (h.drains d hd n r hr).setQueue q ch,
    fun call hcall => (h.calls call hcall).setQueue q ch⟩
  rw [name_setQueue]
  exact h.listed n r hn

theorem setPhase (h : Single t c) {i call} (phase : RecvOnPhase) (hget : c.calls[i]? = some call) :
    Single t (c.setPhase i call phase) := by
  refine h.frame rfl (fun _ hd => .inl hd) (fun call' hcall' => ?_)
  rcases mem_or_eq_of_mem_set hcall' with hold | rfl
  · exact .inl hold
  · exact .inr (h.calls call (mem_of_getElem? hget))

theorem setDrain (h : Single t c) (i : Nat) {d : FeedDrain}
    (hd : ∀ n q, d.held = some (n, q) → Current t c.tracks n q) : Single t (c.setDrain i d) := by
  refine h.frame rfl (fun d' hd' => ?_) (fun _ hcall => .inl hcall)
  rcases mem_or_eq_of_mem_set hd' with hold | rfl
  · exact .inl hold
  · exact .inr hd

theorem step {st} (h : Single t c) (hkeeps : keepsTrack t st = true) (hstep : Effect c st c') :
    Single t c' := by
  cases hstep with
  | @announce a =>
    have h' := (h.trackChan a.name).1
    exact h'.same rfl rfl rfl
  | @unannounce u =>
    have hne : u.name ≠ t := of_decide_eq_true hkeeps
    refine ⟨fun n q hn => ?_, fun d hd n q hq => (h.drains d hd n q hq).remove hne,
      fun call hcall => (h.calls call hcall).remove hne⟩
    exact h.listed n q (lookup_remove_eq_some_iff.mp hn).2
  | stream =>
    refine h.frame rfl (fun d hd => ?_) (fun _ hcall => .inl hcall)
    exact (mem_snoc hd).imp id (fun hnew _ _ hq => by cases hnew ▸ hq)
  | @lookup i track =>
    obtain ⟨h', hcur⟩ := h.trackChan track
    refine h'.setDrain i (fun n q hq => ?_)
    cases hq
    exact hcur
  | @decode i track q f hdrain =>
    have h' := h.setDrain i (d := .holding track q (feedUnit f)) (h.drains (.reading track q) hdrain)
    exact h'.same rfl rfl rfl
  | @deliver i track q au ch hdrain hsent =>
    have hcur := h.drains _ (mem_of_getElem? hdrain) track q rfl
    refine (h.setQueue q ch).setDrain i (fun n r hr => ?_)
    cases hr
    exact hcur.setQueue _ ch
  | stop => exact h.setDrain _ nofun
  | @recvOn track =>
    obtain ⟨h', hcur⟩ := h.trackChan track
    refine h'.frame rfl (fun _ hd => .inl hd) (fun call hcall => ?_)
    rcases mem_snoc hcall with hold | rfl
    · exact .inl hold
    · exact .inr hcur
  | @findDone i call hget =>
    have h' : Single t (c.trackDoneChan call.track).2 := h.same rfl rfl rfl
    exact h'.setPhase _ hget
  | take hget => exact (h.setQueue _ _).setPhase _ hget
  | @observe i call au hget =>
    have h' : Single t (c.observeSeq call.track au.seq) :=
      h.same (observeSeq_tracks _ _ _) (observeSeq_drains _ _ _) (observeSeq_calls _ _ _)
    exact h'.setPhase _ (by rw [observeSeq_calls, hget])
  | takeErr hget | endErr hget => exact (h.setPhase _ hget).same rfl rfl rfl
  | takeDone hget | cancel hget | seeClosed hget | endClosed hget => exact h.setPhase _ hget
  | _ => exact h.same rfl rfl rfl

end Single

/-! ## What a step does to the view -/

def DrainsKept (c c' : Client) : Prop :=
  c'.drains.length = c.drains.length ∧
    ∀ (i : Nat) (d : FeedDrain), c'.drains[i]? = some d →
      ∃ d₀ : FeedDrain, c.drains[i]? = some d₀ ∧ ∀ n, d.track = some n → d₀.track = some n

variable {c' : Client}

theorem DrainsKept.of_eq (h : c'.drains = c.drains) : DrainsKept c c' := by
  unfold DrainsKept
  rw [h]
  exact ⟨rfl, fun i d hd => ⟨d, hd, fun _ hn => hn⟩⟩

theorem DrainsKept.of_set {i d d'} (hget : c.drains[i]? = some d)
    (hset : c'.drains = c.drains.set i d') (htrack : ∀ n, d'.track = some n → d.track = some n) :
    DrainsKept c c' := by
  unfold DrainsKept
  rw [hset]
  refine ⟨length_set, ?_⟩
  apply forall_getElem?_set
  · exact fun j x hx => ⟨x, hx, fun _ hn => hn⟩
  · exact ⟨d, hget, htrack⟩

theorem drainsKept_of_next {st} (hquiet : accepts st = false) :
    next c st = some c' → DrainsKept c c' := by
  fun_cases next c st <;> intro h <;> (try cases h) <;> try exact .of_eq rfl
  · cases hquiet
  · next hget => exact .of_set hget rfl (fun _ hn => hn)
  · next hget => exact .of_set hget rfl (fun _ hn => hn)
  · next hget =>
    unfold deliver at h
    split at h
    · cases h
    · exact some.inj h ▸ .of_set hget rfl (fun _ hn => hn)
  · next hget => exact .of_set hget rfl (fun _ h => by cases h)
  · next hget _ => exact .of_set hget rfl (fun _ h => by cases h)
  · unfold take at h
    split at h
    · cases h
    · exact some.inj h ▸ .of_eq rfl
  · exact .of_eq (observeSeq_drains _ _ _)
  · unfold endError
    split <;> exact .of_eq rfl

section View

variable {t : GoString} {c : Client}

variable {au : AccessUnit} {c' : Client} {track : GoString} {i q : Nat} {call : RecvOnCall}
  {st : Step}

theorem queue_eq_of_lookup (h : c.tracks.lookup t = some q) : c.queue t = (c.tracks.cell q).ch := by
  unfold queue
  rw [h]

theorem queue_congr (h : c'.tracks = c.tracks) : c'.queue t = c.queue t := by
  unfold queue
  rw [h]

theorem sent_queue_start (t : GoString) : (start.queue t).sent = [] := by
  unfold queue
  split
  · next q hq =>
    rcases lookup_add_eq_some_iff.mp hq with ⟨-, rfl⟩ | ⟨-, hold⟩
    · rfl
    · cases hold
  · rfl

theorem queue_trackChan (c : Client) (t name : GoString) : (c.trackChan name).2.queue t = c.queue t := by
  obtain hnone | ⟨r, hsome⟩ := eq_none_or_eq_some (c.tracks.lookup name)
  · have htracks : (c.trackChan name).2.tracks = c.tracks.add name (.fresh name) := by
      simp only [trackChan, getOrAdd_of_none _ hnone]
    unfold queue
    rw [htracks]
    by_cases hname : t = name
    · simp only [hname, lookup_add_self, cell_add_created, hnone]
    · rw [show (c.tracks.add name _).lookup t = c.tracks.lookup t from lookup_insert_ne hname]
      split
      · next q hq => rw [cell_add_of_lt _ _ _ (lookup_lt hq)]
      · rfl
  · have htracks : (c.trackChan name).2.tracks = c.tracks := by
      simp only [trackChan, getOrAdd_of_some _ hsome]
    exact queue_congr htracks

theorem queue_setQueue_self (h : c.tracks.lookup t = some q) (ch : LoggedChan AccessUnit) :
    (c.setQueue q ch).queue t = ch := by
  have hq : (c.setQueue q ch).tracks.lookup t = some q := h
  rw [queue_eq_of_lookup hq, ch_setQueue, if_pos rfl]

theorem queue_setQueue_ne (h : c.tracks.lookup t ≠ some q) (ch : LoggedChan AccessUnit) :
    (c.setQueue q ch).queue t = c.queue t := by
  unfold queue
  rw [show (c.setQueue q ch).tracks.lookup t = c.tracks.lookup t from rfl]
  split
  · next r hr =>
    have hne : r ≠ q := by
      rintro rfl
      exact h hr
    rw [ch_setQueue, if_neg hne]
  · rfl

theorem Single.lookup_ne (h : Single t c) {n} (hcur : Current t c.tracks n q) (hne : n ≠ t) :
    c.tracks.lookup t ≠ some q := by
  intro hq
  exact hne (hcur.holds.2.symm.trans (h.listed t q hq))

theorem view_eq {v : TrackView} (hch : c'.queue t = v.ch)
    (hdrains : c'.drains.map (viewDrain t) = v.drains) (hcalls : c'.calls.map (viewCall t) = v.calls)
    (hcursor : c'.lastSeenSeq.lookup t = v.cursor) : c'.view t = v := by
  unfold view
  rw [hch, hdrains, hcalls, hcursor]

theorem view_same (hch : c'.queue t = c.queue t) (hdrains : c'.drains = c.drains)
    (hcalls : c'.calls = c.calls) (hseq : c'.lastSeenSeq = c.lastSeenSeq) : c'.view t = c.view t :=
  view_eq hch (by rw [hdrains]; rfl) (by rw [hcalls]; rfl) (by rw [hseq]; rfl)

theorem view_setDrain (c : Client) (t : GoString) (i : Nat) (d : FeedDrain) :
    (c.setDrain i d).view t = (c.view t).setDrain i (viewDrain t d) :=
  view_eq rfl map_set rfl rfl

theorem view_setPhase_own (h : call.track = t) (i : Nat) (phase : RecvOnPhase) :
    (c.setPhase i call phase).view t = (c.view t).setCall i phase := by
  apply view_eq rfl rfl _ rfl
  show (c.calls.set i { call with phase := phase }).map (viewCall t) = _
  rw [map_set, viewCall, if_pos h]
  rfl

theorem view_setPhase_other (h : call.track ≠ t)
    (hget : c.calls[i]? = some call) (phase : RecvOnPhase) :
    (c.setPhase i call phase).view t = c.view t := by
  apply view_eq rfl rfl _ rfl
  apply map_set_eq hget
  rw [viewCall, viewCall, if_neg h, if_neg h]

theorem view_call_own (h : call.track = t)
    (hget : c.calls[i]? = some call) : (c.view t).calls[i]? = some (some call.phase) := by
  show (c.calls.map (viewCall t))[i]? = _
  rw [getElem?_map, hget, map_some, viewCall, if_pos h]

theorem view_drain {d} (hget : c.drains[i]? = some d) :
    (c.view t).drains[i]? = some (viewDrain t d) := by
  show (c.drains.map (viewDrain t))[i]? = _
  rw [getElem?_map, hget, map_some]

theorem view_setDrain_same {d d'} (hget : c.drains[i]? = some d)
    (hsame : viewDrain t d' = viewDrain t d) : (c.setDrain i d').view t = c.view t :=
  view_eq rfl (map_set_eq hget hsame) rfl rfl

theorem trackStep_moved {phase} (hquiet : accepts st = false) (hget : c.calls[i]? = some call)
    (hpending : call.phase = .looked ∨ (∃ d, call.phase = .waiting d) ∨ call.phase = .ending)
    (hempty : (∃ d, phase = .waiting d) ∨ phase = .ending ∨ ∃ err, phase = .returned .zero (some err))
    (hview : c'.view t = (c.setPhase i call phase).view t) :
    TrackStep t c.feedErr (c.view t) st (c'.view t) := by
  rw [hview]
  by_cases htrack : call.track = t
  · rw [view_setPhase_own htrack]
    exact .moved hquiet (view_call_own htrack hget) hpending hempty
  · rw [view_setPhase_other htrack hget]
    exact .same hquiet

theorem trackStep_takeErr {err} (hquiet : accepts st = false) (hget : c.calls[i]? = some call)
    (hpending : (∃ d, call.phase = .waiting d) ∨ call.phase = .ending)
    (hslot : c.feedErr = some err) :
    TrackStep t c.feedErr (c.view t) st ((c.takeErr i call err).view t) := by
  have hview : (c.takeErr i call err).view t = (c.setPhase i call (.returned .zero err)).view t := rfl
  cases err with
  | some e => exact trackStep_moved hquiet hget (.inr hpending) (.inr (.inr ⟨e, rfl⟩)) hview
  | none =>
    rw [hview]
    by_cases htrack : call.track = t
    · rw [view_setPhase_own htrack]
      exact .nilError hquiet (view_call_own htrack hget) hpending hslot
    · rw [view_setPhase_other htrack hget]
      exact .same hquiet

theorem trackStep_lookup (hget : c.drains[i]? = some (.opened track)) :
    TrackStep t c.feedErr (c.view t) (.lookup i) ((c.lookupQueue i track).view t) := by
  have hview : (c.trackChan track).2.view t = c.view t := view_same (queue_trackChan c t track) rfl rfl rfl
  have hget' : (c.trackChan track).2.drains[i]? = some (.opened track) := hget
  unfold lookupQueue
  by_cases htrack : track = t
  · have hv : viewDrain t (.reading track (c.trackChan track).1) = some .reading := if_pos htrack
    rw [view_setDrain, hview, hv]
    refine .lookup ((view_drain hget).trans ?_)
    rw [viewDrain, if_pos htrack]
  · rw [view_setDrain_same hget' (by rw [viewDrain, viewDrain, if_neg htrack, if_neg htrack]), hview]
    exact .same rfl

theorem view_decode_own (i q : Nat) (f : FeedFrame) :
    (c.decode i t q f).view t = (c.view t).setDrain i (some (.holding (feedUnit f))) := by
  have hv : viewDrain t (.holding t q (feedUnit f)) = some (.holding (feedUnit f)) := if_pos rfl
  rw [← hv]
  exact view_setDrain c t i _

theorem view_decode_other (h : track ≠ t)
    (hget : c.drains[i]? = some (.reading track q)) (f : FeedFrame) :
    (c.decode i track q f).view t = c.view t :=
  view_setDrain_same hget (by rw [viewDrain, viewDrain, if_neg h, if_neg h])

theorem trackStep_decode (f : FeedFrame) (hget : c.drains[i]? = some (.reading track q)) :
    TrackStep t c.feedErr (c.view t) (.decode i f) ((c.decode i track q f).view t) := by
  by_cases htrack : track = t
  · subst htrack
    rw [view_decode_own]
    refine .decode ((view_drain hget).trans ?_)
    rw [viewDrain, if_pos rfl]
  · rw [view_decode_other htrack hget]
    exact .same rfl

theorem trackStep_deliver (h : Single t c) {ch} (hget : c.drains[i]? = some (.holding track q au))
    (hsent : (c.tracks.cell q).ch.trySend au = some ch) :
    TrackStep t c.feedErr (c.view t) (.deliver i)
      (((c.setQueue q ch).setDrain i (.reading track q)).view t) := by
  have hcur := h.drains _ (mem_of_getElem? hget) track q rfl
  have hget' : (c.setQueue q ch).drains[i]? = some (.holding track q au) := hget
  by_cases htrack : track = t
  · have hq := hcur.inMap htrack
    have hv : viewDrain t (.reading track q) = some .reading := if_pos htrack
    have hview : (c.setQueue q ch).view t = { c.view t with ch := ch } :=
      view_eq (queue_setQueue_self hq ch) rfl rfl rfl
    rw [view_setDrain, hview, hv]
    have hholding : (c.view t).drains[i]? = some (some (.holding au)) := by
      rw [view_drain hget, viewDrain, if_pos htrack]
    have hqueue : (c.view t).ch = (c.tracks.cell q).ch := queue_eq_of_lookup hq
    exact .deliver hholding (hqueue ▸ hsent)
  · have hview : (c.setQueue q ch).view t = c.view t :=
      view_same (queue_setQueue_ne (h.lookup_ne hcur htrack) ch) rfl rfl rfl
    rw [view_setDrain_same hget' (by rw [viewDrain, viewDrain, if_neg htrack, if_neg htrack]), hview]
    exact .same rfl

theorem trackStep_take (h : Single t c) {d ch} (hget : c.calls[i]? = some call)
    (hwait : call.phase = .waiting d) (hrecv : (c.tracks.cell call.q).ch.tryRecv = some (au, ch)) :
    TrackStep t c.feedErr (c.view t) (.take i)
      (((c.setQueue call.q ch).setPhase i call (.taken au)).view t) := by
  have hcur := h.calls call (mem_of_getElem? hget)
  have hget' : (c.setQueue call.q ch).calls[i]? = some call := hget
  by_cases htrack : call.track = t
  · have hq := hcur.inMap htrack
    have hview : (c.setQueue call.q ch).view t = { c.view t with ch := ch } :=
      view_eq (queue_setQueue_self hq ch) rfl rfl rfl
    rw [view_setPhase_own htrack, hview]
    have hwaiting : (c.view t).calls[i]? = some (some (.waiting d)) := by
      rw [view_call_own htrack hget, hwait]
    have hqueue : (c.view t).ch = (c.tracks.cell call.q).ch := queue_eq_of_lookup hq
    exact .take hwaiting (hqueue ▸ hrecv)
  · have hview : (c.setQueue call.q ch).view t = c.view t :=
      view_same (queue_setQueue_ne (h.lookup_ne hcur htrack) ch) rfl rfl rfl
    rw [view_setPhase_other htrack hget', hview]
    exact .same rfl

theorem lookup_observeSeq_self (c : Client) (t : GoString) (seq : UInt32) :
    (c.observeSeq t seq).lastSeenSeq.lookup t = some (raise (c.lastSeenSeq.lookup t) seq) := by
  unfold observeSeq
  split
  · next hnone => rw [lookup_insert, hnone, raise]
  · next prev hprev =>
    rw [hprev, raise]
    split
    · rw [lookup_insert]
    · exact hprev

theorem lookup_observeSeq_ne (h : track ≠ t) (seq : UInt32) :
    (c.observeSeq track seq).lastSeenSeq.lookup t = c.lastSeenSeq.lookup t := by
  unfold observeSeq
  split
  · rw [lookup_insert_ne h.symm]
  · split
    · rw [lookup_insert_ne h.symm]
    · rfl

theorem trackStep_observe (hget : c.calls[i]? = some call) (htaken : call.phase = .taken au) :
    TrackStep t c.feedErr (c.view t) (.observe i)
      (((c.observeSeq call.track au.seq).setPhase i call (.returned au none)).view t) := by
  have hget' : (c.observeSeq call.track au.seq).calls[i]? = some call := by
    rw [observeSeq_calls, hget]
  have hqueue : (c.observeSeq call.track au.seq).queue t = c.queue t :=
    queue_congr (observeSeq_tracks _ _ _)
  have hdrains : (c.observeSeq call.track au.seq).drains.map (viewDrain t) = (c.view t).drains := by
    rw [observeSeq_drains]
    rfl
  have hcalls : (c.observeSeq call.track au.seq).calls.map (viewCall t) = (c.view t).calls := by
    rw [observeSeq_calls]
    rfl
  by_cases htrack : call.track = t
  · have hview : (c.observeSeq call.track au.seq).view t =
        { c.view t with cursor := some (raise (c.view t).cursor au.seq) } :=
      view_eq hqueue hdrains hcalls (htrack ▸ lookup_observeSeq_self c call.track au.seq)
    rw [view_setPhase_own htrack, hview]
    exact .observe ((view_call_own htrack hget).trans (by rw [htaken]))
  · have hview : (c.observeSeq call.track au.seq).view t = c.view t :=
      view_eq hqueue hdrains hcalls (lookup_observeSeq_ne htrack au.seq)
    rw [view_setPhase_other htrack hget', hview]
    exact .same rfl

theorem trackStep_of_effect (h : Single t c) (hkeeps : keepsTrack t st = true)
    (hdrain : ∀ i, st ≠ .lookup i ∧ st ≠ .stop i ∧ ∀ f, st ≠ .decode i f) (hstep : Effect c st c') :
    TrackStep t c.feedErr (c.view t) st (c'.view t) := by
  cases hstep with
  | @announce a =>
    have hview : (c.handleRemoteAnnounce a).view t = c.view t :=
      view_same (queue_trackChan c t a.name) rfl rfl rfl
    rw [hview]
    exact .same rfl
  | @unannounce u =>
    have hne : u.name ≠ t := of_decide_eq_true hkeeps
    have hlookup : (c.tracks.remove u.name).lookup t = c.tracks.lookup t :=
      lookup_erase_ne hne.symm
    have hview : (c.handleRemoteUnannounce u).view t = c.view t := by
      refine view_same ?_ rfl rfl rfl
      unfold queue
      simp only [handleRemoteUnannounce, hlookup, cell_remove]
    rw [hview]
    exact .same rfl
  | @stream header =>
    have hview : view { c with drains := c.drains ++ [.opened (streamTrack header)] } t =
        { c.view t with
          drains := (c.view t).drains ++ [viewDrain t (.opened (streamTrack header))] } :=
      view_eq rfl map_append rfl rfl
    rw [hview, viewDrain]
    split
    · next htrack => exact .opened htrack
    · next htrack => exact .foreignStream htrack
  | @lookup i => exact absurd rfl (hdrain i).1
  | @decode i _ _ f => exact absurd rfl ((hdrain i).2.2 f)
  | deliver hget hsent => exact trackStep_deliver h hget hsent
  | @stop i => exact absurd rfl (hdrain i).2.1
  | @recvOn track =>
    have hview : (c.recvOn track).view t = { c.view t with
        calls := (c.view t).calls ++ [if track = t then some .looked else none] } :=
      view_eq (queue_trackChan c t track) rfl map_append rfl
    rw [hview]
    split
    · next htrack => exact .called htrack
    · next htrack => exact .foreignCall htrack
  | findDone hget hlooked =>
    exact trackStep_moved rfl hget (.inl hlooked) (.inl ⟨_, rfl⟩) rfl
  | take hget hwait hrecv => exact trackStep_take h hget hwait hrecv
  | observe hget htaken => exact trackStep_observe hget htaken
  | takeErr hget hwait hslot => exact trackStep_takeErr rfl hget (.inl ⟨_, hwait⟩) hslot
  | takeDone hget hwait | cancel hget hwait =>
    exact trackStep_moved rfl hget (.inr (.inl ⟨_, hwait⟩)) (.inr (.inr ⟨_, rfl⟩)) rfl
  | seeClosed hget hwait =>
    exact trackStep_moved rfl hget (.inr (.inl ⟨_, hwait⟩)) (.inr (.inl rfl)) rfl
  | endErr hget hending hslot => exact trackStep_takeErr rfl hget (.inr hending) hslot
  | endClosed hget hending =>
    exact trackStep_moved rfl hget (.inr (.inr hending)) (.inr (.inr ⟨_, rfl⟩)) rfl
  | _ => exact .same rfl

/-- **The view of a step** that does not unannounce the track. -/
theorem trackStep_of_next (h : Single t c) (hkeeps : keepsTrack t st = true)
    (hnext : next c st = some c') : TrackStep t c.feedErr (c.view t) st (c'.view t) := by
  cases st with
  | lookup i =>
    simp only [next] at hnext
    split at hnext
    · next hget => exact some.inj hnext ▸ trackStep_lookup hget
    · cases hnext
  | decode i f =>
    simp only [next] at hnext
    split at hnext
    · next hget => exact some.inj hnext ▸ trackStep_decode f hget
    · cases hnext
  | stop i =>
    have hview : (c.setDrain i .stopped).view t = (c.view t).setDrain i none := view_setDrain c t i .stopped
    obtain rfl : c' = c.setDrain i .stopped := by
      cases effect_of_next hnext with
      | stop => rfl
    rw [hview]
    exact .stop
  | _ =>
    exact trackStep_of_effect h hkeeps
      (fun i => ⟨Step.noConfusion, Step.noConfusion, fun _ => Step.noConfusion⟩) (effect_of_next hnext)

end View

end Client

end QuicRTC

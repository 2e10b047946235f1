import QuicRTC.Sdk.Client
import Mathlib.Data.List.Perm.Subperm

/-! # The Resume Cursor of the TypeScript Client

The `last_seen` of a HELLO tells the server what it need not replay. The cursor moves when a frame
is drained; `close` throws away what is queued then, and the reconnect sends the cursor all the
same.
-/

namespace QuicRTC.Sdk

open LTS List Option Slots

/-! ## What was drained and what became of it -/

def drainedAt (l : List Drained) (i : Nat) : List AccessUnit :=
  (l.filter (fun d => decide (d.receiver = i))).map Drained.au

/-- Handed to the application, or dropped. -/
def settledAt (l : List (Nat × Event AccessUnit)) (i : Nat) : List AccessUnit :=
  (l.filter (fun e => decide (e.1 = i))).filterMap (fun e => e.2.settled)

def droppedAt (l : List (Nat × Event AccessUnit)) (i : Nat) : Nat :=
  l.countP (fun e => decide (e.1 = i) && e.2.isDropped)

/-- What was drained up to the cursor has been settled, one for one, and what was dropped is
    counted. -/
structure SentHello.Acknowledged (h : SentHello) : Prop where
  settled : ∀ track m, h.lastSeen.lookup track = some m → ∀ i,
              ((h.drained.filter (fun d => decide (d.track = track ∧ d.receiver = i ∧ d.au.seq ≤ m))).map
                Drained.au).Subperm (settledAt h.events i)
  counted : ∀ i, droppedAt h.events i ≤ (h.droppedAUs[i]?).getD 0

theorem drainedAt_append (l l' : List Drained) (i : Nat) :
    drainedAt (l ++ l') i = drainedAt l i ++ drainedAt l' i := by
  unfold drainedAt
  rw [filter_append, map_append]

theorem settledAt_append (l l' : List (Nat × Event AccessUnit)) (i : Nat) :
    settledAt (l ++ l') i = settledAt l i ++ settledAt l' i := by
  unfold settledAt
  rw [filter_append, filterMap_append]

theorem drainedAt_own (track : GoString) (l : List AccessUnit) (i : Nat) :
    drainedAt (l.map (fun au => ⟨track, i, au⟩)) i = l := by
  unfold drainedAt
  rw [List.filter_eq_self.mpr, List.map_map]
  · exact List.map_id l
  · intro d hd
    obtain ⟨au, -, rfl⟩ := List.mem_map.mp hd
    exact decide_eq_true rfl

theorem drainedAt_other (track : GoString) (l : List AccessUnit) {i j} (h : i ≠ j) :
    drainedAt (l.map (fun au => ⟨track, i, au⟩)) j = [] := by
  unfold drainedAt
  rw [filter_eq_nil_iff.mpr, map_nil]
  intro d hd
  obtain ⟨au, -, rfl⟩ := mem_map.mp hd
  simpa using h

theorem settledAt_own (l : List (Event AccessUnit)) (i : Nat) :
    settledAt (l.map (fun e => (i, e))) i = l.filterMap Event.settled := by
  unfold settledAt
  rw [filter_eq_self.mpr, filterMap_map]
  · rfl
  · intro e he
    obtain ⟨e, -, rfl⟩ := mem_map.mp he
    exact decide_eq_true rfl

theorem droppedAt_append (l l' : List (Nat × Event AccessUnit)) (i : Nat) :
    droppedAt (l ++ l') i = droppedAt l i + droppedAt l' i := countP_append

theorem droppedAt_own (l : List (Event AccessUnit)) (i : Nat) :
    droppedAt (l.map (fun e => (i, e))) i = l.countP Event.isDropped := by
  unfold droppedAt
  rw [countP_map]
  apply countP_congr
  intro e _
  simp

theorem droppedAt_other (l : List (Event AccessUnit)) {i j} (h : i ≠ j) :
    droppedAt (l.map (fun e => (i, e))) j = 0 := by
  unfold droppedAt
  rw [countP_map, countP_eq_zero]
  intro e _
  simp [h]

theorem settledAt_other (l : List (Event AccessUnit)) {i j} (h : i ≠ j) :
    settledAt (l.map (fun e => (i, e))) j = [] := by
  unfold settledAt
  rw [filter_eq_nil_iff.mpr, filterMap_nil]
  intro e he
  obtain ⟨e, -, rfl⟩ := mem_map.mp he
  simpa using h

theorem TrackReceiver.Conserves.queue_nil {α : Type} {r : TrackReceiver α}
    {res : TrackReceiver α × List (Event α)} (h : Conserves r [] res) (hnil : r.queue = []) :
    res.1.queue = [] := by
  have hunits := h.units
  rw [hnil] at hunits
  exact (append_eq_nil_iff.mp (nil_perm.mp hunits)).2

namespace QuicRTCClient

/-- The receivers were closed after an error, and there is no connection yet. -/
def recovering (c : QuicRTCClient) : Bool :=
  c.afterError &&
    match c.phase with
    | .closed | .backoff | .connecting | .handshaking => true
    | _ => false

/-- A receiver is closed when it holds nothing; a frame is drained into an open receiver,
    and not during the recovery from an error. -/
def careful (c : QuicRTCClient) : Label → Bool
  | .frame d _ =>
    match c.drains[d]? with
    | some (.reading _ i) => !c.recovering && (c.receivers[i]?).all (fun r => !r.closed)
    | _ => true
  | .unannounce name =>
    match c.tracks.lookup name with
    | some i => (c.receivers[i]?).all (fun r => decide (r.queue = []))
    | none => true
  | .closeTracks => c.receivers.all (fun r => decide (r.queue = []))
  | _ => true

/-! ## The books -/

def queueAt (c : QuicRTCClient) (i : Nat) : List AccessUnit :=
  ((c.receivers[i]?).map TrackReceiver.queue).getD []

def countAt (c : QuicRTCClient) (i : Nat) : Nat :=
  ((c.receivers[i]?).map TrackReceiver.droppedAUs).getD 0

structure Books (c : QuicRTCClient) : Prop where
  balance : ∀ i, (drainedAt c.drained i).Perm (settledAt c.events i ++ c.queueAt i)
  counted : ∀ i, droppedAt c.events i ≤ c.countAt i
  empty : c.recovering = true → ∀ r ∈ c.receivers, r.queue = []
  hellos : ∀ h ∈ c.hellos, h.afterError = true → h.Acknowledged

namespace Books

variable {c : QuicRTCClient}

variable {i : Nat} {c' : QuicRTCClient} {r : TrackReceiver AccessUnit}

theorem move (h : Books c) {arrived : List AccessUnit} (track : GoString)
    {res : TrackReceiver AccessUnit × List (Event AccessUnit)} (hget : c.receivers[i]? = some r)
    (hunits : r.Conserves arrived res) (hlost : res.2.filterMap Event.lost = [])
    (hidle : c.recovering = true → arrived = []) (hreceivers : c'.receivers = c.receivers.set i res.1)
    (hevents : c'.events = c.events ++ res.2.map (fun e => (i, e)))
    (hdrained : c'.drained = c.drained ++ arrived.map (fun au => ⟨track, i, au⟩))
    (hrecovering : c'.recovering = c.recovering) (hhellos : c'.hellos = c.hellos) : Books c' := by
  refine ⟨fun j => ?_, fun j => ?_, fun hrec => ?_, hhellos ▸ h.hellos⟩
  · rw [hdrained, hevents, drainedAt_append, settledAt_append]
    unfold queueAt
    rw [hreceivers]
    by_cases hij : i = j
    · subst hij
      have hbalance := h.balance i
      have hqueued := hunits.units
      unfold queueAt at hbalance
      simp only [hget, map_some, getD_some] at hbalance
      rw [hlost, append_nil] at hqueued
      rw [drainedAt_own, settledAt_own, getElem?_set_some hget]
      show (drainedAt c.drained i ++ arrived).Perm
        (settledAt c.events i ++ res.2.filterMap Event.settled ++ res.1.queue)
      calc drainedAt c.drained i ++ arrived
          _ |>.Perm (settledAt c.events i ++ r.queue ++ arrived) := hbalance.append_right _
          _ = settledAt c.events i ++ (r.queue ++ arrived) := append_assoc ..
          _ |>.Perm (settledAt c.events i ++ (res.2.filterMap Event.settled ++ res.1.queue)) :=
            hqueued.append_left _
          _ = settledAt c.events i ++ res.2.filterMap Event.settled ++ res.1.queue :=
            (append_assoc ..).symm
    · rw [drainedAt_other track arrived hij, settledAt_other _ hij, append_nil, append_nil,
        getElem?_set_ne hij]
      exact h.balance j
  · have hold := h.counted j
    unfold countAt at hold ⊢
    rw [hevents, droppedAt_append, hreceivers]
    by_cases hij : i = j
    · subst hij
      simp only [hget, map_some, getD_some] at hold
      rw [droppedAt_own, getElem?_set_some hget]
      exact Nat.le_trans (Nat.add_le_add_right hold _) hunits.counted
    · rw [droppedAt_other _ hij, getElem?_set_ne hij]
      exact hold
  · rw [hrecovering] at hrec
    have hempty := h.empty hrec
    rw [hreceivers]
    refine forall_mem_set hempty ?_
    rw [hidle hrec] at hunits
    exact hunits.queue_nil (hempty r (mem_of_getElem? hget))

theorem onReceiver (h : Books c) {res} (hget : c.receivers[i]? = some r)
    (hunits : r.Conserves [] res) (hlost : res.2.filterMap Event.lost = []) :
    Books (c.onReceiver i res) :=
  h.move [] hget hunits hlost (fun _ => rfl) rfl rfl (append_nil _).symm rfl rfl

theorem createTrack (h : Books c) (name : GoString) : Books (c.createTrack name) := by
  -- the new receiver looks like none at all
  have hsame : (c.createTrack name).queueAt = c.queueAt ∧ (c.createTrack name).countAt = c.countAt := by
    refine ⟨funext fun i => ?_, funext fun i => ?_⟩
    · exact getD_map_snoc c.receivers i rfl
    · exact getD_map_snoc c.receivers i rfl
  refine ⟨fun i => ?_, fun i => ?_, fun hrec => ?_, h.hellos⟩
  · rw [hsame.1]
    exact h.balance i
  · rw [hsame.2]
    exact h.counted i
  · exact forall_mem_snoc (h.empty hrec) rfl

theorem getOrCreateTrack (h : Books c) (name : GoString) : Books (c.getOrCreateTrack name).1 := by
  unfold QuicRTCClient.getOrCreateTrack
  split
  · exact h
  · exact h.createTrack name

theorem onTrackOf (h : Books c) (name : GoString)
    {f : TrackReceiver AccessUnit → TrackReceiver AccessUnit × List (Event AccessUnit)}
    (hunits : ∀ r, TrackReceiver.Conserves r [] (f r))
    (hlost : ∀ r, (f r).2.filterMap Event.lost = []) : Books (c.onTrackOf name f) := by
  have h' := h.getOrCreateTrack name
  unfold QuicRTCClient.onTrackOf
  generalize c.getOrCreateTrack name = found at h' ⊢
  obtain ⟨c', i⟩ := found
  simp only
  split
  · next r hget => exact h'.onReceiver hget (hunits r) (hlost r)
  · exact h'

theorem closeReceiver (h : Books c) (hempty : ∀ r, c.receivers[i]? = some r → r.queue = []) :
    Books (c.closeReceiver i) := by
  unfold QuicRTCClient.closeReceiver
  split
  · next r hget => exact h.onReceiver hget r.close_conserves (r.close_lost (hempty r hget))
  · exact h

theorem keep (h : Books c) (hreceivers : c'.receivers = c.receivers)
    (hdrained : c'.drained = c.drained) (hevents : c'.events = c.events)
    (hempty : c'.recovering = true → ∀ r ∈ c.receivers, r.queue = [])
    (hhellos : ∀ h ∈ c'.hellos, h.afterError = true → h.Acknowledged) : Books c' := by
  refine ⟨fun i => ?_, fun i => ?_, ?_, hhellos⟩
  · unfold queueAt
    rw [hreceivers, hdrained, hevents]
    exact h.balance i
  · unfold countAt
    rw [hreceivers, hevents]
    exact h.counted i
  · rw [hreceivers]
    exact hempty

theorem foldl_closeReceiver (ids : List Nat) :
    ∀ c : QuicRTCClient, Books c → (∀ r ∈ c.receivers, r.queue = []) →
      Books (ids.foldl QuicRTCClient.closeReceiver c) ∧
        ∀ r ∈ (ids.foldl QuicRTCClient.closeReceiver c).receivers, r.queue = [] := by
  induction ids with
  | nil => exact fun c h hempty => ⟨h, hempty⟩
  | cons i ids ih =>
    intro c h hempty
    apply ih
    · apply h.closeReceiver
      exact fun r hget => hempty r (mem_of_getElem? hget)
    · unfold QuicRTCClient.closeReceiver
      split
      · next r hget =>
        have hnil := hempty r (mem_of_getElem? hget)
        exact forall_mem_set hempty (r.close_conserves.queue_nil hnil)
      · exact hempty

theorem closeTracks (h : Books c) (hempty : ∀ r ∈ c.receivers, r.queue = []) :
    Books { c.closeTracks with phase := .closed } := by
  obtain ⟨hbooks, hnil⟩ := foldl_closeReceiver (c.tracks.entries.map Sigma.snd) c h hempty
  exact hbooks.keep rfl rfl rfl (fun _ => hnil) hbooks.hellos

theorem gotFrame (h : Books c) {d track} (f : Wire.FeedFrame) (hget : c.receivers[i]? = some r)
    (hopen : r.closed = false) (hidle : c.recovering = false) :
    Books (c.gotFrame d track i r f) := by
  refine h.move track hget (r.deliver_conserves (accessUnit f)) (r.deliver_lost hopen) (fun hrec => ?_)
    rfl rfl rfl rfl rfl
  rw [hidle] at hrec
  cases hrec

theorem acknowledged (h : Books c) (hempty : ∀ r ∈ c.receivers, r.queue = []) (session : Option GoString)
    (lastSeen : GoMap UInt32) (afterError : Bool) :
    SentHello.Acknowledged ⟨session, lastSeen, afterError, c.drained, c.events,
      c.receivers.map TrackReceiver.droppedAUs⟩ := by
  refine ⟨fun track m _ i => ?_, fun i => ?_⟩
  swap
  · rw [getElem?_map]
    exact h.counted i
  have hqueue : c.queueAt i = [] := by
    unfold queueAt
    obtain hnone | ⟨r, hget⟩ := eq_none_or_eq_some c.receivers[i]?
    · rw [hnone]
      rfl
    · rw [hget]
      exact hempty r (mem_of_getElem? hget)
  have hbalance := h.balance i
  rw [hqueue, append_nil] at hbalance
  refine Subperm.trans (Sublist.subperm ?_) hbalance.subperm
  refine (monotone_filter_right _ ?_).map _
  intro d hd
  simp only [decide_eq_true_eq] at hd ⊢
  exact hd.2.1

theorem sendHello (h : Books c) (hphase : c.phase = .connecting) : Books c.sendHello := by
  have hrec : c.recovering = c.afterError := by
    unfold recovering
    rw [hphase]
    exact Bool.and_true _
  have hempty : c.sendHello.recovering = true → ∀ r ∈ c.receivers, r.queue = [] := by
    intro hr
    apply h.empty
    rw [hrec]
    exact (Bool.and_eq_true_iff.mp hr).1
  refine h.keep rfl rfl rfl hempty (forall_mem_snoc h.hellos (fun herror => ?_))
  exact h.acknowledged (h.empty (hrec.trans herror)) _ _ _

theorem phase (h : Books c) (hreceivers : c'.receivers = c.receivers)
    (hdrained : c'.drained = c.drained) (hevents : c'.events = c.events) (hhellos : c'.hellos = c.hellos)
    (hrecovering : c'.recovering = true → c.recovering = true) : Books c' :=
  h.keep hreceivers hdrained hevents (fun hrec => h.empty (hrecovering hrec)) (hhellos ▸ h.hellos)

theorem scheduleReconnect (h : Books c) (hrecovering : c.afterError = true → c.recovering = true) :
    Books c.scheduleReconnect := by
  unfold QuicRTCClient.scheduleReconnect
  split
  · exact h.phase rfl rfl rfl rfl (fun hrec => hrecovering (Bool.and_eq_true_iff.mp hrec).1)
  · exact h.phase rfl rfl rfl rfl (fun hrec => hrecovering (Bool.and_eq_true_iff.mp hrec).1)

theorem stop (h : Books c) : Books { c with phase := .stopped } :=
  h.phase rfl rfl rfl rfl (fun hrec => Bool.noConfusion ((Bool.and_false _).symm.trans hrec))

theorem recovering_of_phase {c : QuicRTCClient}
    (hphase : c.phase = .closed ∨ c.phase = .backoff ∨ c.phase = .connecting ∨ c.phase = .handshaking)
    (herror : c.afterError = true) : c.recovering = true := by
  unfold recovering
  rcases hphase with hphase | hphase | hphase | hphase <;> rw [herror, hphase] <;> rfl

/-! ## Every careful step -/

theorem recvOn (h : Books c) (name : GoString) (timed abortable isAborted : Bool) :
    Books (c.recvOn name timed abortable isAborted) := by
  unfold QuicRTCClient.recvOn
  split
  · have h' := h.onTrackOf name (f := fun r => r.recv ⟨c.calls, timed, abortable⟩ isAborted)
      (fun r => r.recv_conserves _ _) (fun r => r.recv_lost _ _)
    exact h'.phase rfl rfl rfl rfl id
  · exact h.phase rfl rfl rfl rfl id

theorem onTrack (h : Books c) (name : GoString) (callback : Nat) : Books (c.onTrack name callback) := by
  unfold QuicRTCClient.onTrack
  split
  · exact h.onTrackOf name (fun r => r.onAU_conserves callback)
      (fun r => Event.filterMap_map_none (fun _ => rfl) r.queue)
  · exact h

theorem waiterStep (h : Books c) {w}
    {f : TrackReceiver AccessUnit → Option (TrackReceiver AccessUnit × List (Event AccessUnit))}
    (hf : ∀ r res, f r = some res → ∃ err, res = r.giveUp w err)
    (hstep : c.waiterStep i f = some c') : Books c' := by
  obtain ⟨r, hget, hstep⟩ := bind_eq_some_iff.mp hstep
  obtain ⟨res, hres, hstep⟩ := bind_eq_some_iff.mp hstep
  obtain ⟨err, rfl⟩ := hf r res hres
  rw [← some.inj hstep]
  exact h.onReceiver hget (r.giveUp_conserves w err) rfl

theorem gotHeader (h : Books c) (d : Nat) (name : GoString) : Books (c.gotHeader d name) := by
  unfold QuicRTCClient.gotHeader
  generalize (if name = [] then str "primary" else name) = finalName
  simp only
  split
  · exact (h.getOrCreateTrack _).phase rfl rfl rfl rfl id
  · exact h.phase rfl rfl rfl rfl id

theorem handleAnnounce (h : Books c) (name : GoString) : Books (c.handleAnnounce name) := by
  unfold QuicRTCClient.handleAnnounce
  split
  · exact h.getOrCreateTrack name
  · exact h

theorem handleUnannounce (h : Books c) {name} (hok : c.careful (.unannounce name) = true) :
    Books (c.handleUnannounce name) := by
  unfold QuicRTCClient.handleUnannounce
  split
  · next i hlookup =>
    have h' : Books { c with tracks := c.tracks.erase name } := h.phase rfl rfl rfl rfl id
    apply h'.closeReceiver
    intro r hget
    have hget' : c.receivers[i]? = some r := hget
    simp only [careful, hlookup, hget', all_some, decide_eq_true_eq] at hok
    exact hok
  · exact h

theorem step (h : Books c) {l} (hok : c.careful l = true) : c.next l = some c' → Books c' := by
  fun_cases c.next l <;> intro hstep
  all_goals try cases hstep
  · exact h.recvOn ..
  · exact h.waiterStep (fun r _ => r.giveUp_of_timeout) hstep
  · exact h.waiterStep (fun r _ => r.giveUp_of_abort) hstep
  · exact h.onTrack ..
  · exact h.phase rfl rfl rfl rfl id
  · exact h.gotHeader ..
  · next hdrain =>
    obtain ⟨r, hget, rfl⟩ := map_eq_some_iff.mp hstep
    simp only [careful, hdrain, hget, all_some] at hok
    obtain ⟨hidle, hopen⟩ := Bool.and_eq_true_iff.mp hok
    exact h.gotFrame _ hget (Bool.eq_false_of_not_eq_true' hopen)
      (Bool.eq_false_of_not_eq_true' hidle)
  · exact h.phase rfl rfl rfl rfl id
  · exact h.handleAnnounce _
  · exact h.handleUnannounce hok
  · exact h.phase rfl rfl rfl rfl nofun
  · exact h.phase rfl rfl rfl rfl
      (fun hrec => Bool.noConfusion ((Bool.and_false _).symm.trans hrec))
  · exact h.phase rfl rfl rfl rfl
      (fun hrec => Bool.noConfusion ((Bool.and_false _).symm.trans hrec))
  · exact h.closeTracks (fun r hr => of_decide_eq_true (all_eq_true.mp hok r hr))
  · next hphase =>
    split
    · exact h.scheduleReconnect (recovering_of_phase (.inl hphase))
    · exact h.stop
  · have h' : Books { c with isAborted := false, afterError := false } :=
      h.phase rfl rfl rfl rfl nofun
    exact h'.scheduleReconnect nofun
  · next hphase =>
    refine h.phase rfl rfl rfl rfl (fun hrec => ?_)
    exact recovering_of_phase (.inr (.inl hphase)) (Bool.and_eq_true_iff.mp hrec).1
  · next hphase => exact h.sendHello hphase
  · next hphase =>
    split
    · exact h.scheduleReconnect (recovering_of_phase (.inr (.inr hphase)))
    · exact h.stop
  · exact h.phase rfl rfl rfl rfl nofun

end Books

/-! ## Results -/

/-- **A safe acknowledgement.** If every step is careful, what was drained up to the cursor
    of a HELLO after an error on the control stream has been handed to the application or
    dropped. -/
theorem last_seen_acknowledges {opts : Options} {sessionId : Option GoString} :
    ∀ c, Reachable ((clientSystem opts sessionId).restrict (fun c l => c.careful l = true)) c →
      ∀ h ∈ c.hellos, h.afterError = true → h.Acknowledged := by
  intro c hc
  have hinv : Books c := by
    refine invariant_restrict Books ?_ (fun _ _ _ _ h => h.step) c hc
    exact ⟨fun _ => Perm.nil, fun _ => Nat.le_refl _, nofun, nofun⟩
  exact hinv.hellos

def keyframe : Wire.FeedFrame := ⟨Wire.typeKeyframe, 0, 7, 0, 0, [1]⟩

/-- Connected, with a stream of `primary`. -/
def streaming : List Label := [.hello, .sdp (some (str "s")), .accept, .header 0 []]

def reconnects : List Label := [.controlError, .closeTracks, .closeDone, .timer, .hello]

def acknowledgesKeyframe (h : SentHello) : Bool :=
  h.afterError && decide (h.lastSeen.lookup (str "primary") = some 7) &&
    decide (h.drained = [⟨str "primary", 0, accessUnit keyframe⟩])

/-- `recv` returns the keyframe before the connection is lost. -/
theorem last_seen_acknowledges_received :
    ∃ c, Reachable ((clientSystem .defaults none).restrict (fun c l => c.careful l = true)) c ∧
      ∃ h ∈ c.hellos, h.afterError = true ∧ acknowledgesKeyframe h = true ∧ h.Acknowledged := by
  refine exists_run_given_imp
    (streaming ++ [.recvOn (str "primary") false false false, .frame 0 keyframe] ++ reconnects)
    (fun c hc (hp : c.hellos.any acknowledgesKeyframe = true) => ?_) (by decide +kernel)
  obtain ⟨h, hh, hack⟩ := any_eq_true.mp hp
  have herror : h.afterError = true := (Bool.and_eq_true_iff.mp (Bool.and_eq_true_iff.mp hack).1).1
  exact ⟨h, hh, herror, hack, last_seen_acknowledges c hc h hh herror⟩

/-- `close` throws the queued keyframe away, and the HELLO acknowledges it. -/
theorem queued_unit_acknowledged :
    ∃ c, Reachable (clientSystem .defaults none) c ∧
      ∃ h ∈ c.hellos, h.afterError = true ∧ acknowledgesKeyframe h = true ∧ ¬ h.Acknowledged := by
  refine exists_run_imp (streaming ++ [.frame 0 keyframe] ++ reconnects)
    (fun c hc (hp : ∃ h ∈ c.hellos, acknowledgesKeyframe h = true ∧ settledAt h.events 0 = []) => ?_)
    (by decide +kernel)
  obtain ⟨h, hh, hack, hsettled⟩ := hp
  obtain ⟨hrest, hdrained⟩ := Bool.and_eq_true_iff.mp hack
  obtain ⟨herror, hseen⟩ := Bool.and_eq_true_iff.mp hrest
  refine ⟨h, hh, herror, hack, fun hacked => ?_⟩
  have hsub := hacked.settled (str "primary") 7 (of_decide_eq_true hseen) 0
  rw [of_decide_eq_true hdrained, hsettled] at hsub
  -- one was drained, and none was settled
  have hlen : 1 ≤ 0 := hsub.length_le
  omega

end QuicRTCClient

end QuicRTC.Sdk

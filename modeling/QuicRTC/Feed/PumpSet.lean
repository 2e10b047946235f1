import QuicRTC.Feed.Frame
import QuicRTC.Feed.Scheduler

/-! # The Pumps of a Session

The pumps of a session's tracks with one scheduler between them, down to the single `Write`: the
four loops of `feed/pump.go`, `feed/datagram.go` and `feed/bidi.go`.

A lane is a goroutine that writes: the loop of a pump, or one call of a bidi pump. After the header
of a stream it submits its writes and waits until the worker has run them, or runs them itself if
the scheduler is closed. A write may fail after any prefix of its bytes.
-/

namespace QuicRTC

open Wire LTS List Option Slots

/-! ## Streams -/

/-- The header, or the frame of the unit with this number. -/
structure StreamItem where
  unit : Option Nat
  bytes : List UInt8
  deriving DecidableEq

/-- All but `bytes` and `failed` is history: the complete `items`, the `tail` after them,
    and the item `cut` by a failed write. -/
structure OutStream where
  cfg : FeedConfig
  bytes : List UInt8
  failed : Bool
  items : List StreamItem
  cut : Option StreamItem
  tail : List UInt8
  deriving DecidableEq

namespace OutStream

def fresh (cfg : FeedConfig) : OutStream where
  cfg := cfg
  bytes := []
  failed := false
  items := []
  cut := none
  tail := []

def write (st : OutStream) (item : StreamItem) (w : List UInt8) (last : Bool) :
    WriteResult → OutStream
  | .ok =>
    { st with
      bytes := st.bytes ++ w
      items := if last then st.items ++ [item] else st.items
      tail := if last then [] else st.tail ++ w }
  | .failed n =>
    { st with
      bytes := st.bytes ++ w.take n
      failed := true
      cut := some item
      tail := st.tail ++ w.take n }

end OutStream

/-! ## Lanes -/

/-- With its number among the units taken. -/
structure InHand where
  index : Nat
  au : AccessUnit
  deriving DecidableEq

inductive LanePc where
  | waiting
  /-- For a unit or up front. -/
  | opening (u : Option InHand)
  /-- At the write `w`. -/
  | header (i : Nat) (item : StreamItem) (w : List UInt8) (rest : List (List UInt8))
      (u : Option InHand)
  | writing (i : Nat) (item : StreamItem) (w : List UInt8) (rest : List (List UInt8))
  | sending (u : InHand) (datagram : List UInt8)
  | done
  deriving DecidableEq

/-- Where a lane is in `scheduledDo`. -/
inductive Gate where
  | free
  /-- In `<-done`. -/
  | queued
  /-- The scheduler is closed. -/
  | inline
  deriving DecidableEq

/-- `current` is `current`, `stream` or `fallbackStream`; `seq` numbers the datagrams. -/
structure Lane where
  cfg : FeedConfig
  call : Bool
  pc : LanePc
  gate : Gate
  current : Option Nat
  leadingAllowed : Bool
  seq : UInt16
  deriving DecidableEq

namespace Lane

/-- The low-latency loop opens its stream up front. -/
def start (cfg : FeedConfig) : Lane where
  cfg := cfg
  call := false
  pc := if cfg.loop = .streamLowLatency then .opening none else .waiting
  gate := .free
  current := none
  leadingAllowed := cfg.allowLeadingPFrames
  seq := 0

def forCall (cfg : FeedConfig) (u : InHand) : Lane where
  cfg := cfg
  call := true
  pc := .opening (some u)
  gate := .free
  current := none
  leadingAllowed := false
  seq := 0

def idle (ln : Lane) : Lane := { ln with pc := if ln.call then .done else .waiting }

/-- An open or a write failed. -/
def giveUp (ln : Lane) : Lane := { ln with current := none }.idle

def write (ln : Lane) (i : Nat) (now : WallClock) (u : InHand) : Lane :=
  match feedWrites ln.cfg now u.au with
  | some (w :: rest) =>
    { ln with current := some i
              pc := .writing i ⟨some u.index, (w :: rest).flatten⟩ w rest }
  -- Too large: the error comes before any write. For a fallback frame it
  -- comes from within the item, which then writes nothing.
  | _ => ln.giveUp

def ready (ln : Lane) (i : Nat) (now : WallClock) : Option InHand → Lane
  | none => { ln with current := some i }.idle
  | some u => ln.write i now u

def opened (ln : Lane) (i : Nat) (now : WallClock) (u : Option InHand) : Lane :=
  if ln.cfg.trackName ≠ [] then
    match writeStreamHeader ln.cfg.trackName with
    | some (w :: rest) => { ln with pc := .header i ⟨none, (w :: rest).flatten⟩ w rest u }
    | _ => ln.giveUp
  else ln.ready i now u

def receiveGOP (ln : Lane) (now : WallClock) (u : InHand) : Lane :=
  -- `current` is replaced only when the open returns.
  if u.au.keyframe then { ln with leadingAllowed := false, pc := .opening (some u) }
  else
    match ln.current with
    | some i => ln.write i now u
    | none =>
      if ln.leadingAllowed then { ln with leadingAllowed := false, pc := .opening (some u) }
      else ln.idle

def receiveLowLatency (ln : Lane) (now : WallClock) (u : InHand) : Lane :=
  match ln.current with
  | some i => ln.write i now u
  | none => { ln with pc := .opening (some u) }

def fallbackOrDrop (ln : Lane) (now : WallClock) (u : InHand) : Lane :=
  if !ln.cfg.fallbackOpener then ln.idle
  else
    match ln.current with
    | some i => ln.write i now u
    | none => { ln with pc := .opening (some u) }

def receiveDatagram (ln : Lane) (now : WallClock) (u : InHand) : Lane :=
  match encodeDatagram ln.cfg.trackID ln.seq u.au.bytes with
  | some datagram => { ln with seq := ln.seq + 1, pc := .sending u datagram }
  | none => { ln with seq := ln.seq + 1 }.fallbackOrDrop now u

def receive (ln : Lane) (now : WallClock) (u : InHand) : Lane :=
  match ln.cfg.loop with
  | .streamGOP => ln.receiveGOP now u
  | .streamLowLatency => ln.receiveLowLatency now u
  | .datagramOrStream => ln.receiveDatagram now u
  | .bidiPerCall => ln

def bytes? (ln : Lane) : Option (List UInt8) :=
  match ln.pc with
  | .header _ _ w _ _ => some w
  | .writing _ _ w _ => some w
  | .sending _ datagram => some datagram
  | _ => none

/-- The header of a stream and the writes of a call do not go through `scheduledDo`. -/
def scheduled (ln : Lane) : Bool :=
  ln.cfg.scheduler && !ln.call &&
    match ln.pc with
    | .writing .. => true
    | .sending .. => true
    | _ => false

def proceed (ln : Lane) (now : WallClock) (r : WriteResult) : Lane :=
  match ln.pc, r with
  | .header i _ _ [] u, .ok => ln.ready i now u
  | .header i item _ (w :: rest) u, .ok => { ln with pc := .header i item w rest u }
  | .header .., .failed _ => ln.giveUp
  | .writing _ _ _ [], .ok => ln.idle
  | .writing i item _ (w :: rest), .ok => { ln with pc := .writing i item w rest }
  | .writing .., .failed _ => ln.giveUp
  | .sending _ _, .ok => ln.idle
  | .sending u _, .failed _ => ln.fallbackOrDrop now u
  | _, _ => ln

def resume (ln : Lane) (now : WallClock) (r : WriteResult) : Lane :=
  { ln with gate := .free }.proceed now r

/-- **Inversion** of `resume`. -/
inductive Resumed (ln : Lane) (now : WallClock) : WriteResult → Lane → Prop where
  | headerDone {i item w u} (pc : ln.pc = .header i item w [] u) :
      Resumed ln now .ok ({ ln with gate := .free }.ready i now u)
  | headerMore {i item w w' rest u} (pc : ln.pc = .header i item w (w' :: rest) u) :
      Resumed ln now .ok { ln with gate := .free, pc := .header i item w' rest u }
  | headerFailed {i item w rest u n} (pc : ln.pc = .header i item w rest u) :
      Resumed ln now (.failed n) { ln with gate := .free }.giveUp
  | frameDone {i item w} (pc : ln.pc = .writing i item w []) :
      Resumed ln now .ok { ln with gate := .free }.idle
  | frameMore {i item w w' rest} (pc : ln.pc = .writing i item w (w' :: rest)) :
      Resumed ln now .ok { ln with gate := .free, pc := .writing i item w' rest }
  | frameFailed {i item w rest n} (pc : ln.pc = .writing i item w rest) :
      Resumed ln now (.failed n) { ln with gate := .free }.giveUp
  | sent {u datagram} (pc : ln.pc = .sending u datagram) :
      Resumed ln now .ok { ln with gate := .free }.idle
  | sendFailed {u datagram n} (pc : ln.pc = .sending u datagram) :
      Resumed ln now (.failed n) ({ ln with gate := .free }.fallbackOrDrop now u)

theorem resumed {ln : Lane} {bytes} (hat : ln.bytes? = some bytes) (now : WallClock)
    (r : WriteResult) : Resumed ln now r (ln.resume now r) := by
  obtain ⟨cfg, call, pc, gate, current, leading, seq⟩ := ln
  cases pc with
  | header i item w rest u =>
    cases rest with
    | nil =>
      cases r with
      | failed n => exact .headerFailed rfl
      | ok => exact .headerDone rfl
    | cons w' rest =>
      cases r with
      | failed n => exact .headerFailed rfl
      | ok => exact .headerMore rfl
  | writing i item w rest =>
    cases rest with
    | nil =>
      cases r with
      | failed n => exact .frameFailed rfl
      | ok => exact .frameDone rfl
    | cons w' rest =>
      cases r with
      | failed n => exact .frameFailed rfl
      | ok => exact .frameMore rfl
  | sending u datagram =>
    cases r with
    | failed n => exact .sendFailed rfl
    | ok => exact .sent rfl
  | _ => cases hat

end Lane

/-! ## The system -/

/-- What the `Do` of an item writes, and for which lane. -/
structure Job where
  lane : Nat
  bytes : List UInt8
  deriving DecidableEq

/-- `units` and `sent`, the numbers of those sent as datagrams, are history. -/
structure PumpSet where
  sched : Scheduler Job
  lanes : List Lane
  streams : List OutStream
  units : List AccessUnit
  sent : List Nat

inductive PumpLabel where
  | dequeue (i : Nat) (au : AccessUnit) (now : WallClock)
  | opened (i : Nat) (now : WallClock)
  | openFailed (i : Nat)
  | submit (i : Nat)
  | write (i : Nat) (now : WallClock) (r : WriteResult)
  | done (now : WallClock) (r : WriteResult)
  | stop (i : Nat)
  | sched (l : Scheduler.Label Job)

namespace PumpSet

def start (cfgs : List FeedConfig) : PumpSet where
  sched := Scheduler.new
  lanes := cfgs.map Lane.start
  streams := []
  units := []
  sent := []

def setLane (s : PumpSet) (i : Nat) (ln : Lane) : PumpSet := { s with lanes := s.lanes.set i ln }

def dequeue (s : PumpSet) (i : Nat) (ln : Lane) (au : AccessUnit) (now : WallClock) : PumpSet :=
  let u : InHand := ⟨s.units.length, au⟩
  let s := { s with units := s.units ++ [au] }
  if ln.cfg.loop = .bidiPerCall then { s with lanes := s.lanes ++ [Lane.forCall ln.cfg u] }
  else s.setLane i (ln.receive now u)

def written (streams : List OutStream) (ln : Lane) (r : WriteResult) : List OutStream :=
  match ln.pc with
  | .header i item w rest _ => streams.modify i (·.write item w rest.isEmpty r)
  | .writing i item w rest => streams.modify i (·.write item w rest.isEmpty r)
  | _ => streams

def delivered (sent : List Nat) (ln : Lane) (r : WriteResult) : List Nat :=
  match ln.pc, r with
  | .sending u _, .ok => sent ++ [u.index]
  | _, _ => sent

def perform (s : PumpSet) (i : Nat) (ln : Lane) (now : WallClock) (r : WriteResult) : PumpSet :=
  { s with
    streams := written s.streams ln r
    sent := delivered s.sent ln r
    lanes := s.lanes.set i (ln.resume now r) }

def submit (s : PumpSet) (i : Nat) (ln : Lane) (bytes : List UInt8) : PumpSet :=
  let r := s.sched.submit ⟨ln.cfg.priority, ⟨i, bytes⟩⟩
  { s with sched := r.1 }.setLane i { ln with gate := if r.2 then .queued else .inline }

def queue (s : PumpSet) (i : Nat) (ln : Lane) (bytes : List UInt8) : PumpSet :=
  { s with sched := s.sched.enqueue ⟨ln.cfg.priority, ⟨i, bytes⟩⟩ }.setLane i
    { ln with gate := .queued }

def refuse (s : PumpSet) (i : Nat) (ln : Lane) (bytes : List UInt8) : PumpSet :=
  { s with sched := s.sched.record ⟨ln.cfg.priority, ⟨i, bytes⟩⟩ false }.setLane i
    { ln with gate := .inline }

def finish (s : PumpSet) (e : WorkEntry Job) : PumpSet :=
  { s with sched := { s.sched with executed := s.sched.executed ++ [e.call], worker := .ready } }

def ownStep : Scheduler.Label Job → Bool
  | .submit _ => false
  | .done => false
  | _ => true

/-- `none`: the label is not enabled. -/
def next (s : PumpSet) : PumpLabel → Option PumpSet
  | .dequeue i au now =>
    match s.lanes[i]? with
    | some ln => if ln.pc = .waiting then some (s.dequeue i ln au now) else none
    | none => none
  | .opened i now =>
    match s.lanes[i]? with
    | some ln =>
      match ln.pc with
      | .opening u =>
        some ({ s with streams := s.streams ++ [OutStream.fresh ln.cfg] }.setLane i
          (ln.opened s.streams.length now u))
      | _ => none
    | none => none
  | .openFailed i =>
    match s.lanes[i]? with
    | some ln =>
      match ln.pc with
      | .opening _ => some (s.setLane i ln.giveUp)
      | _ => none
    | none => none
  | .submit i =>
    match s.lanes[i]? with
    | some ln =>
      match ln.bytes? with
      | some bytes =>
        if ln.scheduled && decide (ln.gate = .free) then some (s.submit i ln bytes) else none
      | none => none
    | none => none
  | .write i now r =>
    match s.lanes[i]? with
    | some ln =>
      match ln.bytes? with
      | some _ =>
        if decide (ln.gate = .inline) || !ln.scheduled then some (s.perform i ln now r) else none
      | none => none
    | none => none
  | .done now r =>
    match s.sched.worker with
    | .busy e =>
      match s.sched.next .done, s.lanes[e.act.lane]? with
      | some sched, some ln => some ({ s with sched := sched }.perform e.act.lane ln now r)
      | _, _ => none
    | _ => none
  | .stop i =>
    match s.lanes[i]? with
    | some ln => if ln.pc = .waiting then some (s.setLane i { ln with pc := .done }) else none
    | none => none
  | .sched l =>
    if ownStep l then (s.sched.next l).map (fun sched => { s with sched := sched }) else none

inductive Effect (s : PumpSet) : PumpLabel → PumpSet → Prop where
  | dequeue {i au now ln} (lane : s.lanes[i]? = some ln) (pc : ln.pc = .waiting)
      (own : ln.cfg.loop ≠ .bidiPerCall) :
      Effect s (.dequeue i au now)
        ({ s with units := s.units ++ [au] }.setLane i (ln.receive now ⟨s.units.length, au⟩))
  | call {i au now ln} (lane : s.lanes[i]? = some ln) (pc : ln.pc = .waiting)
      (bidi : ln.cfg.loop = .bidiPerCall) :
      Effect s (.dequeue i au now)
        { s with units := s.units ++ [au]
                 lanes := s.lanes ++ [Lane.forCall ln.cfg ⟨s.units.length, au⟩] }
  | opened {i now ln u} (lane : s.lanes[i]? = some ln) (pc : ln.pc = .opening u) :
      Effect s (.opened i now)
        ({ s with streams := s.streams ++ [OutStream.fresh ln.cfg] }.setLane i
          (ln.opened s.streams.length now u))
  | openFailed {i ln u} (lane : s.lanes[i]? = some ln) (pc : ln.pc = .opening u) :
      Effect s (.openFailed i) (s.setLane i ln.giveUp)
  | queue {i ln bytes} (lane : s.lanes[i]? = some ln) (at' : ln.bytes? = some bytes)
      (scheduled : ln.scheduled = true) (gate : ln.gate = .free) (open' : s.sched.closed = false) :
      Effect s (.submit i) (s.queue i ln bytes)
  | refuse {i ln bytes} (lane : s.lanes[i]? = some ln) (at' : ln.bytes? = some bytes)
      (scheduled : ln.scheduled = true) (gate : ln.gate = .free) (closed : s.sched.closed = true) :
      Effect s (.submit i) (s.refuse i ln bytes)
  | write {i now r ln bytes} (lane : s.lanes[i]? = some ln) (at' : ln.bytes? = some bytes)
      (own : ln.gate = .inline ∨ ln.scheduled = false) :
      Effect s (.write i now r) (s.perform i ln now r)
  | done {now r e ln} (busy : s.sched.worker = .busy e) (lane : s.lanes[e.act.lane]? = some ln) :
      Effect s (.done now r) ((s.finish e).perform e.act.lane ln now r)
  | stop {i ln} (lane : s.lanes[i]? = some ln) (pc : ln.pc = .waiting) :
      Effect s (.stop i) (s.setLane i { ln with pc := .done })
  | sched {l sched} (own : ownStep l = true) (step : s.sched.next l = some sched) :
      Effect s (.sched l) { s with sched := sched }

variable {s : PumpSet}

theorem effect_of_next {s' l} : s.next l = some s' → Effect s l s' := by
  fun_cases s.next l <;> intro h <;> try cases h
  · next hlane hpc =>
    unfold PumpSet.dequeue
    split
    · next hbidi => exact .call hlane hpc hbidi
    · next hown => exact .dequeue hlane hpc hown
  · next hlane _ hpc => exact .opened hlane hpc
  · next hlane _ hpc => exact .openFailed hlane hpc
  · next hlane _ hbytes hcond =>
    rw [Bool.and_eq_true, decide_eq_true_eq] at hcond
    unfold PumpSet.submit Scheduler.submit
    split
    · next hclosed => exact .refuse hlane hbytes hcond.1 hcond.2 hclosed
    · next hopen => exact .queue hlane hbytes hcond.1 hcond.2 (Bool.eq_false_of_not_eq_true hopen)
  · next hlane _ hbytes hcond =>
    rw [Bool.or_eq_true, decide_eq_true_eq, Bool.not_eq_true'] at hcond
    exact .write hlane hbytes hcond
  · next e hbusy _ _ hlane hsched =>
    rw [Scheduler.next_done hbusy] at hsched
    cases hsched
    exact .done hbusy hlane
  · next hlane hpc => exact .stop hlane hpc
  · next hown =>
    obtain ⟨sched, hstep, rfl⟩ := map_eq_some_iff.mp h
    exact .sched hown hstep

theorem next_dequeue {i ln} (hlane : s.lanes[i]? = some ln) (hpc : ln.pc = .waiting)
    (au : AccessUnit) (now : WallClock) :
    s.next (.dequeue i au now) = some (s.dequeue i ln au now) := by
  simp only [next, hlane, if_pos hpc]

theorem units_prefix {s' l} (h : Effect s l s') : s.units <+: s'.units := by
  cases h with
  | dequeue _ _ _ | call _ _ _ => exact prefix_append _ _
  | _ => exact prefix_rfl

end PumpSet

def pumpSetSystem (cfgs : List FeedConfig) : System PumpSet PumpLabel :=
  ofFun (PumpSet.start cfgs) PumpSet.next

/-! ## Lanes and the scheduler -/

namespace Lane

section Frame

variable (ln : Lane) (i : Nat) (now : WallClock)

theorem giveUp_gate : ln.giveUp.gate = ln.gate := rfl

theorem write_frame (u : InHand) : (ln.write i now u).gate = ln.gate ∧
    (ln.write i now u).leadingAllowed = ln.leadingAllowed := by
  unfold write
  split <;> exact ⟨rfl, rfl⟩

theorem ready_frame (u : Option InHand) : (ln.ready i now u).gate = ln.gate ∧
    (ln.ready i now u).leadingAllowed = ln.leadingAllowed := by
  cases u with
  | none => exact ⟨rfl, rfl⟩
  | some u => exact ln.write_frame i now u

theorem opened_frame (u : Option InHand) : (ln.opened i now u).gate = ln.gate ∧
    (ln.opened i now u).leadingAllowed = ln.leadingAllowed := by
  unfold opened
  split
  · split <;> exact ⟨rfl, rfl⟩
  · exact ln.ready_frame i now u

end Frame

variable {ln : Lane}

theorem fallbackOrDrop_induction {P : Lane → Prop} {now u} (idle : P ln.idle)
    (write : ∀ i, ln.current = some i → P (ln.write i now u))
    (opens : P { ln with pc := .opening (some u) }) : P (ln.fallbackOrDrop now u) := by
  unfold fallbackOrDrop
  split
  · exact idle
  · split
    · next i hi => exact write i hi
    · exact opens

theorem receive_induction {P : Lane → Prop} {now u} (idle : P ln.idle)
    (write : ∀ i, ln.current = some i → P (ln.write i now u))
    (opens : ∀ leading, P { ln with leadingAllowed := leading, pc := .opening (some u) })
    (sends : ∀ datagram, encodeDatagram ln.cfg.trackID ln.seq u.au.bytes = some datagram →
      P { ln with seq := ln.seq + 1, pc := .sending u datagram })
    (falls : P ({ ln with seq := ln.seq + 1 }.fallbackOrDrop now u))
    (call : ln.cfg.loop = .bidiPerCall → P ln) : P (ln.receive now u) := by
  unfold receive
  split
  · unfold receiveGOP
    split
    · exact opens false
    · split
      · next i hi => exact write i hi
      · split
        · exact opens false
        · exact idle
  · unfold receiveLowLatency
    split
    · next i hi => exact write i hi
    · exact opens ln.leadingAllowed
  · unfold receiveDatagram
    split
    · next datagram hd => exact sends datagram hd
    · exact falls
  · next hb => exact call hb

@[simp] theorem fallbackOrDrop_gate (ln : Lane) (now : WallClock) (u : InHand) :
    (ln.fallbackOrDrop now u).gate = ln.gate :=
  fallbackOrDrop_induction (P := fun m => m.gate = ln.gate) rfl (fun i _ => (ln.write_frame i now u).1) rfl

@[simp] theorem receive_gate (ln : Lane) (now : WallClock) (u : InHand) :
    (ln.receive now u).gate = ln.gate :=
  receive_induction (P := fun m => m.gate = ln.gate) rfl (fun i _ => (ln.write_frame i now u).1)
    (fun _ => rfl) (fun _ _ => rfl) (fallbackOrDrop_gate _ now u) (fun _ => rfl)

@[simp] theorem resume_gate (ln : Lane) (now : WallClock) (r : WriteResult) :
    (ln.resume now r).gate = .free := by
  unfold resume proceed
  split <;> simp [ready_frame, idle, giveUp]

end Lane

namespace PumpSet

def outstanding (s : PumpSet) : List Nat :=
  (match s.sched.worker with
    | .busy e => [e.act.lane]
    | _ => []) ++ s.sched.items.map (fun e => e.act.lane)

theorem sched_reachable {cfgs} :
    ∀ s, Reachable (pumpSetSystem cfgs) s →
      Reachable (Scheduler.schedulerSystem Job) s.sched := by
  refine invariant_ofFun _ (Reachable.init rfl) ?_
  intro s l s' _ h hstep
  cases effect_of_next hstep with
  | @queue i ln bytes _ _ _ _ hclosed | @refuse i ln bytes _ _ _ _ hclosed =>
    refine h.step (.submit ⟨ln.cfg.priority, ⟨i, bytes⟩⟩) ?_
    show some (s.sched.submit _).1 = _
    unfold Scheduler.submit
    rw [hclosed]
    rfl
  | done hbusy => exact h.step .done (Scheduler.next_done hbusy)
  | sched _ hsched => exact h.step _ hsched
  | _ => exact h

/-- Each item in the scheduler is the write its lane waits for, and no lane has two. -/
structure Queued (s : PumpSet) : Prop where
  job : ∀ e, e ∈ s.sched.items ∨ s.sched.worker = .busy e →
            ∃ ln, s.lanes[e.act.lane]? = some ln ∧ ln.bytes? = some e.act.bytes ∧
              ln.scheduled = true
  waits : ∀ (i : Nat) (ln : Lane), s.lanes[i]? = some ln → (ln.gate = .queued ↔ i ∈ s.outstanding)
  free : ∀ (i : Nat) (ln : Lane), s.lanes[i]? = some ln → ln.scheduled = false → ln.gate = .free
  apart : s.outstanding.Nodup

theorem Queued.busy {s : PumpSet} {e ln} (h : Queued s) (hbusy : s.sched.worker = .busy e)
    (hlane : s.lanes[e.act.lane]? = some ln) : ln.bytes? = some e.act.bytes := by
  obtain ⟨ln', hlane', hat, -⟩ := h.job e (.inr hbusy)
  exact Option.mem_unique hlane' hlane ▸ hat

theorem mem_outstanding {s : PumpSet} {i} :
    i ∈ s.outstanding ↔
      ∃ e, (e ∈ s.sched.items ∨ s.sched.worker = .busy e) ∧ e.act.lane = i := by
  unfold outstanding
  rw [List.mem_append, List.mem_map]
  constructor
  · rintro (hrun | ⟨e, he, hi⟩)
    · split at hrun
      · next e hbusy => exact ⟨e, Or.inr hbusy, (List.mem_singleton.mp hrun).symm⟩
      · cases hrun
    · exact ⟨e, Or.inl he, hi⟩
  · rintro ⟨e, he | hbusy, hi⟩
    · exact Or.inr ⟨e, he, hi⟩
    · rw [hbusy]
      exact Or.inl (hi ▸ List.mem_singleton_self _)

namespace Queued

variable {s : PumpSet}

theorem start (cfgs : List FeedConfig) : Queued (PumpSet.start cfgs) where
  job := by rintro e (he | he) <;> cases he
  waits := by
    intro i ln hln
    obtain ⟨cfg, -, rfl⟩ := mem_map.mp (mem_of_getElem? hln)
    exact ⟨nofun, nofun⟩
  free := by
    intro i ln hln _
    obtain ⟨cfg, -, rfl⟩ := mem_map.mp (mem_of_getElem? hln)
    rfl
  apart := nodup_nil

variable {t : PumpSet} {ln : Lane} {i : Nat}

theorem setLane (h : Queued s) {m : Lane} (hlane : s.lanes[i]? = some ln)
    (hgate : ln.gate ≠ .queued) (hgate' : m.gate ≠ .queued)
    (hfree : m.scheduled = false → m.gate = .free) (hitems : t.sched.items = s.sched.items)
    (hworker : t.sched.worker = s.sched.worker) (hlanes : t.lanes = s.lanes.set i m) :
    Queued t := by
  have hout : t.outstanding = s.outstanding := by
    unfold outstanding
    rw [hitems, hworker]
  have hi : i ∉ s.outstanding := fun hmem => hgate ((h.waits i ln hlane).mpr hmem)
  refine ⟨?_, ?_, ?_, by rw [hout]; exact h.apart⟩
  · intro e he
    rw [hitems, hworker] at he
    obtain ⟨lane, hl, hrest⟩ := h.job e he
    refine ⟨lane, ?_, hrest⟩
    have hne : i ≠ e.act.lane := fun heq => hi (mem_outstanding.mpr ⟨e, he, heq.symm⟩)
    rw [hlanes, getElem?_set_ne hne]
    exact hl
  · intro j lane hj
    rw [hout]
    rw [hlanes] at hj
    rcases getElem?_set_cases hj with ⟨rfl, rfl⟩ | ⟨-, hold⟩
    · exact ⟨fun hq => absurd hq hgate', fun hmem => absurd hmem hi⟩
    · exact h.waits j lane hold
  · intro j lane hj
    rw [hlanes] at hj
    rcases getElem?_set_cases hj with ⟨rfl, rfl⟩ | ⟨-, hold⟩
    · exact hfree
    · exact h.free j lane hold

theorem sched (h : Queued s) (hlanes : t.lanes = s.lanes)
    (hitems : ∀ e, e ∈ t.sched.items ∨ t.sched.worker = .busy e →
      e ∈ s.sched.items ∨ s.sched.worker = .busy e) (hperm : t.outstanding.Perm s.outstanding) :
    Queued t where
  job := by
    intro e he
    rw [hlanes]
    exact h.job e (hitems e he)
  waits := by
    intro i ln hln
    rw [hlanes] at hln
    exact (h.waits i ln hln).trans hperm.mem_iff.symm
  free := by
    intro i ln hln
    rw [hlanes] at hln
    exact h.free i ln hln
  apart := hperm.symm.nodup h.apart

theorem call (h : Queued s) (cfg : FeedConfig) (u : InHand) (units : List AccessUnit) :
    Queued { s with units := units, lanes := s.lanes ++ [Lane.forCall cfg u] } where
  job := by
    intro e he
    obtain ⟨ln, hln, hrest⟩ := h.job e he
    exact ⟨ln, getElem?_append_some hln, hrest⟩
  waits := by
    apply forall_getElem?_snoc h.waits
    refine ⟨nofun, fun hmem => ?_⟩
    obtain ⟨e, he, hlane⟩ := mem_outstanding.mp hmem
    obtain ⟨ln, hln, -⟩ := h.job e he
    have hlt := lt_of_getElem? hln
    omega
  free := forall_getElem?_snoc h.free (fun _ => rfl)
  apart := h.apart

theorem queue (h : Queued s) (hok : Scheduler.Ok s.sched) {bytes} (hlane : s.lanes[i]? = some ln)
    (hat : ln.bytes? = some bytes) (hsched : ln.scheduled = true) (hgate : ln.gate = .free) :
    Queued (s.queue i ln bytes) := by
  obtain ⟨hperm, -⟩ := Heap.push_spec WorkEntry.less_eq hok.heap
    { priority := ln.cfg.priority, seq := s.sched.seq + 1, act := (⟨i, bytes⟩ : Job),
      call := s.sched.calls.length }
  have hi : i ∉ s.outstanding := by
    intro hmem
    have hq := (h.waits i ln hlane).mpr hmem
    rw [hgate] at hq
    cases hq
  have hout : (s.queue i ln bytes).outstanding.Perm (i :: s.outstanding) := by
    have hmap := hperm.map (fun e : WorkEntry Job => e.act.lane)
    unfold outstanding
    cases hw : s.sched.worker <;>
      simp only [PumpSet.queue, PumpSet.setLane, Scheduler.enqueue, hw, Scheduler.wake, nil_append,
        singleton_append]
    case busy e => exact (hmap.cons _).trans (Perm.swap _ _ _)
    all_goals exact hmap
  refine ⟨?_, ?_, ?_, ?_⟩
  · intro e he
    have hcases : (e ∈ s.sched.items ∨ s.sched.worker = .busy e) ∨
        e.act = (⟨i, bytes⟩ : Job) := by
      rcases he with he | he
      · rcases mem_cons.mp (hperm.subset he) with rfl | hold
        · exact .inr rfl
        · exact .inl (.inl hold)
      · exact .inl (.inr (Scheduler.wake_busy.mp he))
    rcases hcases with hold | hnew
    · obtain ⟨lane, hl, hrest⟩ := h.job e hold
      have hne : i ≠ e.act.lane := fun heq => hi (mem_outstanding.mpr ⟨e, hold, heq.symm⟩)
      exact ⟨lane, (getElem?_set_ne hne).trans hl, hrest⟩
    · rw [hnew]
      exact ⟨_, getElem?_set_some hlane, hat, hsched⟩
  · intro j lane hj
    rw [hout.mem_iff, mem_cons]
    rcases getElem?_set_cases hj with ⟨rfl, rfl⟩ | ⟨hne, hold⟩
    · exact ⟨fun _ => .inl rfl, fun _ => rfl⟩
    · rw [h.waits j lane hold]
      exact ⟨.inr, fun hor => hor.resolve_left hne⟩
  · intro j lane hj hns
    rcases getElem?_set_cases hj with ⟨rfl, rfl⟩ | ⟨-, hold⟩
    · exact absurd (hsched.symm.trans hns) (by decide)
    · exact h.free j lane hold hns
  · exact hout.symm.nodup (nodup_cons.mpr ⟨hi, h.apart⟩)

theorem done (h : Queued s) {e} (hbusy : s.sched.worker = .busy e) (ln : Lane) (now : WallClock)
    (r : WriteResult) : Queued ((s.finish e).perform e.act.lane ln now r) := by
  have hout : s.outstanding = e.act.lane :: s.sched.items.map (fun e => e.act.lane) := by
    unfold outstanding
    rw [hbusy]
    rfl
  have hnd := h.apart
  rw [hout, nodup_cons] at hnd
  refine ⟨?_, ?_, ?_, hnd.2⟩
  · intro e' he'
    have hmem : e' ∈ s.sched.items := by
      rcases he' with he' | he'
      · exact he'
      · cases he'
    obtain ⟨lane, hl, hrest⟩ := h.job e' (.inl hmem)
    have hne : e.act.lane ≠ e'.act.lane := fun heq =>
      hnd.1 (mem_map.mpr ⟨e', hmem, heq.symm⟩)
    exact ⟨lane, (getElem?_set_ne hne).trans hl, hrest⟩
  · intro j lane hj
    rcases getElem?_set_cases hj with ⟨rfl, rfl⟩ | ⟨hne, hold⟩
    · rw [Lane.resume_gate]
      exact ⟨nofun, fun hmem => absurd hmem hnd.1⟩
    · rw [h.waits j lane hold, hout, mem_cons]
      exact ⟨fun hor => hor.resolve_left hne, .inr⟩
  · intro j lane hj hns
    rcases getElem?_set_cases hj with ⟨rfl, rfl⟩ | ⟨-, hold⟩
    · exact Lane.resume_gate ..
    · exact h.free j lane hold hns

theorem move (h : Queued s) {m : Lane} (hlane : s.lanes[i]? = some ln)
    (hgate : ln.gate = .free ∨ ln.gate = .inline) (hgate' : m.gate = .free)
    (hsched : t.sched = s.sched) (hlanes : t.lanes = s.lanes.set i m) : Queued t := by
  apply h.setLane hlane _ _ (fun _ => hgate') (by rw [hsched]) (by rw [hsched]) hlanes
  · rcases hgate with hgate | hgate <;> simp [hgate]
  · simp [hgate']

theorem step (h : Queued s) (hok : Scheduler.Ok s.sched) {l s'} (hstep : Effect s l s') :
    Queued s' := by
  cases hstep with
  | dequeue hlane hpc _ =>
    have hfree := h.free _ _ hlane (by simp [Lane.scheduled, hpc])
    exact h.move hlane (.inl hfree) ((Lane.receive_gate ..).trans hfree) rfl rfl
  | call _ _ _ => exact h.call _ _ _
  | opened hlane hpc =>
    have hfree := h.free _ _ hlane (by simp [Lane.scheduled, hpc])
    exact h.move hlane (.inl hfree) ((Lane.opened_frame ..).1.trans hfree) rfl rfl
  | openFailed hlane hpc =>
    have hfree := h.free _ _ hlane (by simp [Lane.scheduled, hpc])
    exact h.move hlane (.inl hfree) ((Lane.giveUp_gate _).trans hfree) rfl rfl
  | queue hlane hat hsched hgate _ => exact h.queue hok hlane hat hsched hgate
  | @refuse i ln bytes hlane hat hsched hgate _ =>
    exact h.setLane (m := { ln with gate := .inline }) hlane (by rw [hgate]; nofun) nofun
      (fun hns => absurd (hns.symm.trans hsched) Bool.false_ne_true) rfl rfl rfl
  | write hlane hat hown =>
    have hgate := hown.symm.imp (h.free _ _ hlane) id
    exact h.move hlane hgate (Lane.resume_gate ..) rfl rfl
  | done hbusy _ => exact h.done hbusy _ _ _
  | @stop i ln hlane hpc =>
    have hfree := h.free _ _ hlane (by simp [Lane.scheduled, hpc])
    exact h.move (m := { ln with pc := .done }) hlane (.inl hfree) hfree rfl rfl
  | @sched l sched' hown hnext =>
    cases Scheduler.effect_of_next hnext with
    | start hnew =>
      have hidle := hok.idle.mpr hnew
      refine h.sched rfl (fun e he => ?_) ?_
      · rcases he with he | he
        · exact .inl he
        · cases he
      · simp [outstanding, hidle]
    | startAgain => exact h
    | close | cancel => exact h.sched rfl (fun _ => id) (Perm.refl _)
    | watch _ =>
      refine h.sched rfl (fun e he => he.imp id Scheduler.wake_busy.mp) ?_
      unfold outstanding
      cases hw : s.sched.worker <;> exact Perm.refl _
    | exit hready _ _ | sleep hready _ _ =>
      refine h.sched rfl (fun e he => he.imp id nofun) ?_
      simp [outstanding, hready]
    | @take e rest hready hne hpop =>
      obtain ⟨-, hperm, -⟩ := hok.take hready hne hpop
      refine h.sched rfl (fun e' he' => ?_) ?_
      · rcases he' with he' | he'
        · exact .inl (hperm.symm.subset (mem_cons_of_mem _ he'))
        · obtain rfl := Worker.busy.inj he'
          exact .inl (hperm.symm.subset mem_cons_self)
      · unfold outstanding
        rw [hready]
        exact (hperm.map (fun e : WorkEntry Job => e.act.lane)).symm
    | _ => cases hown

end Queued

theorem queued_of_reachable {cfgs} : ∀ s, Reachable (pumpSetSystem cfgs) s → Queued s := by
  refine invariant_ofFun Queued (Queued.start cfgs) ?_
  intro s l s' hs h hstep
  exact h.step (Scheduler.ok_of_reachable _ (sched_reachable s hs)) (effect_of_next hstep)

end PumpSet

end QuicRTC

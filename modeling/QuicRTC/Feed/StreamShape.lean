import QuicRTC.Framework.System
import QuicRTC.Feed.Frame
import QuicRTC.Feed.GopPump

/-! # The Streams of the Per-GOP Pump

`runStreamGOP`, `openGOPStream` and `writeFrame` of `feed/pump.go` over a table of all streams ever
opened, each with the bytes it accepted and whether it was reset or closed. During an open `current`
still holds the stream that was just reset. A frame goes out in one write, or under a scheduler in
chunks, and a write may fail after any prefix of its bytes.
-/

namespace QuicRTC

open Wire LTS List Option Slots

/-! ## Streams -/

/-- `frames` are the complete frames and `tail` the rest; `attempt` and `start` tell after
    how many opens, and for which unit, it was opened. -/
structure UniStream where
  frames : List AccessUnit
  bytes : List UInt8
  tail : List UInt8
  attempt : Nat
  start : Nat
  /-- A write on it has failed. -/
  failed : Bool
  /-- It was written after that. -/
  late : Bool
  reset : Bool
  closed : Bool
  deriving DecidableEq

namespace UniStream

def fresh (attempt start : Nat) : UniStream where
  frames := []
  bytes := []
  tail := []
  attempt := attempt
  start := start
  failed := false
  late := false
  reset := false
  closed := false

def live (u : UniStream) : Bool := !u.reset && !u.closed

/-- Header bytes are no feed bytes. -/
def touch (u : UniStream) : UniStream := { u with late := u.late || u.failed }

/-- Bytes of the frame of `au`, its last ones or not. -/
def accept (u : UniStream) (au : AccessUnit) (bytes : List UInt8) (complete : Bool) : UniStream :=
  { u.touch with
    frames := if complete then u.frames ++ [au] else u.frames
    bytes := u.bytes ++ bytes
    tail := if complete then [] else u.tail ++ bytes }

def fail (u : UniStream) : UniStream := { u with failed := true }

def cancelWrite (u : UniStream) : UniStream := { u with reset := true }

def close (u : UniStream) : UniStream := { u with closed := true }

end UniStream

/-! ## The loop -/

inductive LoopPc where
  | waiting
  /-- In `OpenSendStream`. -/
  | opening (au : AccessUnit)
  | header (au : AccessUnit) (i : Nat)
  /-- With the writes still to do. -/
  | writing (au : AccessUnit) (rest : List (List UInt8))
  | requesting
  | done
  deriving DecidableEq

/-- `dequeued` and `attempts` are history variables. -/
structure GopLoop where
  pc : LoopPc
  current : Option Nat
  leadingAllowed : Bool
  streams : List UniStream
  dequeued : List AccessUnit
  attempts : Nat
  deriving DecidableEq

inductive LoopEvent where
  | dequeue (au : AccessUnit) (now : WallClock)
  | opened (now : WallClock)
  | openFailed
  | headerWritten (now : WallClock)
  | headerFailed
  | wrote
  | writeFailed (n : Nat)
  | requested
  | stopped

namespace GopLoop

def start (cfg : FeedConfig) : GopLoop where
  pc := .waiting
  current := none
  leadingAllowed := cfg.allowLeadingPFrames
  streams := []
  dequeued := []
  attempts := 0

def modify (p : GopLoop) (i : Nat) (f : UniStream → UniStream) : GopLoop :=
  { p with streams := p.streams.modify i f }

def cancelCurrent (p : GopLoop) : GopLoop :=
  match p.current with
  | some i => p.modify i .cancelWrite
  | none => p

def frameWrites (cfg : FeedConfig) (now : WallClock) (au : AccessUnit) :
    Option (List (List UInt8)) :=
  writeFrame cfg (if au.keyframe then typeKeyframe else typePFrame) au.ptsMicro au.seq
    (frameFlags au.keyframe au.discontinuity) (pubWall cfg now au) au.bytes

/-- `writeFrame` returned an error. -/
def giveUp (p : GopLoop) : GopLoop := { p.cancelCurrent with current := none, pc := .requesting }

def callWriteFrame (p : GopLoop) (cfg : FeedConfig) (now : WallClock) (au : AccessUnit) : GopLoop :=
  match frameWrites cfg now au with
  -- Too large: the error comes before any write.
  | none => p.giveUp
  | some rest => { p with pc := .writing au rest }

def callOpen (p : GopLoop) (au : AccessUnit) : GopLoop :=
  { p with leadingAllowed := false, pc := .opening au, attempts := p.attempts + 1 }

/-- Up to the first blocking call. -/
def handle (p : GopLoop) (cfg : FeedConfig) (au : AccessUnit) (now : WallClock) : GopLoop :=
  -- `current` is replaced only when the open returns.
  if au.keyframe then p.cancelCurrent.callOpen au
  else if p.current.isSome then p.callWriteFrame cfg now au
  else if p.leadingAllowed then p.callOpen au
  else { p with pc := .requesting }

def dequeue (p : GopLoop) (cfg : FeedConfig) (au : AccessUnit) (now : WallClock) : GopLoop :=
  { p with dequeued := p.dequeued ++ [au] }.handle cfg au now

def step (cfg : FeedConfig) (p : GopLoop) : LoopEvent → Option GopLoop
  | .dequeue au now => if p.pc = .waiting then some (p.dequeue cfg au now) else none
  | .opened now =>
    match p.pc with
    | .opening au =>
      let i := p.streams.length
      let q := { p with streams := p.streams ++ [UniStream.fresh (p.attempts - 1) (p.dequeued.length - 1)] }
      -- The header is written if the track has a name.
      if cfg.trackName ≠ [] then some { q with pc := .header au i }
      else some ({ q with current := some i }.callWriteFrame cfg now au)
    | _ => none
  | .openFailed =>
    match p.pc with
    | .opening _ => some { p with current := none, pc := .requesting }
    | _ => none
  | .headerWritten now =>
    match p.pc with
    | .header au i =>
      some ({ p.modify i .touch with current := some i }.callWriteFrame cfg now au)
    | _ => none
  | .headerFailed =>
    match p.pc with
    | .header _ i =>
      some { p.modify i (fun u => u.touch.fail.cancelWrite) with current := none, pc := .requesting }
    | _ => none
  | .wrote =>
    match p.pc, p.current with
    | .writing au (w :: rest), some i =>
      some { p.modify i (fun u => u.accept au w rest.isEmpty) with
        pc := if rest.isEmpty then .waiting else .writing au rest }
    | _, _ => none
  | .writeFailed n =>
    match p.pc, p.current with
    | .writing au (w :: rest), some i =>
      let complete := rest.isEmpty && decide (w.length ≤ n)
      some (p.modify i (fun u => (u.accept au (w.take n) complete).fail)).giveUp
    | _, _ => none
  | .requested => if p.pc = .requesting then some { p with pc := .waiting } else none
  | .stopped =>
    if p.pc = .waiting then
      match p.current with
      -- The deferred `Close`.
      | some i => some { p.modify i .close with pc := .done }
      | none => some { p with pc := .done }
    else none

/-- The stream in use: the one written to next. -/
def inUse (p : GopLoop) : Option Nat :=
  match p.pc with
  | .waiting => p.current
  | .header _ i => some i
  | .writing _ _ => p.current
  | _ => none

end GopLoop

/-! ## The shape of a stream -/

/-- A keyframe only at the head, and a P-frame there only on the first stream of a pump that
    may lead. -/
structure Begins (cfg : FeedConfig) (pre frames : List AccessUnit) (attempt : Nat) : Prop where
  body : ∀ f ∈ frames.tail, f.keyframe = false
  head : ∀ f ∈ frames.head?, f.keyframe = false →
    cfg.allowLeadingPFrames = true ∧ (∀ x ∈ pre, x.keyframe = false) ∧ attempt = 0

def Encodes (cfg : FeedConfig) (au : AccessUnit) (enc : List UInt8) : Prop :=
  ∃ now ws, GopLoop.frameWrites cfg now au = some ws ∧ ws.flatten = enc

structure RunOk (cfg : FeedConfig) (dequeued : List AccessUnit) (u : UniStream) : Prop where
  run : ∃ pre post, dequeued = pre ++ u.frames ++ post ∧ pre.length = u.start ∧
    Begins cfg pre u.frames u.attempt
  /-- All that is on the stream, but for the beginning of one more. -/
  bytes : ∃ encs, List.Forall₂ (Encodes cfg) u.frames encs ∧ u.bytes = encs.flatten ++ u.tail
  tail : u.tail = [] ∨ ∃ au enc, Encodes cfg au enc ∧ u.tail <+: enc ∧ u.tail ≠ enc
  late : u.late = false

structure Shape (cfg : FeedConfig) (p : GopLoop) : Prop where
  streams : ∀ u ∈ p.streams, RunOk cfg p.dequeued u
  one : ∀ (i j : Nat) (u w : UniStream), p.streams[i]? = some u → p.streams[j]? = some w →
    u.live = true → w.live = true → i = j
  returned : p.pc = .done → ∀ u ∈ p.streams, u.live = false

theorem Begins.nil (cfg : FeedConfig) (pre : List AccessUnit) (attempt : Nat) :
    Begins cfg pre [] attempt := ⟨by simp, by simp⟩

variable {au : AccessUnit} {cfg : FeedConfig}

theorem Begins.snoc {pre frames attempt} (h : Begins cfg pre frames attempt) (hne : frames ≠ [])
    (hp : au.keyframe = false) : Begins cfg pre (frames ++ [au]) attempt := by
  cases frames with
  | nil => exact absurd rfl hne
  | cons x frames =>
    exact ⟨forall_mem_snoc h.body hp, fun f hf => h.head f hf⟩

theorem RunOk.mono {dequeued u} (h : RunOk cfg dequeued u) (au : AccessUnit) :
    RunOk cfg (dequeued ++ [au]) u := by
  obtain ⟨pre, post, hd, hlen, hb⟩ := h.run
  refine { h with run := ⟨pre, post ++ [au], ?_, hlen, hb⟩ }
  rw [hd, append_assoc _ post]

theorem RunOk.ended {dequeued u} (h : RunOk cfg dequeued u) (failed reset closed : Bool) :
    RunOk cfg dequeued { u with failed := failed, reset := reset, closed := closed } :=
  { h with }

theorem frameWrites_ne_nil {now ws} (h : GopLoop.frameWrites cfg now au = some ws) :
    ws ≠ [] ∧ ∀ w ∈ ws, w ≠ [] := by
  unfold GopLoop.frameWrites writeFrame at h
  split at h
  · cases h
  · split at h
    · obtain ⟨buf, hbuf, rfl⟩ := map_eq_some_iff.mp h
      refine ⟨cons_ne_nil _ _, fun w hw => ?_⟩
      rw [mem_singleton.mp hw]
      unfold writeFeedFramePooled at hbuf
      split at hbuf
      · cases hbuf
      · exact some.inj hbuf ▸ appendFeedFrame_ne_nil _ _ _ _ _ _
    · cases h
      exact chunkLoop_ne_nil (by decide) (appendFeedFrame_ne_nil _ _ _ _ _ _)

/-! ## The invariant -/

structure InFrame (cfg : FeedConfig) (dequeued : List AccessUnit) (au : AccessUnit) (u : UniStream)
    (rest : List (List UInt8)) : Prop where
  run : ∃ pre, dequeued = pre ++ u.frames ++ [au] ∧ pre.length = u.start ∧
    Begins cfg pre (u.frames ++ [au]) u.attempt
  enc : ∃ now ws, GopLoop.frameWrites cfg now au = some ws ∧ u.tail ++ rest.flatten = ws.flatten
  rest : ∀ w ∈ rest, w ≠ []

structure Between (cfg : FeedConfig) (dequeued : List AccessUnit) (u : UniStream) : Prop where
  run : ∃ pre, dequeued = pre ++ u.frames ∧ pre.length = u.start ∧ Begins cfg pre u.frames u.attempt
  full : u.frames ≠ []
  tail : u.tail = []

structure Opening (cfg : FeedConfig) (p : GopLoop) (au : AccessUnit) : Prop where
  last : ∃ pre, p.dequeued = pre ++ [au] ∧ Begins cfg pre [au] (p.attempts - 1)

namespace GopLoop

def PhaseOk (cfg : FeedConfig) (p : GopLoop) : Prop :=
  match p.pc with
  | .waiting => ∀ i u, p.current = some i → p.streams[i]? = some u → Between cfg p.dequeued u
  | .opening au => Opening cfg p au
  | .header au i => Opening cfg p au ∧
      p.streams[i]? = some (.fresh (p.attempts - 1) (p.dequeued.length - 1))
  | .writing au rest => ∃ i u, p.current = some i ∧ p.streams[i]? = some u ∧
      InFrame cfg p.dequeued au u rest
  | .requesting => p.current = none
  | .done => True

structure Base (cfg : FeedConfig) (p : GopLoop) (used : Option Nat) : Prop where
  runs : ∀ u ∈ p.streams, RunOk cfg p.dequeued u
  dead : ∀ i (u : UniStream), p.streams[i]? = some u → u.live = true → used = some i
  used : ∀ i, used = some i → ∃ u, p.streams[i]? = some u ∧ u.failed = false

def LeadOk (cfg : FeedConfig) (p : GopLoop) : Prop :=
  p.leadingAllowed = true → cfg.allowLeadingPFrames = true ∧ p.attempts = 0 ∧
    ∀ x ∈ p.dequeued, x.keyframe = false

structure ShapeInv (cfg : FeedConfig) (p : GopLoop) : Prop where
  base : Base cfg p p.inUse
  lead : LeadOk cfg p
  phase : PhaseOk cfg p

theorem ShapeInv.shape {cfg p} (h : ShapeInv cfg p) : Shape cfg p where
  streams := h.base.runs
  one := by
    intro i j u w hi hj hu hw
    exact some.inj ((h.base.dead i u hi hu).symm.trans (h.base.dead j w hj hw))
  returned := by
    intro hpc u hu
    obtain ⟨i, hi⟩ := getElem?_of_mem hu
    by_contra hlive
    have hused := h.base.dead i u hi (by simpa using hlive)
    simp [inUse, hpc] at hused

section Streams

variable {cfg : FeedConfig} {p : GopLoop} {i : Nat} {u : UniStream}

theorem Base.moved {used} (h : Base cfg p used) (pc : LoopPc) (c : Option Nat) :
    Base cfg { p with pc := pc, current := c } used :=
  { h with }

theorem Base.modify (h : Base cfg p (some i)) (hu : p.streams[i]? = some u)
    {f : UniStream → UniStream} (hrun : RunOk cfg p.dequeued (f u)) (hfail : (f u).failed = false) :
    Base cfg (p.modify i f) (some i) where
  runs := forall_mem_modify h.runs (fun x hx => by
    obtain rfl : u = x := mem_unique hu hx
    exact hrun)
  dead := by
    intro j w hj hw
    by_cases hij : i = j
    · rw [hij]
    · simp only [GopLoop.modify, getElem?_modify_ne _ _ hij] at hj
      exact h.dead j w hj hw
  used := by
    intro j hj
    cases hj
    exact ⟨f u, by simp [GopLoop.modify, hu], hfail⟩

theorem Base.release (h : Base cfg p (some i)) (hu : p.streams[i]? = some u)
    {f : UniStream → UniStream} (hrun : RunOk cfg p.dequeued (f u)) (hlive : (f u).live = false) :
    Base cfg (p.modify i f) none where
  runs := forall_mem_modify h.runs (fun x hx => by
    obtain rfl : u = x := mem_unique hu hx
    exact hrun)
  dead := by
    intro j w hj hw
    by_cases hij : i = j
    · subst hij
      simp only [GopLoop.modify, getElem?_modify_eq, hu, Option.map_eq_map, map_some, some.injEq] at hj
      rw [← hj, hlive] at hw
      cases hw
    · simp only [GopLoop.modify, getElem?_modify_ne _ _ hij] at hj
      exact absurd (some.inj (h.dead j w hj hw)) hij
  used := nofun

theorem cancelCurrent_dequeued (p : GopLoop) : p.cancelCurrent.dequeued = p.dequeued := by
  unfold cancelCurrent
  split <;> rfl

theorem Base.cancelCurrent (h : Base cfg p p.current) : Base cfg p.cancelCurrent none := by
  unfold GopLoop.cancelCurrent
  split
  · next i hc =>
    rw [hc] at h
    obtain ⟨u, hu, -⟩ := h.used i rfl
    exact h.release hu ((h.runs u (mem_of_getElem? hu)).ended u.failed true u.closed) rfl
  · next hc => exact hc ▸ h

theorem Base.giveUp (h : Base cfg p p.current) (hlead : LeadOk cfg p) : ShapeInv cfg p.giveUp := by
  have hcancel := h.cancelCurrent
  refine ⟨{ hcancel with }, ?_, rfl⟩
  unfold LeadOk GopLoop.giveUp GopLoop.cancelCurrent
  split <;> exact hlead

theorem Base.callWriteFrame (h : Base cfg p (some i)) (hlead : LeadOk cfg p)
    (hcur : p.current = some i) (hu : p.streams[i]? = some u) (htail : u.tail = []) {au}
    (hrun : ∃ pre, p.dequeued = pre ++ u.frames ++ [au] ∧ pre.length = u.start ∧
      Begins cfg pre (u.frames ++ [au]) u.attempt) (now : WallClock) :
    ShapeInv cfg (p.callWriteFrame cfg now au) := by
  unfold GopLoop.callWriteFrame
  split
  · next hrefused => exact (hcur ▸ h).giveUp hlead
  · next rest hws =>
    refine ⟨?_, hlead, i, u, hcur, hu, hrun, ⟨now, rest, hws, by rw [htail, nil_append]⟩,
      (frameWrites_ne_nil hws).2⟩
    rw [hcur]
    exact { h with }

theorem Base.callOpen (h : Base cfg p none) {au pre} (hd : p.dequeued = pre ++ [au])
    (hb : Begins cfg pre [au] p.attempts) : ShapeInv cfg (p.callOpen au) :=
  ⟨{ h with }, nofun, ⟨pre, hd, hb⟩⟩

end Streams

/-! ## Every step keeps it -/

namespace ShapeInv

variable {cfg : FeedConfig} {p : GopLoop}

theorem dequeue (h : ShapeInv cfg p) (hpc : p.pc = .waiting) (au : AccessUnit) (now : WallClock) :
    ShapeInv cfg (p.dequeue cfg au now) := by
  have hphase : ∀ i u, p.current = some i → p.streams[i]? = some u → Between cfg p.dequeued u := by
    have := h.phase
    simpa [PhaseOk, hpc] using this
  have hbase : ∀ used, p.current = used →
      Base cfg { p with dequeued := p.dequeued ++ [au] } used := by
    rintro _ rfl
    have hold := h.base
    simp only [inUse, hpc] at hold
    exact { hold with runs := fun u hu => (hold.runs u hu).mono au }
  unfold GopLoop.dequeue GopLoop.handle
  split
  · next hk =>
    -- a keyframe: the stream in use is reset before the next one is opened
    refine Base.callOpen (hbase _ rfl).cancelCurrent (cancelCurrent_dequeued _) ⟨by simp, ?_⟩
    intro f hf hp
    cases hf
    rw [hk] at hp
    cases hp
  · next hk =>
    have hp : au.keyframe = false := by simpa using hk
    have hlead : LeadOk cfg { p with dequeued := p.dequeued ++ [au] } := by
      intro hl
      obtain ⟨hallow, hzero, hnone⟩ := h.lead hl
      exact ⟨hallow, hzero, forall_mem_snoc hnone hp⟩
    split
    · next hsome =>
      -- the frame goes on the stream in use
      obtain ⟨i, hc⟩ := isSome_iff_exists.mp hsome
      have hc : p.current = some i := hc
      obtain ⟨u, hu, -⟩ := (hbase _ hc).used i rfl
      obtain ⟨⟨pre, hd, hlen, hb⟩, hfull, htail⟩ := hphase i u hc hu
      refine (hbase _ hc).callWriteFrame hlead hc hu htail ⟨pre, ?_, hlen, hb.snoc hfull hp⟩ now
      rw [hd]
    · next hnone =>
      have hc : p.current = none := by simpa using hnone
      have hidle := hbase _ hc
      split
      · next hl =>
        obtain ⟨hallow, hzero, hkey⟩ := h.lead hl
        exact hidle.callOpen rfl ⟨by simp, fun f _ _ => ⟨hallow, hkey, hzero⟩⟩
      · exact ⟨{ hidle with }, hlead, hc⟩

variable {au : AccessUnit} {rest : List (List UInt8)} {w : List UInt8}

theorem opening (h : ShapeInv cfg p) (hpc : p.pc = .opening au) : Opening cfg p au := by
  have hphase := h.phase
  simpa only [PhaseOk, hpc] using hphase

theorem appended (h : ShapeInv cfg p) (hpc : p.pc = .opening au) :
    Base cfg
      { p with streams := p.streams ++ [.fresh (p.attempts - 1) (p.dequeued.length - 1)] }
      (some p.streams.length) := by
  obtain ⟨pre, hd, -⟩ := (h.opening hpc).last
  have hold := h.base
  simp only [inUse, hpc] at hold
  refine ⟨forall_mem_snoc hold.runs ?_, ?_, ?_⟩
  · refine ⟨⟨pre, [au], ?_, ?_, .nil cfg pre _⟩, ⟨[], .nil, rfl⟩, .inl rfl, rfl⟩
    · rw [hd]
      simp [UniStream.fresh]
    · simp [UniStream.fresh, hd]
  · intro i u hi hlive
    by_cases hlt : i < p.streams.length
    · rw [getElem?_append_left hlt] at hi
      cases hold.dead i u hi hlive
    · have hlen := lt_of_getElem? hi
      simp only [length_append, length_singleton] at hlen
      rw [show i = p.streams.length by omega]
  · intro i hi
    cases hi
    exact ⟨_, getElem?_concat_length, rfl⟩

theorem first {attempts dequeued}
    (hopen : ∃ pre, dequeued = pre ++ [au] ∧ Begins cfg pre [au] attempts) :
    ∃ pre, dequeued = pre ++ (UniStream.fresh attempts (dequeued.length - 1)).frames ++ [au] ∧
      pre.length = (UniStream.fresh attempts (dequeued.length - 1)).start ∧
      Begins cfg pre ((UniStream.fresh attempts (dequeued.length - 1)).frames ++ [au])
        (UniStream.fresh attempts (dequeued.length - 1)).attempt := by
  obtain ⟨pre, hd, hb⟩ := hopen
  exact ⟨pre, by simp [UniStream.fresh, hd], by simp [UniStream.fresh, hd], hb⟩

theorem accept_part {u b} (hrun : RunOk cfg p.dequeued u)
    (hin : InFrame cfg p.dequeued au u (w :: rest)) (hfail : u.failed = false) (hb : b <+: w)
    (hpart : rest = [] → b ≠ w) : RunOk cfg p.dequeued (u.accept au b false) := by
  obtain ⟨encs, hencs, hbytes⟩ := hrun.bytes
  obtain ⟨now, ws, hws, henc⟩ := hin.enc
  obtain ⟨c, rfl⟩ := hb
  refine ⟨hrun.run, ⟨encs, hencs, ?_⟩, .inr ⟨au, ws.flatten, ⟨now, ws, hws, rfl⟩, ?_, ?_⟩, ?_⟩
  · simp [UniStream.accept, hbytes]
  · refine ⟨c ++ rest.flatten, ?_⟩
    simp [UniStream.accept, ← henc]
  · -- something of the frame is still to come
    intro heq
    have hmore : c ++ rest.flatten = [] := by
      have hlen := congrArg length (heq.trans henc.symm)
      simp [UniStream.accept] at hlen
      exact eq_nil_of_length_eq_zero (by simp; omega)
    obtain ⟨hc, hr⟩ := append_eq_nil_iff.mp hmore
    cases rest with
    | nil => exact hpart rfl (by rw [hc, append_nil])
    | cons x rest =>
      have hx := hin.rest x (by simp)
      simp at hr
      exact hx hr.1
  · simp [UniStream.accept, UniStream.touch, hfail, hrun.late]

theorem accept_last {u} (hrun : RunOk cfg p.dequeued u) (hin : InFrame cfg p.dequeued au u [w])
    (hfail : u.failed = false) :
    RunOk cfg p.dequeued (u.accept au w true) ∧ Between cfg p.dequeued (u.accept au w true) := by
  obtain ⟨pre, hd, hlen, hb⟩ := hin.run
  obtain ⟨encs, hencs, hbytes⟩ := hrun.bytes
  obtain ⟨now, ws, hws, henc⟩ := hin.enc
  have hdone : p.dequeued = pre ++ (u.frames ++ [au]) := by rw [hd, append_assoc]
  refine ⟨⟨⟨pre, [], ?_, hlen, hb⟩, ⟨encs ++ [ws.flatten], ?_, ?_⟩, .inl rfl, ?_⟩,
    ⟨pre, hdone, hlen, hb⟩, by simp [UniStream.accept], rfl⟩
  · rw [append_nil]
    exact hdone
  · exact rel_append hencs (.cons ⟨now, ws, hws, rfl⟩ .nil)
  · simp [UniStream.accept, hbytes, ← henc]
  · simp [UniStream.accept, UniStream.touch, hfail, hrun.late]

variable {i : Nat}

section

variable (h : ShapeInv cfg p)
include h

theorem header (hpc : p.pc = .header au i) :
    Base cfg p (some i) ∧ Opening cfg p au ∧
      p.streams[i]? = some (.fresh (p.attempts - 1) (p.dequeued.length - 1)) := by
  have hbase := h.base
  have hphase := h.phase
  simp only [inUse, hpc] at hbase
  simp only [PhaseOk, hpc] at hphase
  exact ⟨hbase, hphase⟩

theorem headerWritten (hpc : p.pc = .header au i) (now : WallClock) :
    ShapeInv cfg (callWriteFrame { p.modify i .touch with current := some i } cfg now au) := by
  obtain ⟨hbase, hopen, hi⟩ := h.header hpc
  -- writing the header changes nothing that is recorded of a stream with no failed write
  have htouch : Base cfg (p.modify i .touch) (some i) :=
    hbase.modify hi (hbase.runs _ (mem_of_getElem? hi)) rfl
  have hfresh : (p.modify i .touch).streams[i]? =
      some (.fresh (p.attempts - 1) (p.dequeued.length - 1)) := by
    simp [GopLoop.modify, hi, UniStream.touch, UniStream.fresh]
  apply (htouch.moved p.pc (some i)).callWriteFrame h.lead rfl hfresh rfl
  exact first hopen.last

theorem writing (hpc : p.pc = .writing au rest) (hcur : p.current = some i) :
    Base cfg p (some i) ∧ ∃ u, p.streams[i]? = some u ∧ u.failed = false ∧
      RunOk cfg p.dequeued u ∧ InFrame cfg p.dequeued au u rest := by
  have hbase := h.base
  have hphase := h.phase
  simp only [inUse, hpc, hcur] at hbase
  simp only [PhaseOk, hpc, hcur] at hphase
  obtain ⟨j, u, hj, hu, hin⟩ := hphase
  cases hj
  obtain ⟨w, hw, hfail⟩ := hbase.used i rfl
  obtain rfl : u = w := mem_unique hu hw
  exact ⟨hbase, u, hu, hfail, hbase.runs u (mem_of_getElem? hu), hin⟩

theorem wrote (hpc : p.pc = .writing au (w :: rest)) (hcur : p.current = some i) :
    ShapeInv cfg
      { p.modify i (fun u => u.accept au w rest.isEmpty) with
        pc := if rest.isEmpty then .waiting else .writing au rest } := by
  obtain ⟨hbase, u, hu, hfail, hrun, hin⟩ := h.writing hpc hcur
  cases rest with
  | nil =>
    obtain ⟨hrun', hbetween⟩ := accept_last hrun hin hfail
    have hnext := hbase.modify hu (f := fun u => u.accept au w true) hrun' hfail
    refine ⟨?_, h.lead, ?_⟩
    · show Base cfg _ p.current
      rw [hcur]
      exact hnext.moved _ p.current
    · intro j v hj hv
      have hj : p.current = some j := hj
      obtain rfl : i = j := mem_unique hcur hj
      simp only [GopLoop.modify, getElem?_modify_eq, hu, Option.map_eq_map, map_some, some.injEq] at hv
      exact hv ▸ hbetween
  | cons x rest =>
    have hrun' := accept_part hrun hin hfail (List.prefix_refl w) nofun
    have hnext := hbase.modify hu (f := fun u => u.accept au w false) hrun' hfail
    refine ⟨?_, h.lead, i, u.accept au w false, hcur, ?_, hin.run, ?_, ?_⟩
    · show Base cfg _ p.current
      rw [hcur]
      exact hnext.moved _ p.current
    · simp [GopLoop.modify, hu]
    · obtain ⟨now, ws, hws, henc⟩ := hin.enc
      refine ⟨now, ws, hws, ?_⟩
      simpa [UniStream.accept] using henc
    · exact fun y hy => hin.rest y (List.mem_cons_of_mem w hy)

theorem writeFailed (hpc : p.pc = .writing au (w :: rest)) (hcur : p.current = some i) (n : Nat) :
    ShapeInv cfg
      (p.modify i (fun u =>
        (u.accept au (w.take n) (rest.isEmpty && decide (w.length ≤ n))).fail)).giveUp := by
  obtain ⟨hbase, u, hu, hfail, hrun, hin⟩ := h.writing hpc hcur
  have haccept : RunOk cfg p.dequeued
      (u.accept au (w.take n) (rest.isEmpty && decide (w.length ≤ n))) := by
    by_cases hall : rest = [] ∧ w.length ≤ n
    · -- the whole frame got through before the error
      obtain ⟨rfl, hn⟩ := hall
      simp only [isEmpty_nil, hn, decide_true, Bool.and_true, take_of_length_le hn]
      exact (accept_last hrun hin hfail).1
    · have hpart : (rest.isEmpty && decide (w.length ≤ n)) = false := by
        simpa using hall
      rw [hpart]
      refine accept_part hrun hin hfail ( take_prefix n w) (fun hnil htake => hall ⟨hnil, ?_⟩)
      rw [← htake, length_take]
      exact Nat.min_le_left ..
  -- the stream fails and is reset in one go: in between it is one in use with a failed write
  have hreset := hbase.release hu
    (f := fun u => ((u.accept au (w.take n) (rest.isEmpty && decide (w.length ≤ n))).fail).cancelWrite)
    (haccept.ended true true u.closed) rfl
  have hgive : ∀ f : UniStream → UniStream, (p.modify i f).giveUp =
      { p.modify i (fun u => (f u).cancelWrite) with current := none, pc := .requesting } := by
    intro f
    simp [giveUp, GopLoop.cancelCurrent, GopLoop.modify, hcur, modify_modify_eq, Function.comp_def]
  rw [hgive]
  exact ⟨hreset.moved _ none, h.lead, rfl⟩

theorem step {ev p'} : p.step cfg ev = some p' → ShapeInv cfg p' := by
  fun_cases p.step cfg ev <;> intro hstep <;> cases hstep
  · next hpc => exact h.dequeue hpc _ _
  · next hpc _ _ _ =>
    exact ⟨(h.appended hpc).moved _ p.current, h.lead, ⟨(h.opening hpc).last⟩, getElem?_concat_length⟩
  · next hpc _ _ _ =>
    apply ((h.appended hpc).moved p.pc (some p.streams.length)).callWriteFrame h.lead rfl
      getElem?_concat_length rfl
    exact first (h.opening hpc).last
  · next hpc =>
    have hbase := h.base
    simp only [inUse, hpc] at hbase
    exact ⟨hbase.moved _ none, h.lead, rfl⟩
  · next hpc => exact h.headerWritten hpc _
  · next i hpc =>
    obtain ⟨hbase, -, hi⟩ := h.header hpc
    have hreset := hbase.release hi (f := fun u => u.touch.fail.cancelWrite)
      ((hbase.runs _ (mem_of_getElem? hi)).ended true true false) rfl
    exact ⟨hreset.moved _ none, h.lead, rfl⟩
  · next hcur hpc => exact h.wrote hpc hcur
  · next hcur hpc _ => exact h.writeFailed hpc hcur _
  · next hpc =>
    have hbase := h.base
    have hphase := h.phase
    simp only [inUse, hpc] at hbase
    simp only [PhaseOk, hpc] at hphase
    refine ⟨?_, h.lead, fun i u hi => ?_⟩
    · exact hphase ▸ hbase.moved .waiting p.current
    · have hi : p.current = some i := hi
      rw [hphase] at hi
      cases hi
  · next hpc _ hcur =>
    have hbase := h.base
    simp only [inUse, hpc, hcur] at hbase
    obtain ⟨u, hu, -⟩ := hbase.used _ rfl
    have hclose := hbase.release hu (f := .close)
      ((hbase.runs u (mem_of_getElem? hu)).ended u.failed u.reset true)
      (by simp [UniStream.close, UniStream.live])
    exact ⟨hclose.moved _ p.current, h.lead, trivial⟩
  · next hpc hcur =>
    have hbase := h.base
    simp only [inUse, hpc, hcur] at hbase
    exact ⟨hbase.moved _ p.current, h.lead, trivial⟩

end

end ShapeInv

end GopLoop

/-! ## Every run -/

def shapeSystem (cfg : FeedConfig) : System GopLoop LoopEvent :=
  ofFun (GopLoop.start cfg) (GopLoop.step cfg)

theorem shapeInv_reachable (cfg : FeedConfig) :
    ∀ p, Reachable (shapeSystem cfg) p → GopLoop.ShapeInv cfg p := by
  refine invariant_ofFun _ ⟨⟨nofun, by simp [GopLoop.start], nofun⟩, fun hl => ⟨hl, rfl, nofun⟩, nofun⟩
    (fun _ _ _ _ h => h.step)

/-- **Stream shape.** Each stream is a contiguous run of what was dequeued with a keyframe
    only at its head, at most one is open, none is written after a failure, and none is left
    open. -/
theorem gop_streams_shaped (cfg : FeedConfig) : ∀ p, Reachable (shapeSystem cfg) p → Shape cfg p :=
  fun p hp => (shapeInv_reachable cfg p hp).shape

/-- It leads with a P-frame, loses the second one in its write, fails to open and to write a
    header, and returns with a stream open. -/
def failuresRun : List LoopEvent :=
  let now : WallClock := ⟨1, by decide⟩
  [.dequeue (.bare false 1) now, .opened now, .headerWritten now, .wrote,
   .dequeue (.bare false 2) now, .writeFailed 5, .requested,
   .dequeue (.bare true 3) now, .opened now, .headerWritten now, .wrote,
   .dequeue (.bare true 4) now, .openFailed, .requested,
   .dequeue (.bare true 5) now, .opened now, .headerFailed, .requested,
   .dequeue (.bare true 6) now, .opened now, .headerWritten now, .wrote, .stopped]

def leadingConfig : FeedConfig :=
  { FeedConfig.zero with trackName := [118], scheduler := true, allowLeadingPFrames := true }

theorem gop_streams_shaped_failures :
    ∃ p, Reachable (shapeSystem leadingConfig) p ∧ p.pc = .done ∧
      p.streams.map UniStream.frames = [[.bare false 1], [.bare true 3], [], [.bare true 6]] ∧
      p.streams.map (fun u => u.tail.length) = [5, 0, 0, 0] ∧ Shape leadingConfig p :=
  exists_run_imp failuresRun (fun p hp (hq : p.pc = .done ∧
    p.streams.map UniStream.frames = [[.bare false 1], [.bare true 3], [], [.bare true 6]] ∧
    p.streams.map (fun u => u.tail.length) = [5, 0, 0, 0]) =>
      ⟨hq.1, hq.2.1, hq.2.2, gop_streams_shaped leadingConfig p hp⟩) (by decide +kernel)

end QuicRTC

import QuicRTC.Feed.StreamShape

/-! # The Pumps That Write Streams

Three of the four loops of a pump write feed frames on streams: `runStreamGOP`,
`runStreamLowLatency` with one stream that is opened again after a failure, and `runBidiPerCall`
with a goroutine and a stream for every access unit. The calls of the third finish in any order.
-/

namespace QuicRTC

open Wire Option

/-! ## The frame of a unit -/

/-- The pump writes streams only. -/
abbrev StreamConfig := { cfg : FeedConfig // cfg.loop ≠ .datagramOrStream }

namespace StreamConfig

def named (cfg : StreamConfig) : Bool := decide (cfg.1.trackName ≠ [])

def asKeyframe (cfg : StreamConfig) (au : AccessUnit) : Bool :=
  decide (cfg.1.loop ≠ .streamGOP) || au.keyframe

def frame (cfg : StreamConfig) (now : WallClock) (au : AccessUnit) : FeedFrame where
  typ := if cfg.asKeyframe au then typeKeyframe else typePFrame
  ptsMicro := au.ptsMicro
  seq := au.seq
  flags := if pubWall cfg.1 now au ≠ 0
                  then frameFlags (cfg.asKeyframe au) au.discontinuity ||| flagPublishWall
                  else frameFlags (cfg.asKeyframe au) au.discontinuity
  pubWallMicro := pubWall cfg.1 now au
  payload := au.bytes

end StreamConfig

/-! ## One stream for all units -/

inductive LowLatencyPc where
  /-- For a unit or up front. -/
  | opening (au : Option AccessUnit)
  | header (au : Option AccessUnit)
  | waiting
  | writing (au : AccessUnit)
  | done
deriving DecidableEq

/-- The last of `opened` streams is `stream` where `current` holds. -/
structure LowLatencyPump where
  pc : LowLatencyPc
  current : Bool
  opened : Nat
deriving DecidableEq

namespace LowLatencyPump

def start : LowLatencyPump := ⟨.opening none, false, 0⟩

def dequeue (p : LowLatencyPump) (au : AccessUnit) : LowLatencyPump :=
  { p with pc := if p.current then .writing au else .opening (some au) }

def proceed (p : LowLatencyPump) : Option AccessUnit → LowLatencyPump
  | none => { p with current := true, pc := .waiting }
  | some au => { p with current := true, pc := .writing au }

/-- A blocking call returns. -/
def advance (named : Bool) (p : LowLatencyPump) : PumpEvent → Option LowLatencyPump
  | .opened =>
    match p.pc with
    | .opening au =>
      if named then some { p with pc := .header au, opened := p.opened + 1 }
      else some ({ p with opened := p.opened + 1 }.proceed au)
    | _ => none
  | .openFailed =>
    match p.pc with
    -- The unit is dropped, the next one tries again.
    | .opening _ => some { p with pc := .waiting }
    | _ => none
  | .headerWritten =>
    match p.pc with
    | .header au => some (p.proceed au)
    | _ => none
  | .headerFailed =>
    match p.pc with
    | .header _ => some { p with pc := .waiting }
    | _ => none
  | .written =>
    match p.pc with
    | .writing au => if GopPump.fits au then some { p with pc := .waiting } else none
    | _ => none
  | .writeFailed complete =>
    match p.pc with
    -- The stream is given up with `CancelWrite`.
    | .writing au =>
      if complete && !GopPump.fits au then none else some { p with pc := .waiting, current := false }
    | _ => none
  | .stopped =>
    match p.pc with
    | .waiting => some { p with pc := .done, current := false }
    | _ => none

end LowLatencyPump

/-! ## A stream for every unit -/

inductive BidiPhase where
  | opening
  | header (k : Nat)
  | writing (k : Nat)
  | done
deriving DecidableEq

structure BidiCall where
  au : AccessUnit
  phase : BidiPhase
deriving DecidableEq

structure BidiPump where
  running : Bool
  opened : Nat
  calls : List BidiCall
deriving DecidableEq

namespace BidiPump

def start : BidiPump := ⟨true, 0, []⟩

def dequeue (p : BidiPump) (au : AccessUnit) : BidiPump :=
  { p with calls := p.calls ++ [⟨au, .opening⟩] }

def setPhase (p : BidiPump) (i : Nat) (call : BidiCall) (phase : BidiPhase) : BidiPump :=
  { p with calls := p.calls.set i { call with phase := phase } }

/-- The response comes after the request is complete. -/
def advance (named : Bool) (p : BidiPump) (i : Nat) (call : BidiCall) : PumpEvent → Option BidiPump
  | .opened =>
    match call.phase with
    | .opening =>
      some ({ p with opened := p.opened + 1 }.setPhase i call
        (if named then .header p.opened else .writing p.opened))
    | _ => none
  | .openFailed =>
    match call.phase with
    | .opening => some (p.setPhase i call .done)
    | _ => none
  | .headerWritten =>
    match call.phase with
    | .header k => some (p.setPhase i call (.writing k))
    | _ => none
  | .headerFailed =>
    match call.phase with
    | .header _ => some (p.setPhase i call .done)
    | _ => none
  | .written =>
    match call.phase with
    | .writing _ => if GopPump.fits call.au then some (p.setPhase i call .done) else none
    | _ => none
  | .writeFailed complete =>
    match call.phase with
    | .writing _ =>
      if complete && !GopPump.fits call.au then none else some (p.setPhase i call .done)
    | _ => none
  | .stopped => none

end BidiPump

/-! ## The three together -/

inductive StreamPump where
  | gop (p : GopPump)
  | lowLatency (p : LowLatencyPump)
  | bidi (p : BidiPump)
deriving DecidableEq

inductive SendLabel where
  | dequeue (au : AccessUnit)
  /-- `i` is the goroutine, where there are several. -/
  | call (i : Nat) (ev : PumpEvent)
  | requested
  | stop
deriving DecidableEq

namespace StreamPump

def start (cfg : StreamConfig) : StreamPump :=
  match h : cfg.1.loop with
  | .streamGOP => .gop (GopPump.start cfg.1.allowLeadingPFrames)
  | .streamLowLatency => .lowLatency LowLatencyPump.start
  | .bidiPerCall => .bidi BidiPump.start
  | .datagramOrStream => absurd h cfg.2

/-- `none`: the label is not enabled. -/
def next (named : Bool) : StreamPump → SendLabel → Option StreamPump
  | .gop p, .dequeue au => (p.next named (.dequeue au)).map .gop
  | .gop p, .call _ ev => (p.next named (.call ev)).map .gop
  | .gop p, .requested => (p.next named .requested).map .gop
  | .lowLatency p, .dequeue au => if p.pc = .waiting then some (.lowLatency (p.dequeue au)) else none
  | .lowLatency p, .call _ ev => (p.advance named ev).map .lowLatency
  | .bidi p, .dequeue au => if p.running then some (.bidi (p.dequeue au)) else none
  | .bidi p, .call i ev =>
    match p.calls[i]? with
    | some call => (p.advance named i call ev).map .bidi
    | none => none
  | .bidi p, .stop => some (.bidi { p with running := false })
  | _, _ => none

def opened : StreamPump → Nat
  | .gop p => p.streams.length
  | .lowLatency p => p.opened
  | .bidi p => p.opened

/-- The call has completed a frame. -/
def completing : PumpEvent → Bool
  | .written => true
  | .writeFailed complete => complete
  | _ => false

def writing : StreamPump → Nat → Option (Nat × AccessUnit)
  | .gop p, _ =>
    match p.pc with
    | .writing au => some (p.finished.length, au)
    | _ => none
  | .lowLatency p, _ =>
    match p.pc with
    | .writing au => some (p.opened - 1, au)
    | _ => none
  | .bidi p, i =>
    match p.calls[i]? with
    | some ⟨au, .writing k⟩ => some (k, au)
    | _ => none

def completes (p : StreamPump) : SendLabel → Option (Nat × AccessUnit)
  | .call i ev => if completing ev then p.writing i else none
  | _ => none

/-! ## One unit at a time -/

/-- The calls of a bidi pump run side by side. -/
def inHand : StreamPump → Option AccessUnit
  | .gop p =>
    match p.pc with
    | .opening au | .header au | .writing au => some au
    | _ => none
  | .lowLatency p =>
    match p.pc with
    | .opening au | .header au => au
    | .writing au => some au
    | _ => none
  | .bidi _ => none

def isSequential : StreamPump → Bool
  | .bidi _ => false
  | _ => true

theorem inHand_start (cfg : StreamConfig) : (start cfg).inHand = none := by
  unfold start
  split
  · rfl
  · rfl
  · rfl
  · next hloop => exact absurd hloop cfg.2

theorem isSequential_start {cfg : StreamConfig} (h : cfg.1.loop ≠ .bidiPerCall) :
    (start cfg).isSequential = true := by
  unfold start
  split
  · rfl
  · rfl
  · next hloop => exact absurd hloop h
  · next hloop => exact absurd hloop cfg.2

inductive Handles (p : StreamPump) : SendLabel → StreamPump → Prop where
  | dequeue {au p'} (idle : p.inHand = none) (hand : p'.inHand = some au ∨ p'.inHand = none) :
      Handles p (.dequeue au) p'
  | works {l p'} (unfinished : p.completes l = none) (hand : p'.inHand = p.inHand ∨ p'.inHand = none) :
      Handles p l p'
  | completes {l p' k au} (done : p.completes l = some (k, au)) (hand : p.inHand = some au)
      (idle : p'.inHand = none) : Handles p l p'

theorem handles_gop {named} {p : GopPump} {p' i ev} (h : p.advance named ev = some p') :
    Handles (.gop p) (.call i ev) (.gop p') := by
  cases GopPump.advance_cases h with
  | openedNamed au hpc | opened au hpc | headerWritten au hpc =>
    exact .works rfl (.inl (by simp only [inHand, hpc]))
  | written au frames hpc =>
    have hdone : (StreamPump.gop p).writing i = some (p.finished.length, au) := by
      simp only [writing, hpc]
    exact .completes hdone (by simp only [inHand, hpc]) rfl
  | writeFailed au frames complete hpc =>
    have hdone : (StreamPump.gop p).writing i = some (p.finished.length, au) := by
      simp only [writing, hpc]
    cases complete with
    | true => exact .completes hdone (by simp only [inHand, hpc]) rfl
    | false => exact .works rfl (.inr rfl)
  | _ => exact .works rfl (.inr rfl)

theorem inHand_dequeue_gop (p : GopPump) (au : AccessUnit) :
    (StreamPump.gop (p.dequeue au)).inHand = some au ∨ (StreamPump.gop (p.dequeue au)).inHand = none := by
  unfold GopPump.dequeue
  split
  · exact .inl rfl
  · split
    · exact .inl rfl
    · split
      · exact .inl rfl
      · exact .inr rfl

theorem inHand_dequeue_lowLatency (p : LowLatencyPump) (au : AccessUnit) :
    (StreamPump.lowLatency (p.dequeue au)).inHand = some au := by
  unfold LowLatencyPump.dequeue
  cases p.current <;> rfl

theorem inHand_proceed (p : LowLatencyPump) (au : Option AccessUnit) :
    (StreamPump.lowLatency (p.proceed au)).inHand = au := by
  cases au <;> rfl

theorem handles_lowLatency {named} {p : LowLatencyPump} {p' i ev} :
    p.advance named ev = some p' → Handles (.lowLatency p) (.call i ev) (.lowLatency p') := by
  have hdone {au : AccessUnit} (hpc : p.pc = .writing au) :
      (StreamPump.lowLatency p).writing i = some (p.opened - 1, au) := by
    simp only [writing, hpc]
  fun_cases p.advance named ev <;> intro h <;> cases h
  · next hpc _ => exact .works rfl (.inl (by simp only [inHand, hpc]))
  · next hpc _ => exact .works rfl (.inl (by rw [inHand_proceed]; simp only [inHand, hpc]))
  · exact .works rfl (.inr rfl)
  · next hpc => exact .works rfl (.inl (by rw [inHand_proceed]; simp only [inHand, hpc]))
  · exact .works rfl (.inr rfl)
  · next hpc _ => exact .completes (hdone hpc) (by simp only [inHand, hpc]) rfl
  · next complete au hpc _ =>
    cases complete with
    | true => exact .completes (hdone hpc) (by simp only [inHand, hpc]) rfl
    | false => exact .works rfl (.inr rfl)
  · exact .works rfl (.inr rfl)

theorem handles_of_next {named} {p : StreamPump} {p' l} (hseq : p.isSequential = true)
    (h : p.next named l = some p') : Handles p l p' ∧ p'.isSequential = true := by
  cases p with
  | gop p =>
    cases l with
    | dequeue au =>
      obtain ⟨q, hq, rfl⟩ := map_eq_some_iff.mp h
      obtain ⟨hpc, hq⟩ := ite_none_right_eq_some.mp hq
      cases hq
      exact ⟨.dequeue (by simp only [inHand, hpc]) (inHand_dequeue_gop p au), rfl⟩
    | call i ev =>
      obtain ⟨q, hq, rfl⟩ := map_eq_some_iff.mp h
      exact ⟨handles_gop hq, rfl⟩
    | requested =>
      obtain ⟨q, hq, rfl⟩ := map_eq_some_iff.mp h
      obtain ⟨-, hq⟩ := ite_none_right_eq_some.mp hq
      cases hq
      exact ⟨.works rfl (.inr rfl), rfl⟩
    | stop => cases h
  | lowLatency p =>
    cases l with
    | dequeue au =>
      obtain ⟨hpc, hq⟩ := ite_none_right_eq_some.mp h
      cases hq
      exact ⟨.dequeue (by simp only [inHand, hpc]) (.inl (inHand_dequeue_lowLatency p au)), rfl⟩
    | call i ev =>
      obtain ⟨q, hq, rfl⟩ := map_eq_some_iff.mp h
      exact ⟨handles_lowLatency hq, rfl⟩
    | _ => cases h
  | bidi p => cases hseq

end StreamPump

end QuicRTC

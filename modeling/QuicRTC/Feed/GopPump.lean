import Mathlib.Data.List.Chain
import QuicRTC.Pubsub.Receiver
import QuicRTC.Wire.Frame

/-! # The Per-GOP Pump

`runStreamGOP` of `feed/pump.go`: one uni stream per keyframe, the previous stream reset on the next
keyframe. The loop is a program counter and the locals `current` and `leadingAllowed`; its blocking
calls are steps with their outcome chosen by the environment.

A stream is modelled by the complete frames on it. A failed write may have completed its frame.
-/

namespace QuicRTC

open List Option

/-! ## The loop -/

inductive GopPc where
  | waiting
  /-- In `OpenSendStream`. -/
  | opening (au : AccessUnit)
  | header (au : AccessUnit)
  | writing (au : AccessUnit)
  | requesting
  | done
  deriving DecidableEq

/-- `current` is the open stream, `finished` those reset or closed. -/
structure GopPump where
  pc : GopPc
  current : Option (List AccessUnit)
  finished : List (List AccessUnit)
  leadingAllowed : Bool
  deriving DecidableEq

inductive PumpEvent where
  | opened
  | openFailed
  | headerWritten
  | headerFailed
  | written
  /-- All bytes had been accepted. -/
  | writeFailed (complete : Bool)
  /-- The context is done, or the channel closed and drained. -/
  | stopped
  deriving DecidableEq

namespace GopPump

def start (allowLeadingPFrames : Bool) : GopPump where
  pc := .waiting
  current := none
  finished := []
  leadingAllowed := allowLeadingPFrames

def streams (p : GopPump) : List (List AccessUnit) := p.finished ++ p.current.toList

/-- `CancelWrite` or `Close`. -/
def endStream (p : GopPump) : GopPump :=
  { p with current := none, finished := p.finished ++ p.current.toList }

/-- Up to the first blocking call. -/
def dequeue (p : GopPump) (au : AccessUnit) : GopPump :=
  if au.keyframe then
    { p.endStream with leadingAllowed := false, pc := .opening au }
  else if p.current.isSome then { p with pc := .writing au }
  else if p.leadingAllowed then { p with leadingAllowed := false, pc := .opening au }
  else { p with pc := .requesting }

def fits (au : AccessUnit) : Bool := au.bytes.length ≤ Wire.maxFeedPayload

/-- `named` is `TrackName != ""`. -/
def advance (named : Bool) (p : GopPump) : PumpEvent → Option GopPump
  | .opened =>
    match p.pc with
    | .opening au =>
      if named then some { p with pc := .header au }
      else some { p with pc := .writing au, current := some [] }
    | _ => none
  | .openFailed =>
    match p.pc with
    | .opening _ => some { p with pc := .requesting }
    | _ => none
  | .headerWritten =>
    match p.pc with
    | .header au => some { p with pc := .writing au, current := some [] }
    | _ => none
  | .headerFailed =>
    match p.pc with
    | .header _ => some { p with pc := .requesting, finished := p.finished ++ [[]] }
    | _ => none
  | .written =>
    match p.pc, p.current with
    | .writing au, some frames =>
      if fits au then some { p with pc := .waiting, current := some (frames ++ [au]) }
      else none
    | _, _ => none
  | .writeFailed complete =>
    match p.pc, p.current with
    | .writing au, some frames =>
      if complete && !fits au then none
      else some { p with
        pc := .requesting
        current := none
        finished := p.finished ++ [if complete then frames ++ [au] else frames] }
    | _, _ => none
  | .stopped =>
    match p.pc with
    | .waiting => some { p.endStream with pc := .done }
    | _ => none

/-- **Inversion** of a returning call. -/
inductive Step (named : Bool) (p : GopPump) : PumpEvent → GopPump → Prop where
  | openedNamed (au : AccessUnit) (hpc : p.pc = .opening au) (hn : named = true) :
      Step named p .opened { p with pc := .header au }
  | opened (au : AccessUnit) (hpc : p.pc = .opening au) (hn : named = false) :
      Step named p .opened { p with pc := .writing au, current := some [] }
  | openFailed (au : AccessUnit) (hpc : p.pc = .opening au) :
      Step named p .openFailed { p with pc := .requesting }
  | headerWritten (au : AccessUnit) (hpc : p.pc = .header au) :
      Step named p .headerWritten { p with pc := .writing au, current := some [] }
  | headerFailed (au : AccessUnit) (hpc : p.pc = .header au) :
      Step named p .headerFailed { p with pc := .requesting, finished := p.finished ++ [[]] }
  | written (au : AccessUnit) (frames : List AccessUnit) (hpc : p.pc = .writing au)
      (hcur : p.current = some frames) (hfits : fits au = true) :
      Step named p .written { p with pc := .waiting, current := some (frames ++ [au]) }
  | writeFailed (au : AccessUnit) (frames : List AccessUnit) (complete : Bool)
      (hpc : p.pc = .writing au) (hcur : p.current = some frames)
      (hfits : complete = true → fits au = true) :
      Step named p (.writeFailed complete)
        { p with
          pc := .requesting
          current := none
          finished := p.finished ++ [if complete then frames ++ [au] else frames] }
  | stopped (hpc : p.pc = .waiting) : Step named p .stopped { p.endStream with pc := .done }

theorem advance_cases {named} {p : GopPump} {p' ev} :
    p.advance named ev = some p' → Step named p ev p' := by
  fun_cases p.advance named ev <;> intro h <;> cases h
  · next hpc hn => exact .openedNamed _ hpc hn
  · next hpc hn => exact .opened _ hpc (by simpa using hn)
  · next hpc => exact .openFailed _ hpc
  · next hpc => exact .headerWritten _ hpc
  · next hpc => exact .headerFailed _ hpc
  · next hcur hpc hf => exact .written _ _ hpc hcur hf
  · next hcur hpc hf => exact .writeFailed _ _ _ hpc hcur (fun hc => by simpa [hc] using hf)
  · next hpc => exact .stopped hpc

end GopPump

/-! ## Decodable streams -/

/-- A keyframe, then P-frames each with the next sequence number. -/
structure Decodable (frames : List AccessUnit) : Prop where
  head : ∀ f ∈ frames.head?, f.keyframe = true
  chain : frames.IsChain (fun x y => y.keyframe = false ∧ y.seq = x.seq + 1)

instance (frames : List AccessUnit) : Decidable (Decodable frames) :=
  decidable_of_iff ((∀ f ∈ frames.head?, f.keyframe = true) ∧
    frames.IsChain (fun x y => y.keyframe = false ∧ y.seq = x.seq + 1))
    ⟨fun h => ⟨h.1, h.2⟩, fun h => ⟨h.head, h.chain⟩⟩

def Linked (x y : AccessUnit) : Prop := y.keyframe = true ∨ y.seq = x.seq + 1

theorem decodable_nil : Decodable [] := ⟨by simp, isChain_nil⟩

theorem decodable_keyframe {au : AccessUnit} (h : au.keyframe = true) : Decodable [au] :=
  ⟨by simpa using h, isChain_singleton _⟩

theorem Decodable.left {l m} (h : Decodable (l ++ m)) : Decodable l where
  head := by
    intro f hf
    cases l with
    | nil => cases hf
    | cons x l => exact h.head f hf
  chain := (isChain_append.mp h.chain).1

theorem Decodable.snoc {frames} {au : AccessUnit} {last} (h : Decodable frames)
    (hlast : frames.getLast? = some last) (hp : au.keyframe = false) (hseq : au.seq = last.seq + 1) :
    Decodable (frames ++ [au]) where
  head := by
    intro f hf
    cases frames with
    | nil => cases hlast
    | cons x l => exact h.head f hf
  chain := by
    refine isChain_append.mpr ⟨h.chain, isChain_singleton _, ?_⟩
    intro x hx y hy
    rw [hlast] at hx
    cases hx
    cases hy
    exact ⟨hp, hseq⟩

namespace GopPump

/-- What the next frame of this stream would follow. -/
def ref (p : GopPump) : Option AccessUnit :=
  match p.pc with
  | .opening au => some au
  | .header au => some au
  | .writing au => some au
  | .waiting => p.current.bind List.getLast?
  | _ => none

/-- The pump may not start on a P-frame. -/
structure Sound (p : GopPump) : Prop where
  strict : p.leadingAllowed = false
  finished : ∀ frames ∈ p.finished, Decodable frames
  waiting : p.pc = .waiting → ∀ frames ∈ p.current, Decodable frames ∧ frames ≠ []
  opening : ∀ au, p.pc = .opening au ∨ p.pc = .header au →
    au.keyframe = true ∧ p.current = none
  writing : ∀ au, p.pc = .writing au → ∀ frames ∈ p.current, Decodable (frames ++ [au])
  idle : p.pc = .requesting ∨ p.pc = .done → p.current = none

theorem sound_start : (start false).Sound where
  strict := rfl
  finished := by simp [start]
  waiting := by simp [start]
  opening := by simp [start]
  writing := by simp [start]
  idle := by simp [start]

variable {au : AccessUnit} {named : Bool} {p p' : GopPump} {ev : PumpEvent}

theorem Sound.streams (h : p.Sound) : ∀ frames ∈ p.streams, Decodable frames := by
  intro frames hf
  rcases mem_append.mp hf with hf | hf
  · exact h.finished frames hf
  · have hcur : frames ∈ p.current := by simpa using hf
    match hpc : p.pc with
    | .waiting => exact (h.waiting hpc frames hcur).1
    | .opening au => rw [(h.opening au (.inl hpc)).2] at hcur; cases hcur
    | .header au => rw [(h.opening au (.inr hpc)).2] at hcur; cases hcur
    | .writing au => exact (h.writing au hpc frames hcur).left
    | .requesting => rw [h.idle (.inl hpc)] at hcur; cases hcur
    | .done => rw [h.idle (.inr hpc)] at hcur; cases hcur

theorem Sound.dequeue (h : p.Sound) (hpc : p.pc = .waiting) (hlink : ∀ x ∈ p.ref, Linked x au) :
    (p.dequeue au).Sound ∧ ((p.dequeue au).ref = some au ∨ (p.dequeue au).ref = none) := by
  have hend : ∀ frames ∈ p.finished ++ p.current.toList, Decodable frames := h.streams
  have hstrict := h.strict
  unfold GopPump.dequeue
  cases hk : au.keyframe with
  | true =>
    refine ⟨⟨rfl, hend, by simp, ?_, by simp, by simp⟩, .inl rfl⟩
    intro x hx
    rcases hx with hx | hx <;> cases hx
    exact ⟨hk, rfl⟩
  | false =>
    rcases hc : p.current with _ | frames
    · -- no open stream: the P-frame is skipped
      simp only [isSome_none, Bool.false_eq_true, if_false, hstrict]
      exact ⟨⟨rfl, h.finished, by simp, by simp, by simp, fun _ => rfl⟩, .inr rfl⟩
    · refine ⟨⟨hstrict, h.finished, by simp, by simp, ?_, by simp⟩, .inl rfl⟩
      obtain ⟨hdec, hne⟩ := h.waiting hpc frames hc
      intro x hx fs hfs
      cases hx
      cases hfs
      obtain ⟨last, hlast⟩ := isSome_iff_exists.mp
        (by simpa using hne : (frames.getLast?).isSome = true)
      have hl := hlink last (by simp [ref, hpc, hc, hlast])
      exact hdec.snoc hlast hk (hl.resolve_left (by simp [hk]))

theorem Sound.advance (h : p.Sound) (hev : p.advance named ev = some p') :
    p'.Sound ∧ (p'.ref = p.ref ∨ p'.ref = none) := by
  have hstrict := h.strict
  cases advance_cases hev with
  | openedNamed au hpc _ =>
    refine ⟨⟨hstrict, h.finished, by simp, ?_, by simp, by simp⟩, .inl (by simp [ref, hpc])⟩
    intro x hx
    rcases hx with hx | hx <;> cases hx
    exact h.opening au (.inl hpc)
  | opened au hpc _ =>
    refine ⟨⟨hstrict, h.finished, by simp, by simp, ?_, by simp⟩, .inl (by simp [ref, hpc])⟩
    intro x hx fs hfs
    cases hx
    cases hfs
    exact decodable_keyframe (h.opening au (.inl hpc)).1
  | openFailed au hpc =>
    exact ⟨⟨hstrict, h.finished, by simp, by simp, by simp,
      fun _ => (h.opening au (.inl hpc)).2⟩, .inr rfl⟩
  | headerWritten au hpc =>
    refine ⟨⟨hstrict, h.finished, by simp, by simp, ?_, by simp⟩, .inl (by simp [ref, hpc])⟩
    intro x hx fs hfs
    cases hx
    cases hfs
    exact decodable_keyframe (h.opening au (.inr hpc)).1
  | headerFailed au hpc =>
    refine ⟨⟨hstrict, ?_, by simp, by simp, by simp,
      fun _ => (h.opening au (.inr hpc)).2⟩, .inr rfl⟩
    exact Slots.forall_mem_snoc h.finished decodable_nil
  | written au frames hpc hcur _ =>
    refine ⟨⟨hstrict, h.finished, ?_, by simp, by simp, by simp⟩, .inl (by simp [ref, hpc])⟩
    intro _ fs hfs
    cases hfs
    exact ⟨h.writing au hpc frames hcur, by simp⟩
  | writeFailed au frames complete hpc hcur _ =>
    have hdec := h.writing au hpc frames hcur
    refine ⟨⟨hstrict, ?_, by simp, by simp, by simp, by simp⟩, .inr rfl⟩
    refine Slots.forall_mem_snoc h.finished ?_
    split
    · exact hdec
    · exact hdec.left
  | stopped _ =>
    exact ⟨⟨hstrict, h.streams, by simp, by simp, by simp, fun _ => rfl⟩, .inr rfl⟩

/-! ## The first frame written -/

/-- Every complete frame, in the order written. -/
def wrote (p : GopPump) : List AccessUnit := p.streams.flatten

/-- The unit between its dequeue and the end of its write. -/
def hand (p : GopPump) : Option AccessUnit :=
  match p.pc with
  | .opening au => some au
  | .header au => some au
  | .writing au => some au
  | _ => none

/-- The first frame is `good`; before that, the one in hand. -/
structure Opens (good : AccessUnit → Prop) (p : GopPump) : Prop where
  head : ∀ x ∈ p.wrote.head?, good x
  hand : p.wrote = [] → ∀ au ∈ p.hand, good au
  live : p.pc = .waiting → p.current.isSome = true → p.wrote ≠ []
  opening : ∀ au, p.pc = .opening au ∨ p.pc = .header au → p.current = none
  idle : p.pc = .requesting → p.current = none

@[simp] theorem endStream_wrote (p : GopPump) (pc : GopPc) (b : Bool) :
    ({ p.endStream with pc := pc, leadingAllowed := b } : GopPump).wrote = p.wrote := by
  simp [wrote, streams, endStream]

variable {good : AccessUnit → Prop}

theorem Opens.dequeue (h : p.Opens good) (hpc : p.pc = .waiting)
    (hgood : au.keyframe = true ∨ p.leadingAllowed = true → good au) :
    (p.dequeue au).Opens good := by
  unfold GopPump.dequeue
  split
  · next hk =>
    refine ⟨?_, ?_, by simp, fun _ _ => rfl, by simp⟩
    · rw [endStream_wrote]; exact h.head
    · intro _ x hx
      cases hx
      exact hgood (.inl hk)
  · split
    · next hc =>
      refine ⟨h.head, fun hw => absurd hw (h.live hpc hc), by simp, by simp, by simp⟩
    · next hc =>
      have hnone : p.current = none := by simpa using hc
      split
      · next hl =>
        refine ⟨h.head, ?_, by simp, fun _ _ => hnone, by simp⟩
        intro _ x hx
        cases hx
        exact hgood (.inr hl)
      · exact ⟨h.head, nofun, by simp, by simp, fun _ => hnone⟩

theorem Opens.advance (h : p.Opens good) (hev : p.advance named ev = some p') : p'.Opens good := by
  -- the frame completed by a write is the first one, or follows a good one
  have hsnoc : ∀ {au}, p.pc = .writing au → ∀ x ∈ (p.wrote ++ [au]).head?, good x := by
    intro au hpc x hx
    by_cases hw : p.wrote = []
    · rw [hw] at hx
      cases hx
      exact h.hand hw au (by simp [GopPump.hand, hpc])
    · rw [head?_append_of_ne_nil _ hw] at hx
      exact h.head x hx
  cases advance_cases hev with
  | openedNamed au hpc _ =>
    refine ⟨h.head, fun hw x hx => ?_, by simp, fun _ _ => h.opening au (.inl hpc), by simp⟩
    cases hx
    exact h.hand hw au (by simp [GopPump.hand, hpc])
  | opened au hpc _ =>
    have hw : ({ p with pc := .writing au, current := some [] } : GopPump).wrote = p.wrote := by
      simp [wrote, GopPump.streams, h.opening au (.inl hpc)]
    refine ⟨hw ▸ h.head, fun hw' x hx => ?_, by simp, by simp, by simp⟩
    cases hx
    exact h.hand (hw ▸ hw') au (by simp [GopPump.hand, hpc])
  | openFailed au hpc =>
    exact ⟨h.head, nofun, by simp, by simp,
      fun _ => h.opening au (.inl hpc)⟩
  | headerWritten au hpc =>
    have hw : ({ p with pc := .writing au, current := some [] } : GopPump).wrote = p.wrote := by
      simp [wrote, GopPump.streams, h.opening au (.inr hpc)]
    refine ⟨hw ▸ h.head, fun hw' x hx => ?_, by simp, by simp, by simp⟩
    cases hx
    exact h.hand (hw ▸ hw') au (by simp [GopPump.hand, hpc])
  | headerFailed au hpc =>
    have hcur := h.opening au (.inr hpc)
    have hw : ({ p with pc := .requesting, finished := p.finished ++ [[]] } : GopPump).wrote
        = p.wrote := by
      simp [wrote, GopPump.streams, hcur]
    exact ⟨hw ▸ h.head, nofun, by simp, by simp, fun _ => hcur⟩
  | written au frames hpc hcur _ =>
    have hw : ({ p with pc := .waiting, current := some (frames ++ [au]) } : GopPump).wrote
        = p.wrote ++ [au] := by
      simp [wrote, GopPump.streams, hcur]
    exact ⟨hw ▸ hsnoc hpc, nofun, (fun _ _ => by rw [hw]; simp), by simp,
      by simp⟩
  | writeFailed au frames complete hpc hcur _ =>
    refine ⟨?_, nofun, by simp, by simp, fun _ => rfl⟩
    show ∀ x ∈ (p.finished ++ [if complete then frames ++ [au] else frames] ++ []).flatten.head?,
      good x
    cases complete with
    | true =>
      have hw : (p.finished ++ [frames ++ [au]] ++ []).flatten = p.wrote ++ [au] := by
        simp [wrote, GopPump.streams, hcur]
      rw [if_pos rfl, hw]
      exact hsnoc hpc
    | false =>
      have hw : (p.finished ++ [frames] ++ []).flatten = p.wrote := by
        simp [wrote, GopPump.streams, hcur]
      rw [if_neg (by simp), hw]
      exact h.head
  | stopped hpc =>
    refine ⟨?_, nofun, by simp, by simp, by simp⟩
    have hw := endStream_wrote p .done p.leadingAllowed
    exact hw ▸ h.head

theorem Opens.requested (h : p.Opens good) (hpc : p.pc = .requesting) :
    ({ p with pc := .waiting } : GopPump).Opens good where
  head := h.head
  hand := nofun
  live := fun _ hc => by rw [h.idle hpc] at hc; cases hc
  opening := fun _ hx => by rcases hx with hx | hx <;> cases hx
  idle := nofun

theorem dequeue_leading (p : GopPump) (au : AccessUnit) (h : p.current = none) :
    (p.dequeue au).leadingAllowed = false := by
  unfold GopPump.dequeue
  split
  · rfl
  · simp only [h, isSome_none, Bool.false_eq_true, if_false]
    split
    · rfl
    · next hl => simpa using hl

theorem dequeue_leading_of_false (h : p.leadingAllowed = false)
    (au : AccessUnit) : (p.dequeue au).leadingAllowed = false := by
  unfold GopPump.dequeue
  split
  · rfl
  · split
    · exact h
    · split
      · rfl
      · exact h

theorem advance_leading
    (h : p.advance named ev = some p') : p'.leadingAllowed = p.leadingAllowed := by
  cases advance_cases h <;> rfl

theorem advance_of_hand_none (h : p.advance named ev = some p') (hnone : p.hand = none) :
    p'.current = none ∧ p'.hand = none := by
  cases advance_cases h with
  | openedNamed au hpc _ | opened au hpc _ | openFailed au hpc | headerWritten au hpc
  | headerFailed au hpc | written au frames hpc _ _ | writeFailed au frames complete hpc _ _ =>
    simp [hand, hpc] at hnone
  | stopped _ => exact ⟨rfl, rfl⟩

end GopPump

inductive PumpAction where
  | dequeue (au : AccessUnit)
  | call (ev : PumpEvent)
  | requested

def GopPump.next (named : Bool) (q : GopPump) : PumpAction → Option GopPump
  | .dequeue au => if q.pc = .waiting then some (q.dequeue au) else none
  | .call ev => q.advance named ev
  | .requested => if q.pc = .requesting then some { q with pc := .waiting } else none

end QuicRTC

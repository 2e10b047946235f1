import QuicRTC.Framework.System
import QuicRTC.Pubsub.Receiver
import QuicRTC.Record.Format

/-! # Recordings

`record/file.go`, `record/replayer.go` and `record/timeline.go`. `Write` puts a unit into a queue or
counts it as dropped, a goroutine writes what is queued, and `Close` lets it finish.

The encoder skips long names and kinds without a count, and writes bodies that the decoder takes for
a corrupt file.
-/

namespace QuicRTC.Record

open Wire ByteReader LTS List Option

/-! ## The recorder -/

structure RecordedAU where
  track : GoString
  kind : GoString
  au : AccessUnit
deriving DecidableEq

def RecordedAU.frame (r : RecordedAU) (now : UInt64) : Frame where
  trackName := r.track
  kind := r.kind
  ptsMicros := r.au.ptsMicro
  seq := r.au.seq
  keyframe := r.au.keyframe
  discontinuity := r.au.discontinuity
  capturedAtMicros := now
  payload := r.au.bytes

/-- `written` has what the goroutine took, with the capture times; `calls` counts the
    `Write`s. -/
structure FileRecorder where
  depth : Nat
  ch : List RecordedAU
  closed : Bool
  dropped : Nat
  /-- `Close` has returned. -/
  finished : Bool
  file : List UInt8
  calls : Nat
  written : List (RecordedAU × UInt64)

namespace FileRecorder

def accepted (s : FileRecorder) : List RecordedAU := s.written.map Prod.fst ++ s.ch

def write (s : FileRecorder) (r : RecordedAU) : FileRecorder :=
  if s.closed || s.depth ≤ s.ch.length then { s with calls := s.calls + 1, dropped := s.dropped + 1 }
  else { s with calls := s.calls + 1, ch := s.ch ++ [r] }

inductive RecStep where
  | write (r : RecordedAU)
  | run (now : UInt64)
  /-- `Close` up to its wait. -/
  | close
  /-- The goroutine has returned, and `Close` ends. -/
  | finish

def next (s : FileRecorder) : RecStep → Option FileRecorder
  | .write r => some (s.write r)
  | .run now =>
    match s.ch with
    | [] => none
    | r :: rest =>
      some { s with
        ch := rest
        written := s.written ++ [(r, now)]
        -- A frame that cannot be encoded is skipped.
        file := s.file ++ (encodeFrame (r.frame now)).getD [] }
  | .close => if s.closed then none else some { s with closed := true }
  | .finish =>
    if s.closed && s.ch.isEmpty && !s.finished then
      some { s with finished := true, file := s.file ++ eofMarker }
    else none

def start (depth : Nat) : FileRecorder := ⟨depth, [], false, 0, false, header, 0, []⟩

def recorderSystem (depth : Nat) : System FileRecorder RecStep := ofFun (start depth) next

end FileRecorder

/-! ## Readers -/

/-- `Replayer.Next`, `n` times at most, after the header. -/
def replay (file : List UInt8) (n : Nat) : List Frame × List UInt8 :=
  Decoder.runAll (flat fileError) (List.replicate n decodeFrame) (file.drop header.length)

/-- The payload is left in the file. -/
structure Entry where
  frame : Frame
  payloadLen : Nat
  offset : Nat

/-- The loop of `BuildTimeline`; `fuel` bounds the frames. -/
def timelineLoop : Nat → Nat → List UInt8 → Except RecordError (List Entry)
  | 0, _, _ => .ok []
  | fuel + 1, off, bytes =>
    match decodeFrame.run (flat fileError) bytes with
    | .ok (f, rest) =>
      (timelineLoop fuel (off + (bytes.length - rest.length)) rest).map
        (⟨{ f with payload := [] }, f.payload.length, off⟩ :: ·)
    | .error .corruptHeader => .error .corruptHeader
    -- The end marker, the end of the file or a torn frame.
    | .error _ => .ok []

def buildTimeline (file : List UInt8) : Except RecordError (List Entry) :=
  match readHeader.run (flat fileError) file with
  | .ok (_, rest) => timelineLoop (rest.length + 1) header.length rest
  | .error e => .error e

def readPayload (file : List UInt8) (e : Entry) : Except RecordError Frame :=
  (decodeFrame.run (flat fileError) (file.drop e.offset)).map Prod.fst

/-! ## Files of frames -/

def frameBytes (f : Frame) : List UInt8 := be32 (body f).length.toUInt32 ++ body f

theorem encodeFrame_eq {f : Frame} (hf : f.Fits) : encodeFrame f = some (frameBytes f) := by
  rw [encodeFrame, if_neg (Nat.not_lt.mpr hf.trackName), if_neg (Nat.not_lt.mpr hf.kind)]
  rfl

theorem decodeFrame_eofMarker (rest : List UInt8) :
    decodeFrame.run (flat fileError) (eofMarker ++ rest) = .error .eof :=
  (run_read_append (show eofMarker.length = 4 from rfl) rest).trans rfl

def recording (l : List Frame) : List UInt8 := header ++ (l.flatMap frameBytes ++ eofMarker)

theorem replay_recording {l} (hl : ∀ f ∈ l, f.Fits) (n : Nat) :
    replay (recording l) (l.length + n) = (l, eofMarker) := by
  have hend : Decoder.runAll (flat fileError) (List.replicate n decodeFrame) eofMarker =
      ([], eofMarker) := by
    cases n with
    | _ => rfl
  have hall := runAll_encoded frameBytes id
    (fun f hf => decodeFrame_encoded (hl f hf) (encodeFrame_eq (hl f hf))) eofMarker
    (List.replicate n decodeFrame)
  rw [hend, List.append_nil, List.map_id] at hall
  rw [replay, recording, List.drop_left, List.replicate_add]
  exact hall

/-- The payload is read back from the file. -/
def Indexes (file : List UInt8) (e : Entry) (f : Frame) : Prop :=
  e.frame = { f with payload := [] } ∧ e.payloadLen = f.payload.length ∧
    readPayload file e = .ok f

/-! ## `Replayer.Next` until its first error -/

theorem decodeFrame_suffix {bytes f rest}
    (h : decodeFrame.run (flat fileError) bytes = .ok (f, rest)) :
    rest <:+ bytes ∧ rest.length < bytes.length := by
  rw [decodeFrame, run_read_flat] at h
  split at h
  case isFalse => cases h
  next hlen =>
  split at h
  · cases h
  split at h
  · cases h
  rw [run_read_flat] at h
  split at h
  case isFalse => cases h
  split at h
  · cases h
    refine ⟨(drop_suffix _ _).trans (drop_suffix _ _), ?_⟩
    simp only [length_drop]
    omega
  · cases h

/-- A torn frame ends a recording like its marker. -/
def replayLoop (left : List UInt8) : List Frame × RecordError :=
  match _h : decodeFrame.run (flat fileError) left with
  | .ok (f, rest) => (f :: (replayLoop rest).1, (replayLoop rest).2)
  | .error .unexpectedEOF => ([], .eof)
  | .error e => ([], e)
termination_by left.length
decreasing_by all_goals exact (decodeFrame_suffix _h).2

section Loop

variable {file bytes : List UInt8}

theorem replayLoop_ok {f rest} (h : decodeFrame.run (flat fileError) bytes = .ok (f, rest)) :
    replayLoop bytes = (f :: (replayLoop rest).1, (replayLoop rest).2) := by
  rw [replayLoop]
  split <;> cases h.symm.trans ‹_›
  rfl

theorem replayLoop_error {e} (h : decodeFrame.run (flat fileError) bytes = .error e) :
    replayLoop bytes = ([], if e = .unexpectedEOF then .eof else e) := by
  rw [replayLoop]
  split <;> cases h.symm.trans ‹_›
  · rfl
  · next hne _ => rw [if_neg hne]

/-- `t` is of the frames the replayer yields before `io.EOF`. -/
structure Agrees (file : List UInt8) (t : Except RecordError (List Entry))
    (r : List Frame × RecordError) : Prop where
  ok_iff : (∃ entries, t = .ok entries) ↔ r.2 = .eof
  indexes : ∀ entries, t = .ok entries → List.Forall₂ (Indexes file) entries r.1

theorem timelineLoop_agrees {fuel off} (hfuel : bytes.length < fuel) (hoff : file.drop off = bytes) :
    Agrees file (timelineLoop fuel off bytes) (replayLoop bytes) := by
  induction fuel generalizing off bytes with
  | zero => exact absurd hfuel (Nat.not_lt_zero _)
  | succ fuel ih =>
    rw [timelineLoop]
    cases hrun : decodeFrame.run (flat fileError) bytes with
    | error e =>
      rw [replayLoop_error hrun]
      cases e with
      | corruptHeader => exact ⟨by simp, fun _ h => (by cases h)⟩
      | _ => exact ⟨by simp, fun _ h => (by cases h; exact .nil)⟩
    | ok p =>
      obtain ⟨hsuffix, hlt⟩ := decodeFrame_suffix hrun
      have htail := ih (by omega) (show file.drop (off + (bytes.length - p.2.length)) = p.2 by
        rw [← drop_drop, hoff]
        exact (suffix_iff_eq_drop.mp hsuffix).symm)
      have hpayload : readPayload file ⟨{ p.1 with payload := [] }, p.1.payload.length, off⟩ =
          .ok p.1 := by
        simp only [readPayload, hoff, hrun]
        rfl
      rw [replayLoop_ok hrun]
      show Agrees file (Except.map _ (timelineLoop fuel _ p.2)) _
      generalize timelineLoop fuel _ p.2 = t at htail ⊢
      refine ⟨Iff.trans ?_ htail.ok_iff, fun entries h => ?_⟩
      · cases t <;> simp [Except.map]
      · cases t with
        | error _ => cases h
        | ok tail =>
          cases h
          exact .cons ⟨rfl, rfl, hpayload⟩ (htail.indexes tail rfl)

end Loop

theorem buildTimeline_agrees (bytes : List UInt8) :
    Agrees (header ++ bytes) (buildTimeline (header ++ bytes)) (replayLoop bytes) := by
  have hheader : readHeader.run (flat fileError) (header ++ bytes) = .ok ((), bytes) :=
    (run_read_append (show header.length = 12 by decide) _).trans rfl
  rw [buildTimeline, hheader]
  exact timelineLoop_agrees (Nat.lt_succ_self _) drop_left

theorem replayLoop_marker : replayLoop eofMarker = ([], .eof) :=
  replayLoop_error (decodeFrame_eofMarker [])

theorem replayLoop_frames {l} (hl : ∀ f ∈ l, f.Fits) (rest : List UInt8) :
    replayLoop (l.flatMap frameBytes ++ rest) = (l ++ (replayLoop rest).1, (replayLoop rest).2) := by
  induction l with
  | nil => rfl
  | cons f l ih =>
    have hf := hl f mem_cons_self
    rw [flatMap_cons, append_assoc, replayLoop_ok (decodeFrame_encoded hf (encodeFrame_eq hf) _),
      ih (fun x hx => hl x (mem_cons_of_mem f hx))]
    rfl

theorem buildTimeline_recording {l} (hl : ∀ f ∈ l, f.Fits) :
    ∃ entries, buildTimeline (recording l) = .ok entries ∧
      List.Forall₂ (Indexes (recording l)) entries l := by
  have hagrees := buildTimeline_agrees (l.flatMap frameBytes ++ eofMarker)
  rw [replayLoop_frames hl, replayLoop_marker, append_nil] at hagrees
  obtain ⟨entries, hbuild⟩ := hagrees.ok_iff.mpr rfl
  exact ⟨entries, hbuild, hagrees.indexes entries hbuild⟩

/-! ## What was accepted is read back -/

namespace FileRecorder

def frames (s : FileRecorder) : List Frame := s.written.map (fun w => w.1.frame w.2)

/-- Within the limits of the format, at any capture time. -/
def Fits (r : RecordedAU) : Prop := ∀ now, (r.frame now).Fits

/-- The unit can be encoded and decoded. -/
def fits (_ : FileRecorder) : RecStep → Prop
  | .write r => FileRecorder.Fits r
  | _ => True

structure Recorded (s : FileRecorder) : Prop where
  counted : s.calls = s.accepted.length + s.dropped
  fits : ∀ r ∈ s.accepted, FileRecorder.Fits r
  file : s.file = header ++ (s.frames.flatMap frameBytes ++ if s.finished then eofMarker else [])
  drained : s.finished = true → s.ch = [] ∧ s.closed = true

variable {s s' : FileRecorder}

theorem Recorded.write (h : s.Recorded) {r} (hr : FileRecorder.Fits r) : (s.write r).Recorded := by
  have hcount := h.counted
  unfold FileRecorder.write
  split
  · refine { h with counted := ?_ }
    show s.calls + 1 = s.accepted.length + (s.dropped + 1)
    omega
  · next hopen =>
    refine ⟨?_, ?_, h.file, ?_⟩
    · show s.calls + 1 = (s.written.map Prod.fst ++ (s.ch ++ [r])).length + s.dropped
      rw [← append_assoc, length_append, length_singleton]
      unfold accepted at hcount
      omega
    · rw [accepted, ← append_assoc]
      exact Slots.forall_mem_snoc h.fits hr
    · intro hfin
      simp [(h.drained hfin).2] at hopen

theorem Recorded.step (h : s.Recorded) {l} (hok : s.fits l) : s.next l = some s' → s'.Recorded := by
  fun_cases s.next l <;> intro hstep <;> cases hstep
  · exact h.write hok
  · next now r rest hch =>
    have hopen : s.finished = false := by
      by_contra hfin
      rw [(h.drained (Bool.eq_true_of_not_eq_false hfin)).1] at hch
      cases hch
    have hsame : s.written.map Prod.fst ++ [r] ++ rest = s.accepted := by
      rw [accepted, hch, List.append_assoc, List.singleton_append]
    have hfits : FileRecorder.Fits r := h.fits r (by simp [accepted, hch])
    refine ⟨?_, ?_, ?_, fun hfin => absurd (hopen.symm.trans hfin) (by simp)⟩
    · show s.calls = ((s.written ++ [(r, now)]).map Prod.fst ++ rest).length + s.dropped
      rw [List.map_append, List.map_singleton, hsame]
      exact h.counted
    · intro x hx
      rw [accepted, List.map_append, List.map_singleton, hsame] at hx
      exact h.fits x hx
    · have hfile := h.file
      simp only [hopen, Bool.false_eq_true, if_false, List.append_nil] at hfile ⊢
      rw [hfile, encodeFrame_eq (hfits now), List.append_assoc]
      simp only [frames, List.map_append, List.map_singleton, List.flatMap_append,
        List.flatMap_singleton, Option.getD_some]
  · exact { h with drained := fun hfin => ⟨(h.drained hfin).1, rfl⟩ }
  · next hcond =>
    simp only [Bool.and_eq_true, List.isEmpty_iff, Bool.not_eq_true'] at hcond
    refine ⟨h.counted, h.fits, ?_, fun _ => ⟨hcond.1.2, hcond.1.1⟩⟩
    have hfile := h.file
    simp only [hcond.2, Bool.false_eq_true, if_false, List.append_nil] at hfile
    simp only [hfile, if_true, List.append_assoc]
    rfl

def FramesOf (fs : List Frame) (l : List RecordedAU) : Prop :=
  List.Forall₂ (fun f r => ∃ now, f = r.frame now) fs l

/-- **Recordings.** After `Close` both readers yield the accepted units in order, and every
    `Write` was accepted or counted as dropped. -/
theorem recording_complete (depth : Nat)
    (h : Reachable ((recorderSystem depth).restrict fits) s) (hfin : s.finished = true) :
    s.calls = s.accepted.length + s.dropped ∧
    ∃ fs, FramesOf fs s.accepted ∧ (∀ n, replay s.file (fs.length + n) = (fs, eofMarker)) ∧
      decodeFrame.run (flat fileError) eofMarker = .error .eof ∧
      ∃ entries, buildTimeline s.file = .ok entries ∧ List.Forall₂ (Indexes s.file) entries fs := by
  have hrec : s.Recorded := by
    refine invariant_restrict Recorded ?_ (fun _ _ _ _ h => h.step) s h
    exact ⟨rfl, nofun, rfl, nofun⟩
  have hch := (hrec.drained hfin).1
  have hfile : s.file = recording s.frames := by
    rw [hrec.file, hfin]
    rfl
  have hfits : ∀ f ∈ s.frames, f.Fits := by
    intro f hf
    obtain ⟨w, hw, rfl⟩ := mem_map.mp hf
    exact hrec.fits w.1 (mem_append_left _ (mem_map_of_mem hw)) w.2
  refine ⟨hrec.counted, s.frames, ?_, ?_, decodeFrame_eofMarker [], ?_⟩
  · rw [FramesOf, accepted, hch, append_nil, frames, forall₂_map_left_iff,
      forall₂_map_right_iff]
    exact forall₂_same.mpr (fun w _ => ⟨w.2, rfl⟩)
  · rw [hfile]
    exact replay_recording hfits
  · rw [hfile]
    exact buildTimeline_recording hfits

def sample (kind : GoString) : RecordedAU := ⟨str "cam", kind, ⟨[1, 2], true, 5, 1, false, 0⟩⟩

theorem recording_complete_two : ∃ s, Reachable ((recorderSystem 2).restrict fits) s ∧
    s.accepted = [sample (str "video"), sample (str "audio")] ∧ s.calls = 2 ∧ s.dropped = 0 ∧
    ∃ fs, FramesOf fs s.accepted ∧ replay s.file 2 = (fs, eofMarker) := by
  have hvideo : FileRecorder.Fits (sample (str "video")) := fun now =>
    ⟨show (str "cam").length ≤ 0xFFFF by decide, show (str "video").length ≤ 0xFF by decide, by
      show 2 + ((str "cam").length + (1 + ((str "video").length + (25 + 2)))) ≤ maxFrameLen
      decide⟩
  have haudio : FileRecorder.Fits (sample (str "audio")) := fun now =>
    ⟨show (str "cam").length ≤ 0xFFFF by decide, show (str "audio").length ≤ 0xFF by decide, by
      show 2 + ((str "cam").length + (1 + ((str "audio").length + (25 + 2)))) ≤ maxFrameLen
      decide⟩
  have h₀ : Reachable ((recorderSystem 2).restrict fits) (start 2) := .init rfl
  have h₁ := h₀.step (RecStep.write (sample (str "video"))) ⟨hvideo, rfl⟩
  have h₂ := h₁.step (RecStep.write (sample (str "audio"))) ⟨haudio, rfl⟩
  have h₃ := h₂.step (RecStep.run 8) ⟨trivial, rfl⟩
  have h₄ := h₃.step (RecStep.run 9) ⟨trivial, rfl⟩
  have h₅ := h₄.step RecStep.close ⟨trivial, rfl⟩
  have h₆ := h₅.step RecStep.finish ⟨trivial, rfl⟩
  obtain ⟨-, fs, hof, hreplay, -⟩ := recording_complete 2 h₆ rfl
  have hread := hreplay 0
  rw [show fs.length + 0 = 2 from hof.length_eq] at hread
  exact ⟨_, h₆, rfl, rfl, rfl, fs, hof, hread⟩

/-- A unit with a long kind is accepted, and not in the file. -/
theorem recording_skips : ∃ s, Reachable (recorderSystem 1) s ∧ s.finished = true ∧
    s.accepted.length = 1 ∧ s.dropped = 0 ∧ s.file = header ++ eofMarker := by
  exact exists_run [.write (sample (replicate 256 0)), .run 9, .close, .finish]
    (by decide +kernel)

end FileRecorder

end QuicRTC.Record

import QuicRTC.Record.File

/-! # Recordings That Were Cut Off

A process that dies leaves a file without its end marker, cut at any byte. Both readers of `record/`
yield the frames that are whole, and they agree on the bytes of any other writer.
-/

namespace QuicRTC.Record

open Wire ByteReader LTS List

/-- They end within the first `n` bytes. -/
def contained : Nat → List Frame → List Frame
  | _, [] => []
  | n, f :: l =>
    if (frameBytes f).length ≤ n then f :: contained (n - (frameBytes f).length) l else []

theorem contained_isPrefix (n : Nat) (l : List Frame) : contained n l <+: l := by
  induction l generalizing n with
  | nil => exact nil_prefix
  | cons f l ih =>
    rw [contained]
    split
    · exact (prefix_cons_inj f).mpr (ih _)
    · exact nil_prefix

/-- No whole frame, and no sign of corruption. -/
def Torn (rest : List UInt8) : Prop := replayLoop rest = ([], .eof)

theorem torn_marker (n : Nat) : Torn (eofMarker.take n) := by
  rcases n with _ | _ | _ | _ | n
  · exact replayLoop_error (e := .eof) rfl
  iterate 3 exact replayLoop_error (e := .unexpectedEOF) rfl
  rw [take_of_length_le (Nat.le_add_left 4 n)]
  exact replayLoop_marker

theorem torn_frame {f : Frame} (hf : f.Fits) {n} (hn : n < (frameBytes f).length) :
    Torn ((frameBytes f).take n) := by
  have hrun := decodeFrame_encoded hf (encodeFrame_eq hf) []
  rw [append_nil] at hrun
  obtain ⟨left, herr⟩ := run_take_error hrun hn
  rw [Torn, replayLoop_error herr]
  cases left with
  | _ => rfl

theorem take_frames {l tail} (hl : ∀ f ∈ l, Frame.Fits f) (htail : ∀ n, Torn (tail.take n))
    (n : Nat) :
    ∃ rest, (l.flatMap frameBytes ++ tail).take n = (contained n l).flatMap frameBytes ++ rest ∧
      Torn rest := by
  induction l generalizing n with
  | nil => exact ⟨tail.take n, rfl, htail n⟩
  | cons f l ih =>
    rw [flatMap_cons, append_assoc, take_append, contained]
    split
    · next hle =>
      obtain ⟨rest, heq, hrest⟩ :=
        ih (fun x hx => hl x (mem_cons_of_mem f hx)) (n - (frameBytes f).length)
      exact ⟨rest, by rw [take_of_length_le hle, heq, flatMap_cons, append_assoc], hrest⟩
    · next hgt =>
      rw [Nat.sub_eq_zero_of_le (Nat.le_of_not_le hgt), take_zero, append_nil]
      exact ⟨_, rfl, torn_frame (hl f mem_cons_self) (Nat.lt_of_not_le hgt)⟩

/-- **Salvage.** Whenever the recorder stops, and wherever its file is cut off behind the
    header, both readers yield the whole frames, the first that were written, without an
    error of corruption. -/
theorem recording_salvaged {depth} {s : FileRecorder}
    (h : Reachable ((FileRecorder.recorderSystem depth).restrict FileRecorder.fits) s) {n}
    (hn : header.length ≤ n) :
    contained (n - header.length) s.frames <+: s.frames ∧
    replayLoop ((s.file.take n).drop header.length) =
      (contained (n - header.length) s.frames, .eof) ∧
    ∃ entries, buildTimeline (s.file.take n) = .ok entries ∧
      List.Forall₂ (Indexes (s.file.take n)) entries (contained (n - header.length) s.frames) := by
  have hrec : s.Recorded := by
    refine invariant_restrict FileRecorder.Recorded ?_ (fun _ _ _ _ h => h.step) s h
    exact ⟨rfl, nofun, rfl, nofun⟩
  have hfits : ∀ f ∈ s.frames, f.Fits := by
    intro f hf
    obtain ⟨w, hw, rfl⟩ := mem_map.mp hf
    exact hrec.fits w.1 (mem_append_left _ (mem_map_of_mem hw)) w.2
  have htail : ∀ m, Torn ((if s.finished then eofMarker else []).take m) := by
    intro m
    split
    · exact torn_marker m
    · rw [take_nil]
      exact torn_marker 0
  obtain ⟨rest, hrest, htorn⟩ := take_frames hfits htail (n - header.length)
  rw [hrec.file, take_append, take_of_length_le hn, drop_left, hrest]
  have hagrees :=
    buildTimeline_agrees ((contained (n - header.length) s.frames).flatMap frameBytes ++ rest)
  have hwhole := contained_isPrefix (n - header.length) s.frames
  rw [replayLoop_frames (fun f hf => hfits f (hwhole.subset hf)), htorn, append_nil] at hagrees ⊢
  obtain ⟨entries, hbuild⟩ := hagrees.ok_iff.mpr rfl
  exact ⟨hwhole, rfl, entries, hbuild, hagrees.indexes entries hbuild⟩

theorem recording_salvaged_torn : ∃ s : FileRecorder, s.frames.length = 1 ∧
    ∃ entries, buildTimeline (s.file.take 20) = .ok entries := by
  have hfits : FileRecorder.Fits (FileRecorder.sample []) := fun now =>
    ⟨show 3 ≤ 0xFFFF by decide, Nat.zero_le _,
      show 2 + (3 + (1 + (0 + (25 + 2)))) ≤ maxFrameLen by decide⟩
  have h₁ : Reachable ((FileRecorder.recorderSystem 1).restrict FileRecorder.fits) _ :=
    .step (.write (FileRecorder.sample [])) (.init rfl) ⟨hfits, rfl⟩
  have h₂ := Reachable.step (FileRecorder.RecStep.run 9) h₁ ⟨trivial, rfl⟩
  obtain ⟨entries, hbuild, -⟩ := (recording_salvaged h₂ (show 12 ≤ 20 by decide)).2.2
  exact ⟨_, rfl, entries, hbuild⟩

/-- **The readers agree.** On any bytes behind a header `BuildTimeline` succeeds iff the
    replayer ends with `io.EOF`, and on the same frames, each of which `ReadPayload` finds.
    -/
theorem readers_agree (bytes : List UInt8) :
    ((∃ entries, buildTimeline (header ++ bytes) = .ok entries) ↔ (replayLoop bytes).2 = .eof) ∧
    ∀ entries, buildTimeline (header ++ bytes) = .ok entries →
      List.Forall₂ (Indexes (header ++ bytes)) entries (replayLoop bytes).1 :=
  ⟨(buildTimeline_agrees bytes).ok_iff, (buildTimeline_agrees bytes).indexes⟩

end QuicRTC.Record

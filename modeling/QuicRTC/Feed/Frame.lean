import QuicRTC.Pubsub.Broadcaster
import QuicRTC.Track.Kind
import QuicRTC.Wire.Read

/-! # What a Pump Writes

The configuration of one track's pump (`feed.Config`) and the bytes of the feed frame each of its
loops writes for an access unit (`feed/pump.go`, `feed/datagram.go`, `feed/bidi.go`).
-/

namespace QuicRTC

open Wire ByteReader List Option

/-- The transport hooks are given by whether they are wired. -/
structure FeedConfig where
  trackName : GoString
  priority : UInt8
  trackID : UInt8
  delivery : DeliveryClass
  scheduler : Bool
  datagramSender : Bool
  fallbackOpener : Bool
  bidiOpener : Bool
  allowLeadingPFrames : Bool
  stampPublishWall : Bool
  deriving DecidableEq

def FeedConfig.zero : FeedConfig where
  trackName := []
  priority := 0
  trackID := 0
  delivery := .streamGOP
  scheduler := false
  datagramSender := false
  fallbackOpener := false
  bidiOpener := false
  allowLeadingPFrames := false
  stampPublishWall := false

/-- Without its hook a class falls back to a stream per GOP. -/
def FeedConfig.loop (cfg : FeedConfig) : DeliveryClass :=
  match cfg.delivery with
  | .streamLowLatency => .streamLowLatency
  | .datagramOrStream => if cfg.datagramSender then .datagramOrStream else .streamGOP
  | .bidiPerCall => if cfg.bidiOpener then .bidiPerCall else .streamGOP
  | .streamGOP => .streamGOP

/-! ## Writers -/

/-- What a `Write` answers; `failed n` is an error with `n` bytes
    accepted. -/
inductive WriteResult where
  | ok
  | failed (n : Nat)
  deriving DecidableEq

abbrev WallClock := { t : UInt64 // t ≠ 0 }

theorem firstTick_ne_zero : (1 : UInt64) ≠ 0 := by decide

def firstTick : WallClock := ⟨1, firstTick_ne_zero⟩

def pubWall (cfg : FeedConfig) (now : WallClock) (au : AccessUnit) : UInt64 :=
  if !cfg.stampPublishWall then 0
  else if au.pubWallMicro ≠ 0 then au.pubWallMicro
  else now.val

def appendFeedFrame (typ : UInt8) (pts : UInt64) (seq : UInt32) (flags : UInt8)
    (pubWall : UInt64) (payload : List UInt8) : List UInt8 :=
  let flags := if pubWall ≠ 0 then flags ||| flagPublishWall else flags
  feedHeader typ payload.length pts seq flags
    ++ (if pubWall ≠ 0 then be64 pubWall else []) ++ payload

/-- One write; refused if the payload is too large for the length field. -/
def writeFeedFramePooled (typ : UInt8) (pts : UInt64) (seq : UInt32) (flags : UInt8)
    (pubWall : UInt64) (payload : List UInt8) : Option (List UInt8) :=
  if maxFeedPayload < payload.length then none
  else some (appendFeedFrame typ pts seq flags pubWall payload)

def pacingChunkBytes : Nat := 16 * 1024

/-- `fuel` bounds the number of chunks. -/
def chunkLoop (size : Nat) : Nat → List UInt8 → List (List UInt8)
  | 0, _ => []
  | fuel + 1, buf =>
    if buf.isEmpty then [] else buf.take size :: chunkLoop size fuel (buf.drop size)

/-- A large frame under a scheduler goes out in chunks. -/
def writeFrame (cfg : FeedConfig) (typ : UInt8) (pts : UInt64) (seq : UInt32) (flags : UInt8)
    (pubWall : UInt64) (payload : List UInt8) : Option (List (List UInt8)) :=
  if maxFeedPayload < payload.length then none
  else if !cfg.scheduler || feedHeaderLen + payload.length ≤ pacingChunkBytes then
    (writeFeedFramePooled typ pts seq flags pubWall payload).map (fun buf => [buf])
  else
    let buf := appendFeedFrame typ pts seq flags pubWall payload
    some (chunkLoop pacingChunkBytes buf.length buf)

def frameFlags (keyframe discontinuity : Bool) : UInt8 :=
  (if keyframe then flagKeyframe else 0) ||| (if discontinuity then flagDiscontinuity else 0)

/-- In the datagram loop it is the frame on the fallback stream. -/
def pumpFrame (cfg : FeedConfig) (now : WallClock) (au : AccessUnit) : Option (List UInt8) :=
  let wall := pubWall cfg now au
  match cfg.loop with
  | .streamGOP =>
    (writeFrame cfg (if au.keyframe then typeKeyframe else typePFrame) au.ptsMicro au.seq
      (frameFlags au.keyframe au.discontinuity) wall au.bytes).map List.flatten
  | .streamLowLatency =>
    (writeFrame cfg typeKeyframe au.ptsMicro au.seq
      (frameFlags true au.discontinuity) wall au.bytes).map List.flatten
  | .datagramOrStream =>
    if cfg.fallbackOpener then
      writeFeedFramePooled typeKeyframe au.ptsMicro au.seq
        (frameFlags true au.discontinuity) wall au.bytes
    else none
  | .bidiPerCall =>
    if wall ≠ 0 then
      writeFeedFrameWall typeKeyframe au.ptsMicro au.seq
        (frameFlags true au.discontinuity) wall au.bytes
    else
      writeFeedFrame typeKeyframe au.ptsMicro au.seq
        (frameFlags true au.discontinuity) au.bytes

/-! ## The writers agree -/

theorem chunkLoop_flatten {size} (hsize : 0 < size) (fuel : Nat) (buf : List UInt8)
    (hfuel : buf.length ≤ fuel) : (chunkLoop size fuel buf).flatten = buf := by
  induction fuel generalizing buf with
  | zero => rw [eq_nil_of_length_eq_zero (Nat.le_zero.mp hfuel)]; rfl
  | succ fuel ih =>
    simp only [chunkLoop]
    split
    · next hnil => rw [isEmpty_iff.mp hnil]; rfl
    · next hne =>
      have hpos : 0 < buf.length := by
        cases buf with
        | nil => exact absurd rfl hne
        | cons _ _ => exact Nat.zero_lt_succ _
      have hdrop : (buf.drop size).length ≤ fuel := by
        rw [length_drop]; omega
      rw [flatten_cons, ih _ hdrop, take_append_drop]

theorem chunkLoop_ne_nil {size} (hsize : 0 < size) {buf} (hbuf : buf ≠ []) :
    chunkLoop size buf.length buf ≠ [] ∧ ∀ w ∈ chunkLoop size buf.length buf, w ≠ [] := by
  have hpieces : ∀ (fuel : Nat) (buf : List UInt8), ∀ w ∈ chunkLoop size fuel buf, w ≠ [] := by
    intro fuel
    induction fuel with
    | zero =>
      nofun
    | succ fuel ih =>
      intro buf w hw
      simp only [chunkLoop] at hw
      split at hw
      · cases hw
      · next hne =>
        rcases mem_cons.mp hw with rfl | hrest
        · intro hnil
          rcases take_eq_nil_iff.mp hnil with hzero | hnil
          · omega
          · exact hne (isEmpty_iff.mpr hnil)
        · exact ih _ w hrest
  refine ⟨?_, hpieces _ _⟩
  obtain ⟨b, rest, rfl⟩ := exists_cons_of_ne_nil hbuf
  simp [chunkLoop]

theorem appendFeedFrame_ne_nil (typ : UInt8) (pts : UInt64) (seq : UInt32) (flags : UInt8)
    (pubWall : UInt64) (payload : List UInt8) :
    appendFeedFrame typ pts seq flags pubWall payload ≠ [] := by
  intro hnil
  have hlen := congrArg length hnil
  simp [appendFeedFrame, feedHeaderLen] at hlen

theorem writeFrame_flatten (cfg : FeedConfig) (typ : UInt8) (pts : UInt64) (seq : UInt32)
    (flags : UInt8) (wall : UInt64) (payload : List UInt8) :
    (writeFrame cfg typ pts seq flags wall payload).map List.flatten =
      writeFeedFramePooled typ pts seq flags wall payload := by
  unfold writeFrame writeFeedFramePooled
  split
  · rfl
  · split
    · simp
    · simp only [map_some]
      rw [chunkLoop_flatten (by decide) _ _ le_rfl]

theorem writeFeedFrameWall_eq (typ : UInt8) (pts : UInt64) (seq : UInt32) (flags : UInt8) {wall}
    (hwall : wall ≠ 0) (payload : List UInt8) :
    writeFeedFrameWall typ pts seq flags wall payload =
      writeFeedFramePooled typ pts seq flags wall payload := by
  simp only [writeFeedFrameWall, writeFeedFramePooled, appendFeedFrame, if_pos hwall]

theorem writeFeedFrame_eq (typ : UInt8) (pts : UInt64) (seq : UInt32) (flags : UInt8)
    (payload : List UInt8) :
    writeFeedFrame typ pts seq flags payload =
      writeFeedFramePooled typ pts seq flags 0 payload := by
  simp [writeFeedFrame, writeFeedFramePooled, appendFeedFrame]

theorem pumpFrame_eq (cfg : FeedConfig) (now : WallClock) (au : AccessUnit)
    (hfeed : cfg.loop = .datagramOrStream → cfg.fallbackOpener = true) :
    ∃ typ keyframe, pumpFrame cfg now au =
      writeFeedFramePooled typ au.ptsMicro au.seq (frameFlags keyframe au.discontinuity)
        (pubWall cfg now au) au.bytes := by
  unfold pumpFrame
  cases hloop : cfg.loop with
  | datagramOrStream => exact ⟨_, _, if_pos (hfeed hloop)⟩
  | bidiPerCall =>
    refine ⟨typeKeyframe, true, ?_⟩
    by_cases hwall : pubWall cfg now au = 0
    · simp [hwall, writeFeedFrame_eq]
    · simp [hwall, writeFeedFrameWall_eq]
  | _ => exact ⟨_, _, writeFrame_flatten ..⟩

/-! ## Reading the header -/

def flagsOf (frame : List UInt8) : UInt8 := frame.getD 16 0

def payloadLenOf (frame : List UInt8) : Nat :=
  (frame.getD 1 0).toNat * 65536 + (frame.getD 2 0).toNat * 256 + (frame.getD 3 0).toNat

/-- The flag is set and the extension is in front of the payload. -/
def CarriesWall (frame : List UInt8) : Prop :=
  flagsOf frame &&& flagPublishWall ≠ 0 ∧
    frame.length = feedHeaderLen + wallExtLen + payloadLenOf frame

/-- The flag is clear and the payload comes right after the header. -/
def Plain (frame : List UInt8) : Prop :=
  flagsOf frame &&& flagPublishWall = 0 ∧ frame.length = feedHeaderLen + payloadLenOf frame

variable {frame : List UInt8}

theorem Plain.not_carriesWall (h : Plain frame) : ¬ CarriesWall frame :=
  fun hc => hc.1 h.1

theorem flagsOf_feedHeader (typ : UInt8) (n : Nat) (pts : UInt64) (seq : UInt32) (flags : UInt8)
    (rest : List UInt8) : flagsOf (feedHeader typ n pts seq flags ++ rest) = flags := rfl

theorem payloadLenOf_feedHeader (typ : UInt8) {n} (hn : n ≤ maxFeedPayload) (pts : UInt64)
    (seq : UInt32) (flags : UInt8) (rest : List UInt8) :
    payloadLenOf (feedHeader typ n pts seq flags ++ rest) = n := by
  show ((n >>> 16).toUInt8).toNat * 65536 + ((n >>> 8).toUInt8).toNat * 256 + (n.toUInt8).toNat = n
  simp only [maxFeedPayload] at hn
  simp only [Nat.toUInt8, UInt8.toNat_ofNat', Nat.shiftRight_eq_div_pow]
  omega

theorem frameFlags_and_wall (keyframe discontinuity : Bool) :
    frameFlags keyframe discontinuity &&& flagPublishWall = 0 := by
  cases keyframe <;> cases discontinuity <;> decide

theorem or_and_self (a b : UInt8) : (a ||| b) &&& b = b := by
  apply UInt8.eq_of_toBitVec_eq
  ext i hi
  simp only [UInt8.toBitVec_and, UInt8.toBitVec_or, BitVec.getElem_and, BitVec.getElem_or]
  exact Bool.and_eq_right_iff_imp.mpr (fun h => by simp [h])

/-! ## The publish wall on a frame -/

theorem writeFeedFramePooled_wall {typ pts seq flags wall payload}
    (hflags : flags &&& flagPublishWall = 0)
    (h : writeFeedFramePooled typ pts seq flags wall payload = some frame) :
    if wall ≠ 0 then CarriesWall frame else Plain frame := by
  unfold writeFeedFramePooled at h
  split at h
  · cases h
  · next hlen =>
    cases h
    have hfits : payload.length ≤ maxFeedPayload := Nat.le_of_not_lt hlen
    unfold appendFeedFrame
    split
    · next hwall =>
      simp only [append_assoc]
      refine ⟨?_, ?_⟩
      · rw [flagsOf_feedHeader, or_and_self]
        decide
      · rw [payloadLenOf_feedHeader typ hfits]
        simp only [length_append, feedHeader_length, be64_length]
        omega
    · next hwall =>
      simp only [append_assoc, nil_append]
      refine ⟨hflags, ?_⟩
      rw [payloadLenOf_feedHeader typ hfits, length_append, feedHeader_length]

theorem pubWall_ne_zero_iff (cfg : FeedConfig) (now : WallClock) (au : AccessUnit) :
    pubWall cfg now au ≠ 0 ↔ cfg.stampPublishWall = true := by
  unfold pubWall
  cases cfg.stampPublishWall with
  | false => simp
  | true =>
    by_cases h : au.pubWallMicro = 0
    · simp [h, now.property]
    · simp [h]

variable {cfg : FeedConfig} {now : WallClock} {au : AccessUnit}

theorem pumpFrame_carriesWall_iff (hfeed : cfg.loop = .datagramOrStream → cfg.fallbackOpener = true)
    (h : pumpFrame cfg now au = some frame) : CarriesWall frame ↔ cfg.stampPublishWall = true := by
  obtain ⟨typ, keyframe, heq⟩ := pumpFrame_eq cfg now au hfeed
  have hwall := writeFeedFramePooled_wall (frameFlags_and_wall keyframe au.discontinuity)
    (heq.symm.trans h)
  rw [← pubWall_ne_zero_iff cfg now au]
  split at hwall
  · next hne => exact iff_of_true hwall hne
  · next hz => exact iff_of_false hwall.not_carriesWall hz

theorem exists_pumpFrame (cfg : FeedConfig) (now : WallClock)
    (hfeed : cfg.loop = .datagramOrStream → cfg.fallbackOpener = true) (keyframe : Bool)
    (seq : UInt32) : ∃ frame, pumpFrame cfg now (.bare keyframe seq) = some frame := by
  obtain ⟨typ, k, heq⟩ := pumpFrame_eq cfg now (.bare keyframe seq) hfeed
  exact ⟨_, heq.trans (if_neg (Nat.not_lt_zero _))⟩

/-! ## The writes of a frame -/

/-- `none` if the unit is refused. A fallback frame is checked where it is written. -/
def feedWrites (cfg : FeedConfig) (now : WallClock) (au : AccessUnit) :
    Option (List (List UInt8)) :=
  let wall := pubWall cfg now au
  match cfg.loop with
  | .streamGOP =>
    writeFrame cfg (if au.keyframe then typeKeyframe else typePFrame) au.ptsMicro au.seq
      (frameFlags au.keyframe au.discontinuity) wall au.bytes
  | .streamLowLatency =>
    writeFrame cfg typeKeyframe au.ptsMicro au.seq (frameFlags true au.discontinuity) wall au.bytes
  | .datagramOrStream =>
    if cfg.fallbackOpener then
      (writeFeedFramePooled typeKeyframe au.ptsMicro au.seq
        (frameFlags true au.discontinuity) wall au.bytes).map (fun buf => [buf])
    else none
  | .bidiPerCall =>
    if wall ≠ 0 then
      feedFrameWallWrites typeKeyframe au.ptsMicro au.seq
        (frameFlags true au.discontinuity) wall au.bytes
    else
      feedFrameWrites typeKeyframe au.ptsMicro au.seq (frameFlags true au.discontinuity) au.bytes

theorem feedWrites_flatten (cfg : FeedConfig) (now : WallClock) (au : AccessUnit) :
    (feedWrites cfg now au).map List.flatten = pumpFrame cfg now au := by
  unfold feedWrites pumpFrame
  cases cfg.loop with
  | datagramOrStream =>
    simp only
    split
    · simp [Function.comp_def]
    · rfl
  | bidiPerCall =>
    simp only
    split
    · exact feedFrameWallWrites_flatten ..
    · exact feedFrameWrites_flatten ..
  | _ => rfl

theorem fallback_of_pumpFrame (h : pumpFrame cfg now au = some frame) :
    cfg.loop = .datagramOrStream → cfg.fallbackOpener = true := by
  intro hloop
  by_contra hno
  unfold pumpFrame at h
  rw [hloop] at h
  simp [hno] at h

theorem feedWrites_ne_nil {ws} (h : feedWrites cfg now au = some ws) : ws ≠ [] := by
  have hframe := feedWrites_flatten cfg now au
  rw [h, map_some] at hframe
  rintro rfl
  obtain ⟨typ, k, heq⟩ := pumpFrame_eq cfg now au (fallback_of_pumpFrame hframe.symm)
  rw [heq] at hframe
  unfold writeFeedFramePooled at hframe
  split at hframe
  · cases hframe
  · exact appendFeedFrame_ne_nil _ _ _ _ _ _ (some.inj hframe).symm

/-! ## Reading the frames back -/

def feedFrameBytes (f : FeedFrame) : List UInt8 :=
  appendFeedFrame f.typ f.ptsMicro f.seq f.flags f.pubWallMicro f.payload

theorem readFeedFrame_feedFrameBytes {f : FeedFrame} (hf : f.Encodable) (rest : List UInt8) :
    readFeedFrame.run (flat eofError) (feedFrameBytes f ++ rest) = .ok (f.stamped, rest) := by
  obtain ⟨typ, pts, seq, flags, wall, payload⟩ := f
  unfold feedFrameBytes appendFeedFrame FeedFrame.stamped
  by_cases hwall : wall = 0
  · subst hwall
    simp only [ne_eq, not_true_eq_false, if_false, append_nil, append_assoc]
    rw [readFeedFrame_header hf.fits, if_neg (not_not.mpr hf.flags)]
    exact readPayload_append _ payload rest rfl
  · have hset : (flags ||| flagPublishWall) &&& flagPublishWall ≠ 0 := by
      rw [or_and_self]
      decide
    have hext : (flat eofError).readFull wallExtLen (be64 wall ++ (payload ++ rest)) =
        .ok (be64 wall, payload ++ rest) := flat_append eofError (be64 wall) _
    simp only [ne_eq, hwall, not_false_eq_true, if_true, append_assoc]
    rw [readFeedFrame_header hf.fits, if_pos hset]
    simp only [Decoder.run, hext, beNat_be64]
    exact readPayload_append _ payload rest rfl

theorem runAll_feedFrameBytes {l : List FeedFrame} (hl : ∀ f ∈ l, f.Encodable) (n : Nat) :
    Decoder.runAll (flat eofError) (List.replicate (l.length + n) readFeedFrame)
      (l.flatMap feedFrameBytes) = (l.map FeedFrame.stamped, []) := by
  have hend : Decoder.runAll (flat eofError) (replicate n readFeedFrame) [] = ([], []) := by
    cases n with
    | _ => rfl
  have hall := runAll_encoded feedFrameBytes FeedFrame.stamped
    (fun f hf => readFeedFrame_feedFrameBytes (hl f hf)) [] (replicate n readFeedFrame)
  rw [append_nil, hend, append_nil] at hall
  rw [replicate_add]
  exact hall

/-- **Feed frames.** All encoders write the same bytes, which are read back; what is too
    large is refused by all. -/
theorem feed_frames_read_back (cfg : FeedConfig) :
    (∀ f : FeedFrame, f.Encodable →
      (writeFrame cfg f.typ f.ptsMicro f.seq f.flags f.pubWallMicro f.payload).map List.flatten =
          some (feedFrameBytes f) ∧
        writeFeedFramePooled f.typ f.ptsMicro f.seq f.flags f.pubWallMicro f.payload =
          some (feedFrameBytes f) ∧
        (f.pubWallMicro = 0 → (feedFrameWrites f.typ f.ptsMicro f.seq f.flags f.payload).map
          List.flatten = some (feedFrameBytes f)) ∧
        (f.pubWallMicro ≠ 0 → (feedFrameWallWrites f.typ f.ptsMicro f.seq f.flags f.pubWallMicro
          f.payload).map List.flatten = some (feedFrameBytes f)) ∧
        ∀ rest, readFeedFrame.run (flat eofError) (feedFrameBytes f ++ rest) = .ok (f.stamped, rest)) ∧
    (∀ l : List FeedFrame, (∀ f ∈ l, f.Encodable) → ∀ n,
      Decoder.runAll (flat eofError) (List.replicate (l.length + n) readFeedFrame)
        (l.flatMap feedFrameBytes) = (l.map FeedFrame.stamped, [])) ∧
    ∀ f : FeedFrame, maxFeedPayload < f.payload.length →
      writeFrame cfg f.typ f.ptsMicro f.seq f.flags f.pubWallMicro f.payload = none ∧
        writeFeedFramePooled f.typ f.ptsMicro f.seq f.flags f.pubWallMicro f.payload = none ∧
        feedFrameWrites f.typ f.ptsMicro f.seq f.flags f.payload = none ∧
        feedFrameWallWrites f.typ f.ptsMicro f.seq f.flags f.pubWallMicro f.payload = none := by
  refine ⟨?_, fun l hl n => runAll_feedFrameBytes hl n, ?_⟩
  · intro f hf
    have hpooled : writeFeedFramePooled f.typ f.ptsMicro f.seq f.flags f.pubWallMicro f.payload =
        some (feedFrameBytes f) := if_neg (Nat.not_lt.mpr hf.fits)
    refine ⟨(writeFrame_flatten ..).trans hpooled, hpooled, ?_, ?_,
      fun rest => readFeedFrame_feedFrameBytes hf rest⟩
    · intro hwall
      rw [feedFrameWrites_flatten, writeFeedFrame_eq, ← hwall]
      exact hpooled
    · intro hwall
      rw [feedFrameWallWrites_flatten, writeFeedFrameWall_eq _ _ _ _ hwall]
      exact hpooled
  · intro f hbig
    exact ⟨if_pos hbig, if_pos hbig, if_pos hbig, if_pos hbig⟩

/-! ## What fits a frame -/

theorem Broadcaster.size_le_of_accept {b : Broadcaster} {chanSize au au'}
    (hb : b.maxAUBytes = (newBroadcaster chanSize).maxAUBytes) (h : b.accept au = some au') :
    au'.size ≤ maxFeedPayload + 1 := by
  -- The cap is one byte more than a frame can carry.
  unfold accept at h
  split at h
  · cases h
  · split at h
    · cases h
    · next hfits =>
      cases h
      have hcap : b.maxAUBytes = 16 * 1024 * 1024 := hb
      unfold maxFeedPayload
      omega

/-- A unit accepted under the default cap is refused by the encoders exactly if it has 16
    MiB. -/
theorem accepted_encodes {b : Broadcaster} {chanSize : Int} {au au' : AccessUnit}
    (hb : b.maxAUBytes = (newBroadcaster chanSize).maxAUBytes) (h : b.accept au = some au')
    (cfg : FeedConfig) (typ flags : UInt8) (pts wall : UInt64) (seq : UInt32) :
    ((writeFrame cfg typ pts seq flags wall au'.bytes).isSome ↔ au'.size ≠ 16 * 1024 * 1024) ∧
    ((writeFeedFramePooled typ pts seq flags wall au'.bytes).isSome ↔
      au'.size ≠ 16 * 1024 * 1024) ∧
    ((feedFrameWrites typ pts seq flags au'.bytes).isSome ↔ au'.size ≠ 16 * 1024 * 1024) ∧
    ((feedFrameWallWrites typ pts seq flags wall au'.bytes).isSome ↔
      au'.size ≠ 16 * 1024 * 1024) := by
  have hle := Broadcaster.size_le_of_accept hb h
  unfold writeFrame writeFeedFramePooled feedFrameWrites feedFrameWallWrites
  by_cases hsize : au'.size = 16 * 1024 * 1024
  · have hlarge : maxFeedPayload < au'.bytes.length := by
      unfold AccessUnit.size at hsize
      rw [hsize]
      decide
    rw [if_pos hlarge, if_pos hlarge, if_pos hlarge, if_pos hlarge]
    simp [hsize]
  · have hfits : ¬ maxFeedPayload < au'.bytes.length := by
      unfold maxFeedPayload at *
      unfold AccessUnit.size at *
      omega
    rw [if_neg hfits, if_neg hfits, if_neg hfits, if_neg hfits]
    refine ⟨iff_of_true ?_ hsize, iff_of_true rfl hsize, iff_of_true rfl hsize,
      iff_of_true rfl hsize⟩
    split <;> rfl

theorem accepted_encodes_three :
    ∃ au, au.bytes = [1, 2, 3] ∧ (newBroadcaster 0).accept au = some au ∧
      (writeFrame .zero typeKeyframe 0 1 flagKeyframe 0 au.bytes).isSome := by
  have h : (newBroadcaster 0).accept { AccessUnit.bare true 1 with bytes := [1, 2, 3] } =
      some { AccessUnit.bare true 1 with bytes := [1, 2, 3] } := rfl
  exact ⟨_, rfl, h, (accepted_encodes rfl h .zero typeKeyframe flagKeyframe 0 0 1).1.mpr (by decide)⟩

/-- A keyframe of 16 MiB is accepted, and no encoder takes it. -/
theorem accepted_too_large : ∃ au, (newBroadcaster 0).accept au = some au ∧
    writeFrame .zero typeKeyframe 0 1 flagKeyframe 0 au.bytes = none ∧
    writeFeedFramePooled typeKeyframe 0 1 flagKeyframe 0 au.bytes = none ∧
    feedFrameWrites typeKeyframe 0 1 flagKeyframe au.bytes = none ∧
    feedFrameWallWrites typeKeyframe 0 1 flagKeyframe 1 au.bytes = none := by
  obtain ⟨payload, hlen⟩ : ∃ payload : List UInt8, payload.length = maxFeedPayload + 1 :=
    ⟨replicate (maxFeedPayload + 1) 0, length_replicate⟩
  have hlarge : maxFeedPayload < payload.length := by omega
  refine ⟨{ AccessUnit.bare true 1 with bytes := payload }, if_neg ?_,
    if_pos hlarge, if_pos hlarge, if_pos hlarge, if_pos hlarge⟩
  rintro ⟨-, h⟩
  unfold AccessUnit.size at h
  rw [hlen] at h
  exact absurd h (by decide)

end QuicRTC

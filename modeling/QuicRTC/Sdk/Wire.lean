import QuicRTC.Framework.Utf8
import QuicRTC.Wire.Read

/-! # The Wire in the TypeScript SDK

`ts-sdk/src/wire.ts`. However the transport cuts the bytes, the decoders agree with those of
`wire/frame.go`; but a track name is a string here, and bytes that are no text do not survive in it.
The encoder allows one byte more than the length field can express.
-/

namespace QuicRTC.Sdk.Framing

open Wire ByteReader List

/-! ## The reader -/

inductive ReadError where
  | unexpectedEOF (n filled : Nat)
  | frameTooLarge (what : GoString) (length max : Nat)
  | emptyStreamHeader
deriving DecidableEq

/-- `chunks`: what the underlying reader delivers. -/
structure BufferedReader where
  leftover : List UInt8
  done : Bool
  chunks : List (List UInt8)
deriving DecidableEq

namespace BufferedReader

/-- With the bytes it has so far. -/
def fill (n : Nat) : List (List UInt8) → List UInt8 → Except ReadError (List UInt8 × BufferedReader)
  | [], out => .error (.unexpectedEOF n out.length)
  | chunk :: rest, out =>
    if chunk.isEmpty then fill n rest out
    else if out.length + chunk.length < n then fill n rest (out ++ chunk)
    else .ok (out ++ chunk.take (n - out.length), ⟨chunk.drop (n - out.length), false, rest⟩)

def read (n : Nat) (r : BufferedReader) : Except ReadError (List UInt8 × BufferedReader) :=
  let out := r.leftover.take n
  if n ≤ out.length then .ok (out, { r with leftover := r.leftover.drop n })
  else if r.done then .error (.unexpectedEOF n out.length)
  else fill n r.chunks out

def unread (b : List UInt8) (r : BufferedReader) : BufferedReader :=
  if b.isEmpty then r else { r with leftover := b ++ r.leftover }

def source : Source BufferedReader ReadError := ⟨read, unread⟩

/-- What the reader still delivers. -/
def bytes (r : BufferedReader) : List UInt8 :=
  r.leftover ++ if r.done then [] else r.chunks.flatten

theorem fill_full {n} {chunks : List (List UInt8)} {out : List UInt8} (hout : out.length < n)
    (h : n ≤ (out ++ chunks.flatten).length) :
    ∃ r, fill n chunks out = .ok ((out ++ chunks.flatten).take n, r) ∧
      r.bytes = (out ++ chunks.flatten).drop n := by
  -- on the chunks: each is empty, fits, or has the last bytes needed
  induction chunks generalizing out with
  | nil =>
    rw [flatten_nil, append_nil] at h
    omega
  | cons chunk rest ih =>
    rw [fill]
    rw [flatten_cons] at h ⊢
    split
    · next hnil =>
      rw [isEmpty_iff.mp hnil, nil_append] at h ⊢
      exact ih hout h
    · split
      · next hshort =>
        rw [← append_assoc] at h ⊢
        exact ih (by rwa [length_append]) h
      · next hlong =>
        have hlen : n - out.length ≤ chunk.length := by omega
        refine ⟨_, congrArg (fun b => Except.ok (b, _)) ?_, ?_⟩
        · rw [take_append, take_of_length_le (Nat.le_of_lt hout),
            take_append_of_le_length hlen]
        · rw [drop_append, drop_eq_nil_of_le (Nat.le_of_lt hout),
            drop_append_of_le_length hlen]
          rfl

theorem fill_short {n} {chunks : List (List UInt8)} {out} (h : (out ++ chunks.flatten).length < n) :
    ∃ e, fill n chunks out = .error e := by
  induction chunks generalizing out with
  | nil => exact ⟨_, rfl⟩
  | cons chunk rest ih =>
    rw [fill]
    rw [flatten_cons, ← append_assoc] at h
    have hlen : out.length + chunk.length < n := by
      simp only [length_append] at h
      omega
    split
    · next hnil =>
      rw [isEmpty_iff.mp hnil, append_nil] at h
      exact ih h
    · exact ih h

theorem source_delivers : Delivers source bytes where
  full := by
    intro n r h
    simp only [source, read]
    by_cases hle : n ≤ r.leftover.length
    · rw [if_pos (length_take_of_le hle).ge]
      refine ⟨_, congrArg (fun b => Except.ok (b, _)) (take_append_of_le_length hle).symm, ?_⟩
      exact (drop_append_of_le_length hle).symm
    · have hout : r.leftover.take n = r.leftover := take_of_length_le (by omega)
      rw [hout, if_neg hle]
      cases hdone : r.done with
      | true =>
        simp only [bytes, hdone, if_true, append_nil] at h
        exact absurd h hle
      | false =>
        simp only [bytes, hdone, if_false, Bool.false_eq_true] at h ⊢
        exact fill_full (Nat.lt_of_not_le hle) h
  short := by
    intro n r h
    have hle : ¬ n ≤ r.leftover.length := by
      simp only [bytes, length_append] at h
      omega
    have hout : r.leftover.take n = r.leftover := take_of_length_le (by omega)
    simp only [source, read, hout, if_neg hle]
    split
    · exact ⟨_, rfl⟩
    · next hdone =>
      simp only [bytes, hdone] at h
      exact fill_short h
  unread := by
    intro b r
    simp only [source, unread]
    split
    · next hnil => rw [isEmpty_iff.mp hnil, nil_append]
    · simp only [bytes, append_assoc]

end BufferedReader

/-! ## Frames -/

def maxFeedPayload : Nat := 16 * 1024 * 1024

structure FeedFrame where
  type : UInt8
  ptsMicro : UInt64
  seq : UInt32
  flags : UInt8
  pubWallMicro : Option UInt64
  payload : List UInt8
deriving DecidableEq

/-- Without the flag the wall is undefined. -/
def FeedFrame.of (f : Wire.FeedFrame) : FeedFrame :=
  ⟨f.typ, f.ptsMicro, f.seq, f.flags,
    if f.flags &&& flagPublishWall ≠ 0 then some f.pubWallMicro else none, f.payload⟩

/-- `none` if it throws. -/
def writeFeedFrame (type : UInt8) (ptsMicro : UInt64) (seq : UInt32) (flags : UInt8)
    (payload : List UInt8) : Option (List UInt8) :=
  if maxFeedPayload < payload.length then none
  else some (feedHeader type payload.length ptsMicro seq flags ++ payload)

/-- A string is the list of its characters. -/
def peekStreamHeader : Decoder ReadError (List Char) :=
  .read 1 fun b =>
    if b.getD 0 0 ≠ typeStreamHeader then .unread b (.ret [])
    else .read 3 fun lenBuf =>
      let length := beNat lenBuf
      if maxStreamHeader < length then
        .fail (.frameTooLarge (str "stream header") length maxStreamHeader)
      else if length = 0 then .fail .emptyStreamHeader
      -- `new TextDecoder().decode(nameBytes)`
      else .read length fun nameBytes => .ret (Utf8.decode nameBytes)

def readControlFrame : Decoder ReadError (UInt8 × List UInt8) :=
  .read 4 fun header =>
    let length := beNat (header.drop 1)
    if maxControlPayload < length then
      .fail (.frameTooLarge (str "control payload") length maxControlPayload)
    else if length = 0 then .ret (header.getD 0 0, [])
    else .read length fun payload => .ret (header.getD 0 0, payload)

def readPayload (length : Nat) (f : FeedFrame) : Decoder ReadError FeedFrame :=
  if 0 < length then .read length fun payload => .ret { f with payload := payload } else .ret f

def readFeedFrame : Decoder ReadError FeedFrame :=
  .read feedHeaderLen fun header =>
    let length := beNat ((header.drop 1).take 3)
    let f : FeedFrame :=
      { type := header.getD 0 0
        ptsMicro := (beNat ((header.drop 4).take 8)).toUInt64
        seq := (beNat ((header.drop 12).take 4)).toUInt32
        flags := header.getD 16 0
        pubWallMicro := none
        payload := [] }
    if maxFeedPayload < length then
      .fail (.frameTooLarge (str "feed payload") length maxFeedPayload)
    else if f.flags &&& flagPublishWall ≠ 0 then
      .read wallExtLen fun ext => readPayload length { f with pubWallMicro := some (beNat ext).toUInt64 }
    else readPayload length f

/-! ## The decoders agree -/

theorem peekStreamHeader_same : peekStreamHeader.Same (peekTrack.map Utf8.decode) := by
  refine .read (fun b hb => ?_)
  obtain ⟨x, rfl⟩ := length_eq_one_iff.mp hb
  by_cases hx : x = typeStreamHeader
  · simp only [getD_cons_zero, hx, ne_eq, not_true_eq_false, if_false]
    refine .read (fun lenBuf _ => ?_)
    by_cases hbig : maxStreamHeader < beNat lenBuf
    · simp only [if_pos hbig]
      exact .fail _ _
    · by_cases hzero : beNat lenBuf = 0
      · simp only [if_neg hbig, if_pos hzero]
        exact .fail _ _
      · simp only [if_neg hbig, if_neg hzero]
        refine .read (fun name hname => ?_)
        have hne : name ≠ [] := by
          rintro rfl
          exact hzero hname.symm
        simp only [Decoder.bind, if_neg hne]
        exact .ret _
  · simp only [getD_cons_zero, ne_eq, hx, not_false_eq_true, if_true, Decoder.bind]
    exact .unread (.ret [])

theorem readControlFrame_same : readControlFrame.Same Wire.readControlFrame := by
  refine .read (fun header _ => ?_)
  simp only
  split
  · exact .fail _ _
  · split
    · exact .ret _
    · exact .read (fun payload _ => .ret _)

theorem readPayload_same {n f g} (h : f = .of g) :
    (readPayload n f).Same ((Wire.readPayload n g).map .of) := by
  subst h
  unfold readPayload Wire.readPayload
  split
  · exact .read (fun payload _ => .ret _)
  · exact .ret _

/-- The caps differ, but no length field reaches either of them. -/
theorem readFeedFrame_same : readFeedFrame.Same (Wire.readFeedFrame.map .of) := by
  refine .read (fun header hlen => ?_)
  have hfield : ((header.drop 1).take 3).length = 3 := by
    simp only [length_take, length_drop, hlen, feedHeaderLen]
    omega
  have hfits := beNat_le _ hfield
  have hcap : ¬ maxFeedPayload < beNat ((header.drop 1).take 3) := by
    simp only [maxFeedPayload, Wire.maxFeedPayload] at hfits ⊢
    omega
  simp only [if_neg hcap, if_neg (Nat.not_lt.mpr hfits)]
  by_cases hflag : header.getD 16 0 &&& flagPublishWall = 0
  · simp only [hflag, ne_eq, not_true_eq_false, if_false]
    exact readPayload_same (by rw [FeedFrame.of, if_neg (not_not.mpr hflag)])
  · simp only [hflag, ne_eq, not_false_eq_true, if_true]
    exact .read (fun ext _ => readPayload_same (by rw [FeedFrame.of, if_pos hflag]))

/-- `ν` is the type of names. -/
inductive Call where
  | peekStreamHeader
  | readControlFrame
  | readFeedFrame
deriving DecidableEq

inductive Result (ν : Type) where
  | header (name : ν)
  | control (frame : UInt8 × List UInt8)
  | feed (frame : FeedFrame)
deriving DecidableEq

def Result.rename {ν μ : Type} (f : ν → μ) : Result ν → Result μ
  | .header name => .header (f name)
  | .control frame => .control frame
  | .feed frame => .feed frame

def Call.decoder : Call → Decoder ReadError (Result (List Char))
  | .peekStreamHeader => Framing.peekStreamHeader.map .header
  | .readControlFrame => Framing.readControlFrame.map .control
  | .readFeedFrame => Framing.readFeedFrame.map .feed

def Call.goDecoder : Call → Decoder Wire.ReadError (Result GoString)
  | .peekStreamHeader => peekTrack.map .header
  | .readControlFrame => Wire.readControlFrame.map .control
  | .readFeedFrame => (Wire.readFeedFrame.map .of).map .feed

theorem Call.decoder_same (c : Call) :
    c.decoder.Same (c.goDecoder.map (Result.rename Utf8.decode)) := by
  cases c with
  | peekStreamHeader =>
    have hsame := peekStreamHeader_same.map (@Result.header (List Char))
    rw [Decoder.map_map] at hsame
    rw [goDecoder, Decoder.map_map]
    exact hsame
  | readControlFrame =>
    rw [goDecoder, Decoder.map_map]
    exact readControlFrame_same.map _
  | readFeedFrame =>
    rw [goDecoder, Decoder.map_map]
    exact readFeedFrame_same.map _

theorem rename_eq_iff (results : List (Result GoString)) :
    (results.map (Result.rename Utf8.decode)).map (Result.rename Utf8.encode) = results ↔
      ∀ name, .header name ∈ results → Utf8.IsText name := by
  have hid : results.map id = results := map_id results
  rw [map_map]
  nth_rewrite 2 [← hid]
  rw [map_inj_left]
  constructor
  · intro h name hmem
    exact (Utf8.encode_decode_iff name).mp (Result.header.inj (h _ hmem))
  · intro h x hx
    cases x with
    | header name => exact congrArg Result.header ((Utf8.encode_decode_iff name).mpr (h name hx))
    | control _ => rfl
    | feed _ => rfl

/-- **Chunking.** Calls on a reader give what those in `wire/frame.go` give on the bytes,
    with the names decoded as text, up to the first that fails. The bytes of the names are
    the same exactly if these are UTF-8 without a byte order mark. -/
theorem decoding_ignores_chunks (chunks : List (List UInt8)) (calls : List Call) :
    let ts := Decoder.runAll BufferedReader.source (calls.map Call.decoder) ⟨[], false, chunks⟩
    let go := Decoder.runAll (flat eofError) (calls.map Call.goDecoder) chunks.flatten
    ts.1 = go.1.map (.rename Utf8.decode) ∧ ts.2.bytes = go.2 ∧
      (ts.1.map (.rename Utf8.encode) = go.1 ↔ ∀ name, .header name ∈ go.1 → Utf8.IsText name) := by
  have hsame : Forall₂ Decoder.Same (calls.map Call.decoder)
      ((calls.map Call.goDecoder).map (Decoder.map (Result.rename Utf8.decode))) := by
    rw [map_map, forall₂_map_left_iff, forall₂_map_right_iff]
    exact forall₂_same.mpr (fun c _ => c.decoder_same)
  have hbytes : BufferedReader.bytes ⟨[], false, chunks⟩ = id chunks.flatten := rfl
  have hagree := runAll_agree BufferedReader.source_delivers (flat_delivers eofError) hsame hbytes
  rw [Decoder.runAll_map] at hagree
  refine ⟨hagree.1, hagree.2, ?_⟩
  rw [hagree.1]
  exact rename_eq_iff _

/-- The name has other bytes. -/
theorem name_replaced :
    Decoder.runAll (flat eofError) [Call.goDecoder .peekStreamHeader]
        [typeStreamHeader, 0, 0, 1, 0xFF] = ([.header [0xFF]], []) ∧
      (Decoder.runAll BufferedReader.source [Call.decoder .peekStreamHeader]
        ⟨[], false, [[typeStreamHeader, 0, 0, 1, 0xFF]]⟩).1 = [.header [Utf8.replacement]] ∧
      Utf8.encode [Utf8.replacement] = [0xEF, 0xBF, 0xBD] := by
  decide

/-! ## What the SDK writes -/

/-- Both readers return it and leave what follows. -/
def ReadBack (bytes : List UInt8) (f : Wire.FeedFrame) : Prop :=
  ∀ rest, Wire.readFeedFrame.run (flat eofError) (bytes ++ rest) = .ok (f, rest) ∧
    ∀ r : BufferedReader, r.bytes = bytes ++ rest →
      ∃ r', readFeedFrame.run BufferedReader.source r = .ok (.of f, r') ∧ r'.bytes = rest

theorem readBack_of_go {bytes f}
    (h : ∀ rest, Wire.readFeedFrame.run (flat eofError) (bytes ++ rest) = .ok (f, rest)) :
    ReadBack bytes f := by
  intro rest
  refine ⟨h rest, fun r hr => ?_⟩
  apply run_of_flat BufferedReader.source_delivers readFeedFrame_same
  rw [hr, Decoder.run_map, h rest]
  rfl

variable {type flags : UInt8} {pts : UInt64} {seq : UInt32} {payload : List UInt8}

theorem feedHeader_readBack {n} (hn : n ≤ Wire.maxFeedPayload)
    (hflags : flags &&& flagPublishWall = 0) (hpay : payload.length = n) :
    ReadBack (feedHeader type n pts seq flags ++ payload) ⟨type, pts, seq, flags, 0, payload⟩ := by
  subst hpay
  refine readBack_of_go (fun rest => ?_)
  rw [append_assoc, readFeedFrame_header hn, if_neg (not_not.mpr hflags)]
  exact readPayload_append _ payload rest rfl

/-- One byte too long is length zero on the wire. -/
theorem feedHeader_wraps (h : payload.length = maxFeedPayload) :
    feedHeader type payload.length pts seq flags = feedHeader type 0 pts seq flags := by
  rw [h]
  rfl

/-- **SDK frames.** Server and SDK read back what the encoder writes exactly if the
    payload's length fits its field. -/
theorem sdk_frames_read_back {bytes} (hflags : flags &&& flagPublishWall = 0)
    (h : writeFeedFrame type pts seq flags payload = some bytes) :
    ReadBack bytes ⟨type, pts, seq, flags, 0, payload⟩ ↔
      payload.length ≤ Wire.maxFeedPayload := by
  obtain ⟨haccepted, hbytes⟩ := Option.ite_none_left_eq_some.mp h
  cases hbytes
  refine ⟨fun hread => ?_, fun hfits => feedHeader_readBack hfits hflags rfl⟩
  by_contra hlong
  have hfull : payload.length = maxFeedPayload := by
    simp only [maxFeedPayload, Wire.maxFeedPayload] at *
    omega
  have hempty : ReadBack (feedHeader type 0 pts seq flags ++ []) ⟨type, pts, seq, flags, 0, []⟩ :=
    feedHeader_readBack (Nat.zero_le _) hflags rfl
  -- the server reads an empty payload off the same bytes
  have hgo := (hread []).1
  rw [feedHeader_wraps hfull, append_nil] at hgo
  have hgo' := (hempty payload).1
  rw [append_nil, hgo] at hgo'
  injection hgo' with hpair
  injection hpair with _ hnil
  rw [← hnil] at hlong
  exact hlong (Nat.zero_le _)

theorem sdk_frames_read_back_one :
    ∃ bytes, writeFeedFrame typeKeyframe 7 1 flagKeyframe [1, 2, 3] = some bytes ∧
      ReadBack bytes ⟨typeKeyframe, 7, 1, flagKeyframe, 0, [1, 2, 3]⟩ :=
  ⟨_, rfl, (sdk_frames_read_back (by decide) rfl).mpr (by decide)⟩

/-- The largest payload the encoder accepts. -/
theorem sdk_frame_truncated :
    ∃ payload bytes, payload ≠ [] ∧ writeFeedFrame typeKeyframe 0 0 flagKeyframe payload = some bytes ∧
      Wire.readFeedFrame.run (flat eofError) bytes =
        .ok (⟨typeKeyframe, 0, 0, flagKeyframe, 0, []⟩, payload) ∧
      ∃ r, readFeedFrame.run BufferedReader.source ⟨[], false, [bytes]⟩ =
        .ok (⟨typeKeyframe, 0, 0, flagKeyframe, none, []⟩, r) ∧ r.bytes = payload := by
  obtain ⟨payload, hlen⟩ : ∃ payload : List UInt8, payload.length = maxFeedPayload :=
    ⟨replicate maxFeedPayload 0, length_replicate⟩
  have hread : ReadBack (feedHeader typeKeyframe 0 0 0 flagKeyframe ++ [])
      ⟨typeKeyframe, 0, 0, flagKeyframe, 0, []⟩ :=
    feedHeader_readBack (Nat.zero_le _) (by decide) rfl
  refine ⟨payload, _, ?_, if_neg hlen.not_gt, ?_, ?_⟩
  · rintro rfl
    cases hlen
  · rw [feedHeader_wraps hlen]
    exact (hread payload).1
  · rw [feedHeader_wraps hlen]
    exact (hread payload).2 _ (by simp [BufferedReader.bytes])

end QuicRTC.Sdk.Framing

import QuicRTC.Wire.Read

/-! # The Recording Format

`record/format.go`: a header, then frames with a length in front, then an end marker. The checks of
`decodeFrame` on the parts of a body are reads from that body.
-/

namespace QuicRTC.Record

open Wire ByteReader List

/-! ## Encoding -/

inductive RecordError where
  | eof
  | unexpectedEOF
  | corruptHeader
deriving DecidableEq

/-- `capturedAtMicros` is an `int64`, by its bits. -/
structure Frame where
  trackName : GoString
  kind : GoString
  ptsMicros : UInt64
  seq : UInt32
  keyframe : Bool
  discontinuity : Bool
  capturedAtMicros : UInt64
  payload : List UInt8
deriving DecidableEq

/-- `"QRTCREC\x00"` and the version. -/
def header : List UInt8 := str "QRTCREC" ++ [0] ++ be32 1

def eofMarker : List UInt8 := [0xFF, 0xFF, 0xFF, 0xFF]

def maxFrameLen : Nat := 67108864

def be16 (n : Nat) : List UInt8 := [(n >>> 8).toUInt8, n.toUInt8]

def flags (f : Frame) : UInt8 :=
  (if f.keyframe then flagKeyframe else 0) ||| (if f.discontinuity then flagDiscontinuity else 0)

/-- Between the kind and the payload. -/
def metadata (f : Frame) : List UInt8 :=
  be64 f.ptsMicros ++ be32 f.seq ++ [flags f] ++ be64 f.capturedAtMicros ++
    be32 f.payload.length.toUInt32

def body (f : Frame) : List UInt8 :=
  be16 f.trackName.length ++ (f.trackName ++ ([f.kind.length.toUInt8] ++ (f.kind ++
    (metadata f ++ f.payload))))

/-- `none` for `ErrTrackNameTooLong` and `ErrKindTooLong`. -/
def encodeFrame (f : Frame) : Option (List UInt8) :=
  if 0xFFFF < f.trackName.length then none
  else if 0xFF < f.kind.length then none
  else some (be32 (body f).length.toUInt32 ++ body f)

/-! ## Decoding -/

def decodeBody : Decoder RecordError Frame :=
  .read 2 fun trackLen => .read (beNat trackLen) fun trackName =>
  .read 1 fun kindLen => .read (beNat kindLen) fun kind =>
  .read 25 fun fixed => .read (beNat (fixed.drop 21)) fun payload =>
    .ret
      { trackName := trackName
        kind := kind
        ptsMicros := (beNat (fixed.take 8)).toUInt64
        seq := (beNat ((fixed.drop 8).take 4)).toUInt32
        keyframe := fixed.getD 12 0 &&& flagKeyframe != 0
        discontinuity := fixed.getD 12 0 &&& flagDiscontinuity != 0
        capturedAtMicros := (beNat ((fixed.drop 13).take 8)).toUInt64
        payload := payload }

def decodeFrame : Decoder RecordError Frame :=
  .read 4 fun lenBuf =>
    if lenBuf = eofMarker then .fail .eof
    else if maxFrameLen < beNat lenBuf then .fail .corruptHeader
    else .read (beNat lenBuf) fun body =>
      match decodeBody.run (flat (fun _ => .corruptHeader)) body with
      | .ok (f, _) => .ret f
      | .error e => .fail e

/-- The error of `io.ReadFull`. -/
def fileError (left : List UInt8) : RecordError := if left.isEmpty then .eof else .unexpectedEOF

def readHeader : Decoder RecordError Unit :=
  .read 12 fun hdr => if hdr = header then .ret () else .fail .corruptHeader

/-! ## What was encoded is decoded -/

/-- The encoder accepts it and the decoder does not refuse it. -/
structure Frame.Fits (f : Frame) : Prop where
  trackName : f.trackName.length ≤ 0xFFFF
  kind : f.kind.length ≤ 0xFF
  body : (body f).length ≤ maxFrameLen

theorem be16_length (n : Nat) : (be16 n).length = 2 := rfl

theorem be32_length (v : UInt32) : (be32 v).length = 4 := rfl

theorem metadata_length (f : Frame) : (metadata f).length = 25 := rfl

theorem beNat_be16 {n} (hn : n ≤ 0xFFFF) : beNat (be16 n) = n := by
  simp only [beNat, be16, foldl_cons, foldl_nil, Nat.toUInt8, UInt8.toNat_ofNat',
    Nat.shiftRight_eq_div_pow]
  omega

theorem beNat_length {n} (hn : n ≤ maxFrameLen) : beNat (be32 n.toUInt32) = n := by
  simp only [maxFrameLen] at hn
  have hv : n.toUInt32.toNat = n := by
    simp only [Nat.toUInt32, UInt32.toNat_ofNat']
    omega
  simp only [beNat, be32, foldl_cons, foldl_nil, UInt32.toNat_toUInt8,
    UInt32.toNat_shiftRight, Nat.shiftRight_eq_div_pow, hv]
  simp
  omega

theorem flags_spec (f : Frame) : (flags f &&& flagKeyframe != 0) = f.keyframe ∧
    (flags f &&& flagDiscontinuity != 0) = f.discontinuity := by
  unfold flags
  cases f.keyframe <;> cases f.discontinuity <;> decide

theorem payload_le_body (f : Frame) : f.payload.length ≤ (body f).length := by
  simp only [body, length_append]
  omega

theorem decodeBody_body {f : Frame} (hf : f.Fits) :
    decodeBody.run (flat (fun _ => .corruptHeader)) (body f) = .ok (f, []) := by
  have hkind : beNat [f.kind.length.toUInt8] = f.kind.length := by
    have := hf.kind
    simp only [beNat, foldl_cons, foldl_nil, Nat.toUInt8, UInt8.toNat_ofNat']
    omega
  have hpay : beNat ((metadata f).drop 21) = f.payload.length :=
    beNat_length ((payload_le_body f).trans hf.body)
  have hpts : (beNat ((metadata f).take 8)).toUInt64 = f.ptsMicros := beNat_be64 _
  have hseq : (beNat (((metadata f).drop 8).take 4)).toUInt32 = f.seq := beNat_be32 _
  have hflags : (metadata f).getD 12 0 = flags f := rfl
  have hcap : (beNat (((metadata f).drop 13).take 8)).toUInt64 = f.capturedAtMicros := beNat_be64 _
  rw [decodeBody, body, run_read_append (be16_length _),
    run_read_append (beNat_be16 hf.trackName).symm, run_read_append (length_singleton),
    run_read_append hkind.symm, run_read_append (metadata_length f)]
  rw [← append_nil f.payload]
  rw [run_read_append hpay.symm, Decoder.run, hpts, hseq, hflags, (flags_spec f).1, (flags_spec f).2, hcap]

theorem decodeFrame_encoded {f : Frame} (hf : f.Fits) {bytes} (h : encodeFrame f = some bytes)
    (rest : List UInt8) : decodeFrame.run (flat fileError) (bytes ++ rest) = .ok (f, rest) := by
  rw [encodeFrame, if_neg (Nat.not_lt.mpr hf.trackName), if_neg (Nat.not_lt.mpr hf.kind)] at h
  cases h
  have hlen := beNat_length hf.body
  have hmark : be32 (body f).length.toUInt32 ≠ eofMarker := by
    intro heq
    rw [heq] at hlen
    have hbody := hf.body
    rw [← hlen] at hbody
    exact absurd hbody (by decide)
  rw [append_assoc, decodeFrame, run_read_append (be32_length _), if_neg hmark, hlen,
    if_neg (Nat.not_lt.mpr hf.body), run_read_append rfl, decodeBody_body hf]
  rfl

end QuicRTC.Record

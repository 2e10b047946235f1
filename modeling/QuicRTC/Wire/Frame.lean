import Mathlib.Data.List.Basic

/-! # Wire Frames

`wire/frame.go`: frame types, flags, and the encoders of one feed frame, as the bytes they hand to
the stream; `none` is `ErrFrameTooLarge`. The datagram envelope is that of `wire/datagram.go`.
-/

namespace QuicRTC.Wire

/-! ## Constants -/

def typeHello : UInt8 := 0x01
def typeSDP : UInt8 := 0x02
def typeError : UInt8 := 0x05
def typeClose : UInt8 := 0x06
def typeAnnounce : UInt8 := 0x0a
def typeUnannounce : UInt8 := 0x0c
def typeKeyframe : UInt8 := 0x20
def typePFrame : UInt8 := 0x21

def flagKeyframe : UInt8 := 1
def flagDiscontinuity : UInt8 := 2
def flagPublishWall : UInt8 := 4

/-- Size of the publish-wall extension after the fixed header. -/
def wallExtLen : Nat := 8

def maxFeedPayload : Nat := 0xFFFFFF

def feedHeaderLen : Nat := 17

/-! ## Feed frames -/

def be24 (n : Nat) : List UInt8 :=
  [(n >>> 16).toUInt8, (n >>> 8).toUInt8, n.toUInt8]

def be32 (v : UInt32) : List UInt8 :=
  [(v >>> 24).toUInt8, (v >>> 16).toUInt8, (v >>> 8).toUInt8, v.toUInt8]

def be64 (v : UInt64) : List UInt8 :=
  [(v >>> 56).toUInt8, (v >>> 48).toUInt8, (v >>> 40).toUInt8, (v >>> 32).toUInt8,
   (v >>> 24).toUInt8, (v >>> 16).toUInt8, (v >>> 8).toUInt8, v.toUInt8]

def feedHeader (typ : UInt8) (payloadLen : Nat) (ptsMicro : UInt64) (seq : UInt32)
    (flags : UInt8) : List UInt8 :=
  typ :: (be24 payloadLen ++ be64 ptsMicro ++ be32 seq ++ [flags])

def writeFeedFrame (typ : UInt8) (ptsMicro : UInt64) (seq : UInt32) (flags : UInt8)
    (payload : List UInt8) : Option (List UInt8) :=
  if maxFeedPayload < payload.length then none
  else some (feedHeader typ payload.length ptsMicro seq flags ++ payload)

/-- The flag is set and the extension inserted, whatever the reading. -/
def writeFeedFrameWall (typ : UInt8) (ptsMicro : UInt64) (seq : UInt32) (flags : UInt8)
    (pubWallMicro : UInt64) (payload : List UInt8) : Option (List UInt8) :=
  if maxFeedPayload < payload.length then none
  else some (feedHeader typ payload.length ptsMicro seq (flags ||| flagPublishWall)
    ++ be64 pubWallMicro ++ payload)

structure FeedFrame where
  typ : UInt8
  ptsMicro : UInt64
  seq : UInt32
  flags : UInt8
  pubWallMicro : UInt64
  payload : List UInt8
  deriving DecidableEq

def FeedFrame.isKeyframe (f : FeedFrame) : Bool :=
  f.typ == typeKeyframe || (f.flags &&& flagKeyframe) != 0

@[simp] theorem feedHeader_length (typ : UInt8) (n : Nat) (pts : UInt64) (seq : UInt32)
    (flags : UInt8) : (feedHeader typ n pts seq flags).length = feedHeaderLen := rfl

@[simp] theorem be64_length (v : UInt64) : (be64 v).length = wallExtLen := rfl

/-! ## The writes of an encoder -/

def headThenBody (head body : List UInt8) : List (List UInt8) :=
  head :: if body.isEmpty then [] else [body]

@[simp] theorem headThenBody_flatten (head body : List UInt8) :
    (headThenBody head body).flatten = head ++ body := by
  cases body with
  | nil => rfl
  | cons b rest => simp [headThenBody]

def typeStreamHeader : UInt8 := 0x23

def maxStreamHeader : Nat := 1024

def writeStreamHeader (trackName : List UInt8) : Option (List (List UInt8)) :=
  if maxStreamHeader < trackName.length then none
  else some (headThenBody (typeStreamHeader :: be24 trackName.length) trackName)

def feedFrameWrites (typ : UInt8) (ptsMicro : UInt64) (seq : UInt32) (flags : UInt8)
    (payload : List UInt8) : Option (List (List UInt8)) :=
  if maxFeedPayload < payload.length then none
  else some (headThenBody (feedHeader typ payload.length ptsMicro seq flags) payload)

def feedFrameWallWrites (typ : UInt8) (ptsMicro : UInt64) (seq : UInt32) (flags : UInt8)
    (pubWallMicro : UInt64) (payload : List UInt8) : Option (List (List UInt8)) :=
  if maxFeedPayload < payload.length then none
  else some (headThenBody (feedHeader typ payload.length ptsMicro seq (flags ||| flagPublishWall)
    ++ be64 pubWallMicro) payload)

theorem feedFrameWrites_flatten (typ : UInt8) (pts : UInt64) (seq : UInt32) (flags : UInt8)
    (payload : List UInt8) :
    (feedFrameWrites typ pts seq flags payload).map List.flatten =
      writeFeedFrame typ pts seq flags payload := by
  unfold feedFrameWrites writeFeedFrame
  split
  · rfl
  · rw [Option.map_some, headThenBody_flatten]

theorem feedFrameWallWrites_flatten (typ : UInt8) (pts : UInt64) (seq : UInt32) (flags : UInt8)
    (wall : UInt64) (payload : List UInt8) :
    (feedFrameWallWrites typ pts seq flags wall payload).map List.flatten =
      writeFeedFrameWall typ pts seq flags wall payload := by
  unfold feedFrameWallWrites writeFeedFrameWall
  split
  · rfl
  · rw [Option.map_some, headThenBody_flatten]

/-! ## Datagrams -/

def typeDatagramAU : UInt8 := 0x24

def datagramHeaderLen : Nat := 4

def maxDatagramPayload : Nat := 1100

def encodeDatagram (trackID : UInt8) (seq : UInt16) (payload : List UInt8) : Option (List UInt8) :=
  if maxDatagramPayload < payload.length then none
  else some ([typeDatagramAU, trackID, (seq >>> 8).toUInt8, seq.toUInt8] ++ payload)

theorem encodeDatagram_length {trackID seq payload datagram}
    (h : encodeDatagram trackID seq payload = some datagram) :
    datagram.length ≤ datagramHeaderLen + maxDatagramPayload := by
  unfold encodeDatagram at h
  split at h
  · cases h
  · next hlen =>
    cases h
    rw [List.length_append]
    exact Nat.add_le_add_left (Nat.le_of_not_lt hlen) _

end QuicRTC.Wire

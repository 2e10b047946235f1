import QuicRTC.Client.Client
import QuicRTC.Feed.Frame
import QuicRTC.Session.Inbound

/-! # From Streams to Tracks

`drainFeed` and `drainBidi` of the client and `drainInboundStream` of the server read a stream
through `io.ReadFull`, with one-byte push-back readers on top. However the bytes come, a stream of a
named track ends up on the queue of its track. A stream without a header is one of `primary`.
-/

namespace QuicRTC.Demux

open Wire ByteReader Function List Option

/-! ## Readers -/

/-- Bytes in pieces, or a `peekedReader`. -/
inductive GoReader where
  | transport (chunks : List (List UInt8))
  | peeked (first : UInt8) (consumed : Bool) (rest : GoReader)

namespace GoReader

/-- Into a buffer of `n` bytes; `none` is `io.EOF`. -/
def read (n : Nat) : GoReader → Option (List UInt8 × GoReader)
  | .transport [] => none
  | .transport (c :: cs) =>
    some (c.take n, .transport (if c.length ≤ n then cs else c.drop n :: cs))
  | .peeked b false r => if n = 0 then some ([], .peeked b false r) else some ([b], .peeked b true r)
  | .peeked b true r => (r.read n).map (fun p => (p.1, .peeked b true p.2))

/-- `fuel` bounds the number of reads. -/
def fill (n : Nat) : Nat → GoReader → List UInt8 → Except ReadError (List UInt8 × GoReader)
  | 0, _, out => .error (eofError out)
  | fuel + 1, r, out =>
    if n ≤ out.length then .ok (out, r)
    else
      match r.read (n - out.length) with
      | none => .error (eofError out)
      | some (b, r') => fill n fuel r' (out ++ b)

def bytes : GoReader → List UInt8
  | .transport cs => cs.flatten
  | .peeked b c r => (if c then [] else [b]) ++ r.bytes

/-- A bound on the number of reads. -/
def size : GoReader → Nat
  | .transport cs => cs.flatten.length + cs.length
  | .peeked _ c r => (if c then 0 else 1) + r.size

def source : Source GoReader ReadError where
  readFull n r := fill n (r.size + 1) r []
  unread b r := b.foldr (fun x r => .peeked x false r) r

structure Gives (n : Nat) (r : GoReader) (b : List UInt8) (r' : GoReader) : Prop where
  bytes : r.bytes = b ++ r'.bytes
  fits : b.length ≤ n
  size : r'.size < r.size

theorem read_spec {n} (hn : 0 < n) (r : GoReader) :
    (r.read n = none ∧ r.bytes = []) ∨ ∃ b r', r.read n = some (b, r') ∧ Gives n r b r' := by
  induction r with
  | transport cs =>
    cases cs with
    | nil => exact .inl ⟨rfl, rfl⟩
    | cons c cs =>
      refine .inr ⟨_, _, rfl, ?_, length_take_le n c, ?_⟩
      · split
        · next hle => rw [take_of_length_le hle]; rfl
        · simp only [bytes, flatten_cons, ← append_assoc, take_append_drop]
      · split <;> simp only [size, flatten_cons, length_append, length_cons,
          length_drop] <;> omega
  | peeked b consumed r ih =>
    cases consumed with
    | false =>
      refine .inr ⟨[b], .peeked b true r, if_neg (Nat.ne_of_gt hn), rfl, hn, ?_⟩
      simp [size]
    | true =>
      rcases ih with ⟨hread, hbytes⟩ | ⟨b', r', hread, hgives⟩
      · exact .inl ⟨by simp [read, hread], hbytes⟩
      · refine .inr ⟨b', .peeked b true r', by simp [read, hread], hgives.bytes, hgives.fits, ?_⟩
        exact Nat.add_lt_add_left hgives.size 0

theorem fill_spec {n fuel} {r : GoReader} {out : List UInt8} (hfuel : r.size < fuel)
    (hout : out.length ≤ n) :
    (n ≤ (out ++ r.bytes).length → ∃ r', fill n fuel r out = .ok ((out ++ r.bytes).take n, r') ∧
      r'.bytes = (out ++ r.bytes).drop n) ∧
    ((out ++ r.bytes).length < n → ∃ e, fill n fuel r out = .error e) := by
  -- on the fuel: a read gives bytes and leaves a smaller reader
  induction fuel generalizing r out with
  | zero => omega
  | succ fuel ih =>
    rw [fill]
    split
    · next hfull =>
      obtain rfl : out.length = n := by omega
      refine ⟨fun _ => ⟨r, by rw [take_left], by rw [drop_left]⟩, fun hlt => ?_⟩
      rw [length_append] at hlt
      omega
    · next hmore =>
      rcases read_spec (Nat.sub_pos_of_lt (Nat.lt_of_not_le hmore)) r with
        ⟨hread, hbytes⟩ | ⟨b, r', hread, hgives⟩
      · rw [hread, hbytes, append_nil]
        exact ⟨fun hle => absurd hle hmore, fun _ => ⟨_, rfl⟩⟩
      · rw [hread, hgives.bytes, ← append_assoc]
        refine ih (by have := hgives.size; omega) ?_
        have hfits := hgives.fits
        rw [length_append]
        omega

theorem source_delivers : Delivers source bytes where
  full := fun n r h => (fill_spec (Nat.lt_succ_self r.size) (Nat.zero_le n)).1 h
  short := fun n r h => (fill_spec (Nat.lt_succ_self r.size) (Nat.zero_le n)).2 h
  unread := fun b r => by
    induction b with
    | nil => rfl
    | cons x b ih => exact congrArg (cons x) ih

end GoReader

/-! ## Drains -/

abbrev Queues := GoString → List AccessUnit

/-- `drainFeed` and `drainBidi` of an open client, for `n` frames. -/
def drainFeed (queues : Queues) (stream : GoReader) (n : Nat) : Queues :=
  match peekTrack.run GoReader.source stream with
  | .error _ => queues
  | .ok (header, src) =>
    let track := Client.streamTrack header
    update queues track (queues track ++
      (Decoder.runAll GoReader.source (List.replicate n readFeedFrame) src).1.map Client.feedUnit)

def readInboundFrame : Decoder ReadError FeedFrame := .read 1 fun first => .unread first readFeedFrame

def keep (kept : Nat → Bool) (l : List AccessUnit) : List AccessUnit :=
  (l.zipIdx.filter (fun p => kept p.2)).map Prod.fst

/-- For `n` frames. `passes`: the gate and the cap let the track through; `kept`: units
    within the rate limit that find room in the queue. -/
def drainInboundStream (passes : GoString → Bool) (kept : Nat → Bool) (queues : Queues)
    (stream : GoReader) (n : Nat) : Queues :=
  match peekTrack.run GoReader.source stream with
  | .error _ => queues
  | .ok (header, src) =>
    let track := Inbound.headerTrack header
    if !passes track then queues
    else
      update queues track (queues track ++ keep kept
        ((Decoder.runAll GoReader.source (List.replicate n readInboundFrame) src).1.map
          Inbound.inboundUnit))

/-! ## What a pump writes -/

def streamHeader (cfg : FeedConfig) : Option (List UInt8) :=
  if cfg.trackName = [] then some [] else (writeStreamHeader cfg.trackName).map List.flatten

/-- The header and the complete frames of units; anything may follow. -/
def Carries (cfg : FeedConfig) (units : List (WallClock × AccessUnit)) (stream : List UInt8) : Prop :=
  ∃ header frames rest, streamHeader cfg = some header ∧
    List.Forall₂ (fun u frame => pumpFrame cfg u.1 u.2 = some frame) units frames ∧
    stream = header ++ (frames.flatten ++ rest)

def content (au : AccessUnit) : List UInt8 × UInt64 × UInt32 × Bool :=
  (au.bytes, au.ptsMicro, au.seq, au.discontinuity)

structure FrameOf (f : FeedFrame) (au : AccessUnit) : Prop where
  encodable : f.Encodable
  client : content (Client.feedUnit f.stamped) = content au
  server : content (Inbound.inboundUnit f.stamped) = content au

theorem or_wall_and_discontinuity (keyframe discontinuity : Bool) :
    (frameFlags keyframe discontinuity &&& flagDiscontinuity != 0) = discontinuity ∧
      ((frameFlags keyframe discontinuity ||| flagPublishWall) &&& flagDiscontinuity != 0) =
        discontinuity := by
  revert keyframe discontinuity
  decide

variable {cfg : FeedConfig}

theorem exists_frameOf {now au frame} (h : pumpFrame cfg now au = some frame) :
    ∃ f, feedFrameBytes f = frame ∧ FrameOf f au := by
  obtain ⟨typ, keyframe, heq⟩ := pumpFrame_eq cfg now au (fallback_of_pumpFrame h)
  rw [heq] at h
  obtain ⟨hfits, hframe⟩ := ite_none_left_eq_some.mp h
  refine ⟨⟨typ, au.ptsMicro, au.seq, frameFlags keyframe au.discontinuity, pubWall cfg now au,
    au.bytes⟩, some.inj hframe, ⟨frameFlags_and_wall .., Nat.le_of_not_lt hfits⟩, ?_, ?_⟩
  all_goals
    simp only [content, Client.feedUnit, Inbound.inboundUnit, FeedFrame.stamped]
    split
    · rw [(or_wall_and_discontinuity keyframe au.discontinuity).2]
    · rw [(or_wall_and_discontinuity keyframe au.discontinuity).1]

theorem exists_framesOf {units : List (WallClock × AccessUnit)} {frames : List (List UInt8)}
    (h : List.Forall₂ (fun u frame => pumpFrame cfg u.1 u.2 = some frame) units frames) :
    ∃ fs : List FeedFrame, fs.flatMap feedFrameBytes = frames.flatten ∧
      (∀ f ∈ fs, f.Encodable) ∧ List.Forall₂ (fun f u => FrameOf f u.2) fs units := by
  induction h with
  | nil => exact ⟨[], rfl, nofun, .nil⟩
  | cons hone _ ih =>
    obtain ⟨f, hbytes, hf⟩ := exists_frameOf hone
    obtain ⟨fs, hrest, hfits, hall⟩ := ih
    exact ⟨f :: fs, by rw [flatMap_cons, flatten_cons, hbytes, hrest],
      forall_mem_cons.mpr ⟨hf.encodable, hfits⟩, .cons hf hall⟩

theorem peekTrack_header (hname : cfg.trackName ≠ []) {header} (h : streamHeader cfg = some header)
    (rest : List UInt8) :
    peekTrack.run (flat eofError) (header ++ rest) = .ok (cfg.trackName, rest) := by
  rw [streamHeader, if_neg hname] at h
  obtain ⟨ws, hws, rfl⟩ := map_eq_some_iff.mp h
  obtain ⟨hlen, hws⟩ := ite_none_left_eq_some.mp hws
  cases hws
  have hshort : cfg.trackName.length ≤ maxStreamHeader := Nat.le_of_not_lt hlen
  have hnat : beNat (be24 cfg.trackName.length) = cfg.trackName.length :=
    beNat_be24 (hshort.trans (by decide))
  have hpos : cfg.trackName.length ≠ 0 := fun hzero => hname (eq_nil_of_length_eq_zero hzero)
  rw [headThenBody_flatten, append_assoc, cons_append, ← singleton_append,
    peekTrack, peekStreamHeader, Decoder.bind, run_read_append (by rfl)]
  rw [if_neg (not_not.mpr (show [typeStreamHeader].getD 0 0 = typeStreamHeader from rfl)),
    Decoder.bind, run_read_append (by rfl), hnat, if_neg hlen, if_neg hpos, Decoder.bind,
    run_read_append rfl]
  simp only [Decoder.bind, if_neg hname]
  rfl

theorem readInboundFrame_encoded {f : FeedFrame} (hf : f.Encodable) (rest : List UInt8) :
    readInboundFrame.run (flat eofError) (feedFrameBytes f ++ rest) = .ok (f.stamped, rest) := by
  have hread := readFeedFrame_feedFrameBytes hf rest
  obtain ⟨b, l, hbytes⟩ := exists_cons_of_ne_nil (appendFeedFrame_ne_nil f.typ f.ptsMicro f.seq
    f.flags f.pubWallMicro f.payload)
  rw [feedFrameBytes, hbytes, cons_append, ← singleton_append] at hread ⊢
  exact hread

/-! ## Routing -/

theorem drained {units : List (WallClock × AccessUnit)} {r : GoReader} (hname : cfg.trackName ≠ [])
    (h : Carries cfg units r.bytes) {d : Decoder ReadError FeedFrame}
    (hd : ∀ f : FeedFrame, f.Encodable → ∀ rest,
      d.run (flat eofError) (feedFrameBytes f ++ rest) = .ok (f.stamped, rest)) (n : Nat) :
    ∃ src fs more, peekTrack.run GoReader.source r = .ok (cfg.trackName, src) ∧
      (Decoder.runAll GoReader.source (List.replicate (units.length + n) d) src).1 =
        fs.map FeedFrame.stamped ++ more ∧ List.Forall₂ (fun f u => FrameOf f u.2) fs units := by
  obtain ⟨header, frames, rest, hheader, hframes, hbytes⟩ := h
  obtain ⟨fs, hflat, hfits, hall⟩ := exists_framesOf hframes
  have hpeek := peekTrack_header hname hheader (frames.flatten ++ rest)
  rw [← hbytes] at hpeek
  obtain ⟨src, hsrc, hrest⟩ := run_of_flat GoReader.source_delivers (Decoder.Same.refl _) hpeek
  have hagree := (runAll_agree GoReader.source_delivers (flat_delivers eofError)
    (forall₂_same.mpr (fun x _ => Decoder.Same.refl x)
      : Forall₂ _ (replicate (units.length + n) d) _) hrest).1
  have hrun := runAll_encoded feedFrameBytes FeedFrame.stamped (fun f hf => hd f (hfits f hf)) rest
    (replicate n d)
  rw [hflat, ← replicate_add, hall.length_eq] at hrun
  simp only [hrun] at hagree
  exact ⟨src, fs, _, hsrc, hagree, hall⟩

/-- **Demultiplexing.** However a stream of a named track is split into reads, the client
    sends its units to the queue of the track and to no other; so does the server, for a
    track it lets through, with the units it keeps. -/
theorem streams_demultiplexed {cfg : FeedConfig} {units : List (WallClock × AccessUnit)}
    {r : GoReader} (hname : cfg.trackName ≠ []) (h : Carries cfg units r.bytes) (queues : Queues)
    (n : Nat) :
    (∃ got, (got.take units.length).map content = units.map (fun u => content u.2) ∧
      drainFeed queues r (units.length + n) =
        update queues cfg.trackName (queues cfg.trackName ++ got)) ∧
    ∀ passes kept, passes cfg.trackName = true →
      ∃ got, (got.take units.length).map content = units.map (fun u => content u.2) ∧
        drainInboundStream passes kept queues r (units.length + n) =
          update queues cfg.trackName (queues cfg.trackName ++ keep kept got) := by
  have hcontent : ∀ {unit : FeedFrame → AccessUnit} {fs : List FeedFrame} (more : List FeedFrame),
      Forall₂ (fun f u => content (unit f.stamped) = content u.2) fs units →
      (((fs.map FeedFrame.stamped ++ more).map unit).take units.length).map content =
        units.map (fun u => content u.2) := by
    intro unit fs more hall
    rw [map_append, take_append_of_le_length (by simp [hall.length_eq]),
      take_of_length_le (by simp [hall.length_eq])]
    simp only [List.map_map]
    exact forall₂_eq_eq_eq ▸ forall₂_map_left_iff.mpr (forall₂_map_right_iff.mpr hall)
  refine ⟨?_, fun passes kept hpass => ?_⟩
  · obtain ⟨src, fs, more, hpeek, hrun, hall⟩ :=
      drained hname h (fun f hf => readFeedFrame_feedFrameBytes hf) n
    refine ⟨_, hcontent more (hall.imp fun _ _ hf => hf.client), ?_⟩
    simp only [drainFeed, hpeek, Client.streamTrack, if_neg hname, hrun]
  · obtain ⟨src, fs, more, hpeek, hrun, hall⟩ :=
      drained hname h (fun f hf => readInboundFrame_encoded hf) n
    refine ⟨_, hcontent more (hall.imp fun _ _ hf => hf.server), ?_⟩
    simp only [drainInboundStream, hpeek, Inbound.headerTrack, if_neg hname, hpass, hrun]
    rfl

def camera : FeedConfig := { FeedConfig.zero with trackName := str "cam" }

def cameraFrame : List UInt8 := appendFeedFrame typeKeyframe 0 1 flagKeyframe 0 []

def cameraStream : GoReader :=
  .transport ((typeStreamHeader :: be24 3 ++ str "cam" ++ cameraFrame).map (fun b => [b]))

theorem streams_demultiplexed_camera :
    ∃ got, (got.take 1).map content = [content (.bare true 1)] ∧
      drainFeed (fun _ => []) cameraStream 1 = update (fun _ => []) (str "cam") ([] ++ got) := by
  have hcarries : Carries camera [(firstTick, .bare true 1)] cameraStream.bytes :=
    ⟨typeStreamHeader :: be24 3 ++ str "cam", [cameraFrame], [], by decide, .cons (by decide) .nil,
      by decide⟩
  exact (streams_demultiplexed (by decide) hcarries (fun _ => []) 0).1

/-- A track without a name goes to `primary`, and the server drops units of a named track
    when its queue is full. -/
theorem unnamed_stream_misrouted :
    pumpFrame .zero firstTick (.bare true 1) = some cameraFrame ∧
    drainFeed (fun _ => []) (.transport [cameraFrame]) 1 [] = [] ∧
    (drainFeed (fun _ => []) (.transport [cameraFrame]) 1 (str "primary")).map content =
      [content (.bare true 1)] ∧
    drainInboundStream (fun _ => true) (fun _ => false) (fun _ => []) cameraStream 1 (str "cam") =
      [] := by
  refine ⟨by decide, by decide +kernel, by decide +kernel, by decide +kernel⟩

end QuicRTC.Demux

import QuicRTC.Feed.Frame

/-! # What Becomes of a Unit

`runStreamLowLatency` and `runDatagramOrStream` finish one unit before they take the next. Their
turns are given by what they leave on a stream or in a datagram and by the hooks they call.

The first loop opens its stream up front. If that fails a drop is reported, though there is no unit;
and so is a unit that is complete on its stream if the write reports an error after that.
-/

namespace QuicRTC

open Wire ByteReader List

/-! ## The loops -/

/-- What a loop does, in order. Streams are numbered as they are opened. -/
inductive PumpAct where
  | opened (k : Nat)
  | header (k : Nat)
  | frame (k : Nat) (bytes : List UInt8)
  /-- A write failed after the stream took these bytes. -/
  | part (k : Nat) (bytes : List UInt8)
  /-- `CancelWrite`. -/
  | cancelled (k : Nat)
  | datagram (bytes : List UInt8)
  | onStreamOpened
  | onWriteAttempt
  | onWriteBytes (n : Nat)
  | onFallback (reason : GoString)
  | onAUDropped (reason : GoString)
deriving DecidableEq

structure TurnFate where
  now : WallClock
  sends : Bool
  opens : Bool
  header : Bool
  writes : WriteResult

abbrev Fated := AccessUnit × TurnFate

/-- The variable of a loop, and the number of streams opened. -/
structure StreamVar where
  current : Option Nat
  opened : Nat
deriving DecidableEq

/-- `openStream` and `openFallback`, called where the variable is nil. -/
def StreamVar.ensure (cfg : FeedConfig) (v : StreamVar) (f : TurnFate) : StreamVar × List PumpAct :=
  match v.current with
  | some _ => (v, [])
  | none =>
    if !f.opens then (v, [])
    else if cfg.trackName = [] then
      (⟨some v.opened, v.opened + 1⟩, [.opened v.opened, .onStreamOpened])
    else if f.header && (writeStreamHeader cfg.trackName).isSome then
      (⟨some v.opened, v.opened + 1⟩, [.opened v.opened, .header v.opened, .onStreamOpened])
    else (⟨none, v.opened + 1⟩, [.opened v.opened, .cancelled v.opened])

/-- `frame` is `none` if it is refused, `written` are the calls after `OnWriteBytes`. -/
def streamTurn (cfg : FeedConfig) (v : StreamVar) (u : Fated)
    (frame : Option (List UInt8)) (openFailed writeFailed : GoString) (written : List PumpAct) :
    StreamVar × List PumpAct :=
  let (v, acts) := v.ensure cfg u.2
  match v.current, frame, u.2.writes with
  | none, _, _ => (v, acts ++ [.onAUDropped openFailed])
  | some k, none, _ => ({ v with current := none }, acts ++ [.cancelled k, .onAUDropped writeFailed])
  | some k, some bytes, .ok =>
    (v, acts ++ .frame k bytes :: .onWriteBytes (feedHeaderLen + u.1.bytes.length) :: written)
  -- The error may come with all bytes accepted.
  | some k, some bytes, .failed n =>
    ({ v with current := none },
      acts ++ [.part k (bytes.take n), .cancelled k, .onAUDropped writeFailed])

def lowLatencyFrame (cfg : FeedConfig) (u : Fated) : Option (List UInt8) :=
  (writeFrame cfg typeKeyframe u.1.ptsMicro u.1.seq (frameFlags true u.1.discontinuity)
    (pubWall cfg u.2.now u.1) u.1.bytes).map List.flatten

def lowLatencyTurn (cfg : FeedConfig) (v : StreamVar) (u : Fated) :
    StreamVar × List PumpAct :=
  let (v, acts) := streamTurn cfg v u (lowLatencyFrame cfg u) (str "stream_open_failed")
    (str "write_deadline") []
  (v, .onWriteAttempt :: acts)

def fallbackFrame (cfg : FeedConfig) (u : Fated) : Option (List UInt8) :=
  writeFeedFramePooled typeKeyframe u.1.ptsMicro u.1.seq (frameFlags true u.1.discontinuity)
    (pubWall cfg u.2.now u.1) u.1.bytes

def fallbackOrDrop (cfg : FeedConfig) (v : StreamVar) (u : Fated)
    (dropReason : GoString) : StreamVar × List PumpAct :=
  if !cfg.fallbackOpener then (v, [.onAUDropped dropReason])
  else streamTurn cfg v u (fallbackFrame cfg u) (str "fallback_open_failed")
    (str "fallback_write_failed") [.onFallback dropReason]

/-- With the number of the datagram. -/
def datagramTurn (cfg : FeedConfig) (s : StreamVar × UInt16) (u : Fated) :
    (StreamVar × UInt16) × List PumpAct :=
  let (v, acts) :=
    match encodeDatagram cfg.trackID s.2 u.1.bytes with
    | none => fallbackOrDrop cfg s.1 u (str "datagram_too_large")
    | some encoded =>
      if u.2.sends then (s.1, [.datagram encoded, .onWriteBytes encoded.length])
      else fallbackOrDrop cfg s.1 u (str "send_failed")
  ((v, s.2 + 1), .onWriteAttempt :: acts)

def turns {S : Type} (turn : S → Fated → S × List PumpAct) :
    S → List Fated → List (List PumpAct)
  | _, [] => []
  | s, u :: us => (turn s u).2 :: turns turn (turn s u).1 us

/-- The acts before the first unit, and of each turn. -/
def runStreamLowLatency (cfg : FeedConfig) (up : TurnFate) (us : List Fated) :
    List PumpAct × List (List PumpAct) :=
  let (v, acts) := StreamVar.ensure cfg ⟨none, 0⟩ up
  (if v.current = none then acts ++ [.onAUDropped (str "stream_open_failed")] else acts,
    turns (lowLatencyTurn cfg) v us)

/-- `none` is `ErrDatagramSenderNil`. -/
def runDatagramOrStream (cfg : FeedConfig) (us : List Fated) :
    Option (List (List PumpAct)) :=
  if !cfg.datagramSender then none else some (turns (datagramTurn cfg) (⟨none, 0⟩, 0) us)

/-! ## Streams -/

/-- At most one stream is open, and frames go to it. -/
def StreamVar.watch : StreamVar → List PumpAct → Option StreamVar
  | v, [] => some v
  | v, .opened k :: as =>
    if v.current = none ∧ v.opened = k then watch ⟨some k, k + 1⟩ as else none
  | v, .header k :: as | v, .frame k _ :: as | v, .part k _ :: as =>
    if v.current = some k then watch v as else none
  | v, .cancelled k :: as =>
    if v.current = some k then watch { v with current := none } as else none
  | v, _ :: as => watch v as

variable (as bs : List PumpAct) (cfg : FeedConfig) (v : StreamVar)

theorem StreamVar.watch_append :
    v.watch (as ++ bs) = (v.watch as).bind (·.watch bs) := by
  fun_induction v.watch as <;> simp_all [watch]

theorem StreamVar.watch_ensure (f : TurnFate) :
    v.watch (v.ensure cfg f).2 = some (v.ensure cfg f).1 := by
  fun_cases v.ensure cfg f <;> simp_all [watch]

def PumpAct.isOutcome : PumpAct → Bool
  | .opened _ | .header _ | .cancelled _ | .onStreamOpened | .onWriteAttempt => false
  | _ => true

def outcome (acts : List PumpAct) : List PumpAct := acts.filter PumpAct.isOutcome

theorem outcome_append : outcome (as ++ bs) = outcome as ++ outcome bs :=
  filter_append ..

/-- A failed write may have left some of the frame, or all of it. -/
def Dropped (frame : Option (List UInt8)) (ends : List PumpAct) : Prop :=
  (∃ reason, ends = [.onAUDropped reason]) ∨
    ∃ k bytes n reason, frame = some bytes ∧ ends = [.part k (bytes.take n), .onAUDropped reason]

/-- Something the turn may call fails. -/
def TurnFate.Fails (cfg : FeedConfig) (f : TurnFate) : Prop :=
  f.opens = false ∨
    (cfg.trackName ≠ [] ∧ (f.header && (writeStreamHeader cfg.trackName).isSome) = false) ∨
    f.writes ≠ .ok

theorem ensure_fails (f : TurnFate) (h : (v.ensure cfg f).1.current = none) : f.Fails cfg := by
  fun_cases v.ensure cfg f with
  | case1 k hcur => simp_all [StreamVar.ensure]
  | case2 _ hopens => exact .inl (by simpa using hopens)
  | case3 _ hopens hname => simp_all [StreamVar.ensure]
  | case4 _ hopens hname hheader => simp_all [StreamVar.ensure]
  | case5 _ hopens hname hheader => exact .inr (.inl ⟨hname, by simpa using hheader⟩)

theorem ensure_outcome (f : TurnFate) : outcome (v.ensure cfg f).2 = [] := by
  fun_cases v.ensure cfg f <;> rfl

section streamTurn

variable (u : Fated) (frame : Option (List UInt8)) (openFailed writeFailed : GoString) {written : List PumpAct}

theorem streamTurn_watch (hw : ∀ v : StreamVar, v.watch written = some v) :
    v.watch (streamTurn cfg v u frame openFailed writeFailed written).2 =
      some (streamTurn cfg v u frame openFailed writeFailed written).1 := by
  have hopen := v.watch_ensure cfg u.2
  fun_cases streamTurn cfg v u frame openFailed writeFailed written <;>
    simp_all [StreamVar.watch_append, StreamVar.watch]

theorem streamTurn_outcome (hw : outcome written = written) :
    let ends := outcome (streamTurn cfg v u frame openFailed writeFailed written).2
    (∃ k bytes n, frame = some bytes ∧ ends = .frame k bytes :: .onWriteBytes n :: written) ∨
      Dropped frame ends ∧ (frame = none ∨ u.2.Fails cfg) := by
  have hopen := ensure_outcome cfg v u.2
  have hfails := ensure_fails cfg v u.2
  fun_cases streamTurn cfg v u frame openFailed writeFailed written with
  | case1 _ v acts h hcur =>
    rw [h] at hopen hfails
    simp only [outcome_append, hopen]
    exact .inr ⟨.inl ⟨_, rfl⟩, .inr (hfails hcur)⟩
  | case2 v acts h k _ =>
    rw [h] at hopen
    simp only [outcome_append, hopen]
    exact .inr ⟨.inl ⟨_, rfl⟩, .inl trivial⟩
  | case3 v acts h k bytes _ _ =>
    rw [h] at hopen
    simp only [outcome_append, hopen]
    exact .inl ⟨k, bytes, _, rfl, congrArg (_ :: _ :: ·) hw⟩
  | case4 v acts h k bytes n hwrites _ =>
    rw [h] at hopen
    simp only [outcome_append, hopen]
    have hfailed : u.2.writes ≠ .ok := by simp [hwrites]
    exact .inr ⟨.inr ⟨k, bytes, n, _, rfl, rfl⟩, .inr (.inr (.inr hfailed))⟩

end streamTurn

section turns

variable {S : Type} {turn : S → Fated → S × List PumpAct}

theorem turns_watch (var : S → StreamVar)
    (hturn : ∀ s u, (var s).watch (turn s u).2 = some (var (turn s u).1))
    (us : List Fated) (s : S) :
    ((var s).watch (turns turn s us).flatten).isSome := by
  fun_induction turns turn s us with
  | case1 => rfl
  | case2 s u us ih =>
    rw [flatten_cons, StreamVar.watch_append, hturn]
    exact ih

end turns

/-! ## Low latency -/

def frames (acts : List PumpAct) : List (List UInt8) :=
  acts.filterMap fun | .frame _ bytes => some bytes | _ => none

def drops (acts : List PumpAct) : List GoString :=
  acts.filterMap fun | .onAUDropped reason => some reason | _ => none

theorem frames_append : frames (as ++ bs) = frames as ++ frames bs := filterMap_append

theorem drops_append : drops (as ++ bs) = drops as ++ drops bs := filterMap_append

theorem frames_outcome : frames (outcome as) = frames as := by
  unfold frames outcome
  rw [filterMap_filter]
  congr! with a
  cases a with
  | _ => rfl

theorem drops_outcome : drops (outcome as) = drops as := by
  unfold drops outcome
  rw [filterMap_filter]
  congr! with a
  cases a with
  | _ => rfl

def LowLatencyOutcome (cfg : FeedConfig) (u : Fated) (acts : List PumpAct) : Prop :=
  (∃ k bytes n, lowLatencyFrame cfg u = some bytes ∧
      outcome acts = [.frame k bytes, .onWriteBytes n]) ∨
    Dropped (lowLatencyFrame cfg u) (outcome acts)

theorem lowLatencyTurn_watch (u : Fated) :
    v.watch (lowLatencyTurn cfg v u).2 = some (lowLatencyTurn cfg v u).1 :=
  streamTurn_watch _ _ _ _ _ _ fun _ => rfl

theorem lowLatencyTurns_outcome (us : List Fated) :
    Forall₂ (LowLatencyOutcome cfg) us (turns (lowLatencyTurn cfg) v us) := by
  fun_induction turns (lowLatencyTurn cfg) v us with
  | case1 => exact .nil
  | case2 v u us ih =>
    have hturn := streamTurn_outcome cfg v u (lowLatencyFrame cfg u) (str "stream_open_failed")
      (str "write_deadline") (rfl : outcome [] = [])
    exact .cons (hturn.imp_right And.left) ih

theorem frames_sublist {cfg us acts} (h : Forall₂ (LowLatencyOutcome cfg) us acts) :
    frames acts.flatten <+ us.filterMap (lowLatencyFrame cfg) := by
  induction h with
  | nil => exact .slnil
  | @cons u a us acts hu _ ih =>
    have hskip : frames acts.flatten <+ (u :: us).filterMap (lowLatencyFrame cfg) :=
      ih.trans ((sublist_cons_self u us).filterMap _)
    rw [flatten_cons, frames_append, ← frames_outcome a]
    obtain ⟨k, bytes, n, hbytes, hout⟩ | ⟨reason, hout⟩ | ⟨k, bytes, n, reason, -, hout⟩ := hu
    · rw [hout, filterMap_cons_some hbytes]
      exact ih.cons_cons _
    · rw [hout]
      exact hskip
    · rw [hout]
      exact hskip

/-- The whole frame is on a stream, whatever its write reported. -/
def complete (cfg : FeedConfig) (u : Fated) (acts : List PumpAct) : Bool :=
  acts.any fun
    | .frame _ _ => true
    | .part _ bytes => lowLatencyFrame cfg u = some bytes
    | _ => false

/-- There is a stream, it takes the whole frame, and the write fails. -/
def lateFailure (cfg : FeedConfig) (v : StreamVar) (u : Fated) : Bool :=
  match (v.ensure cfg u.2).1.current, lowLatencyFrame cfg u, u.2.writes with
  | some _, some bytes, .failed n => decide (bytes.length ≤ n)
  | _, _, _ => false

def lateFailures (cfg : FeedConfig) : StreamVar → List Fated → Nat
  | _, [] => 0
  | v, u :: us => (lateFailure cfg v u).toNat + lateFailures cfg (lowLatencyTurn cfg v u).1 us

theorem complete_append (u : Fated) :
    complete cfg u (as ++ bs) = (complete cfg u as || complete cfg u bs) := any_append

theorem complete_ensure (u : Fated) (f : TurnFate) : complete cfg u (v.ensure cfg f).2 = false := by
  fun_cases v.ensure cfg f <;> rfl

theorem lowLatencyTurn_drops (u : Fated) :
    (drops (lowLatencyTurn cfg v u).2).length =
      (!complete cfg u (lowLatencyTurn cfg v u).2).toNat + (lateFailure cfg v u).toNat := by
  -- A unit is reported if it is not complete, or by mistake.
  have hd : drops (v.ensure cfg u.2).2 = [] := by
    rw [← drops_outcome, ensure_outcome]
    rfl
  have hc := complete_ensure cfg v u u.2
  show (drops (streamTurn cfg v u (lowLatencyFrame cfg u) _ _ []).2).length =
    (!complete cfg u (streamTurn cfg v u (lowLatencyFrame cfg u) _ _ []).2).toNat + _
  unfold streamTurn lateFailure
  cases hcur : (v.ensure cfg u.2).1.current with
  | none => simp only [hcur, drops_append, hd, complete_append, hc]; rfl
  | some k =>
    cases hframe : lowLatencyFrame cfg u with
    | none => simp only [hcur, drops_append, hd, complete_append, hc]; rfl
    | some bytes =>
      cases hwrites : u.2.writes with
      | ok => simp only [hcur, drops_append, hd, complete_append, hc]; rfl
      | failed n =>
        have hpart : complete cfg u [.part k (bytes.take n), .cancelled k,
            .onAUDropped (str "write_deadline")] = decide (bytes.length ≤ n) := by
          simp [complete, hframe]
        simp only [hcur, drops_append, hd, complete_append, hc, hpart, Bool.false_or]
        cases decide (bytes.length ≤ n) with
        | _ => rfl

theorem lowLatencyTurns_drops (us : List Fated) :
    (drops (turns (lowLatencyTurn cfg) v us).flatten).length =
      (us.zip (turns (lowLatencyTurn cfg) v us)).countP (fun t => !complete cfg t.1 t.2) +
        lateFailures cfg v us := by
  induction us generalizing v with
  | nil => rfl
  | cons u us ih =>
    have hturn := lowLatencyTurn_drops cfg v u
    rw [turns, flatten_cons, drops_append, length_append, ih, zip_cons_cons, countP_cons, hturn,
      lateFailures]
    cases complete cfg u (lowLatencyTurn cfg v u).2 with
    | _ => simp only [Bool.not_true, Bool.not_false, Bool.toNat_true, Bool.toNat_false, if_true,
        Bool.false_eq_true, if_false]; omega

/-- **Low-latency accounting.** Every unit is written in order or reported as dropped. The
    reports are as many as the incomplete units exactly if the stream was open up front and
    no write failed after its last byte. -/
theorem low_latency_accounted (cfg : FeedConfig) (up : TurnFate) (us : List Fated) :
    let run := runStreamLowLatency cfg up us
    let acts := run.1 ++ run.2.flatten
    let v := (StreamVar.ensure cfg ⟨none, 0⟩ up).1
    Forall₂ (LowLatencyOutcome cfg) us run.2 ∧ (StreamVar.watch ⟨none, 0⟩ acts).isSome ∧
      frames acts <+ us.filterMap (lowLatencyFrame cfg) ∧
      ((drops acts).length = (us.zip run.2).countP (fun t => !complete cfg t.1 t.2) ↔
        v.current ≠ none ∧ lateFailures cfg v us = 0) := by
  have hacts := lowLatencyTurns_outcome cfg (StreamVar.ensure cfg ⟨none, 0⟩ up).1 us
  have hopen := ensure_outcome cfg ⟨none, 0⟩ up
  have hwatch := turns_watch id (lowLatencyTurn_watch cfg) us (StreamVar.ensure cfg ⟨none, 0⟩ up).1
  have hf : frames (StreamVar.ensure cfg ⟨none, 0⟩ up).2 = [] := by
    rw [← frames_outcome, hopen]
    rfl
  have hd : drops (StreamVar.ensure cfg ⟨none, 0⟩ up).2 = [] := by
    rw [← drops_outcome, hopen]
    rfl
  have hdrops := lowLatencyTurns_drops cfg (StreamVar.ensure cfg ⟨none, 0⟩ up).1 us
  simp only [runStreamLowLatency]
  by_cases hup : (StreamVar.ensure cfg ⟨none, 0⟩ up).1.current = none
  · -- the report of the failed open comes on top
    simp only [if_pos hup, frames_append, drops_append, hf, hd, nil_append, append_assoc,
      StreamVar.watch_append, StreamVar.watch_ensure]
    refine ⟨hacts, hwatch, frames_sublist hacts, iff_of_false ?_ (fun h => h.1 hup)⟩
    rw [length_append, hdrops]
    show 1 + _ ≠ _
    omega
  · simp only [if_neg hup, frames_append, drops_append, hf, hd, nil_append,
      StreamVar.watch_append, StreamVar.watch_ensure, hdrops]
    refine ⟨hacts, hwatch, frames_sublist hacts, ?_⟩
    rw [Nat.add_eq_left, and_iff_right hup]

/-- Nothing is dequeued, and a drop is reported; a frame is complete, and
    its unit is reported as dropped. -/
theorem open_failure_reported :
    (let run := runStreamLowLatency FeedConfig.zero ⟨firstTick, true, false, true, .ok⟩ []
     drops (run.1 ++ run.2.flatten) = [str "stream_open_failed"] ∧ run.2 = []) ∧
    let up : TurnFate := ⟨firstTick, true, true, true, .ok⟩
    let u : Fated := (.bare true 1, { up with writes := .failed 17 })
    let run := runStreamLowLatency FeedConfig.zero up [u]
    drops (run.1 ++ run.2.flatten) = [str "write_deadline"] ∧
      run.2.map (complete FeedConfig.zero u) = [true] := by
  decide

/-! ## Datagrams -/

def decodeDatagram : List UInt8 → Option (UInt8 × UInt16 × List UInt8)
  | typ :: trackID :: hi :: lo :: payload =>
    if typ = typeDatagramAU then
      some (trackID, (beNat [hi, lo]).toUInt16, payload)
    else none
  | _ => none

theorem decodeDatagram_of_encode {trackID seq payload datagram}
    (h : encodeDatagram trackID seq payload = some datagram) :
    decodeDatagram datagram = some (trackID, seq, payload) := by
  unfold encodeDatagram at h
  split at h
  · cases h
  · cases h
    have hv := seq.toNat_lt
    have hnat : beNat [(seq >>> 8).toUInt8, seq.toUInt8] = seq.toNat := by
      simp [beNat, Nat.shiftRight_eq_div_pow]
      omega
    simp only [cons_append, nil_append, decodeDatagram, if_true, hnat]
    rw [show seq.toNat.toUInt16 = seq from UInt16.ofNat_toNat]

/-- It is dropped only for a cause. -/
def DatagramOutcome (cfg : FeedConfig) (u : Fated × Nat)
    (acts : List PumpAct) : Prop :=
  (∃ datagram n, outcome acts = [.datagram datagram, .onWriteBytes n] ∧
      decodeDatagram datagram = some (cfg.trackID, UInt16.ofNat u.2, u.1.1.bytes)) ∨
  (∃ k bytes n reason, outcome acts = [.frame k bytes, .onWriteBytes n, .onFallback reason] ∧
      (u.1.1.bytes.length ≤ maxDatagramPayload → u.1.2.sends = false) ∧
      ∃ f : FeedFrame, f.seq = u.1.1.seq ∧ f.ptsMicro = u.1.1.ptsMicro ∧ f.payload = u.1.1.bytes ∧
        ∀ rest, readFeedFrame.run (flat eofError) (bytes ++ rest) = .ok (f, rest)) ∨
  Dropped (fallbackFrame cfg u.1) (outcome acts) ∧
    (u.1.1.bytes.length ≤ maxDatagramPayload → u.1.2.sends = false) ∧
    (cfg.fallbackOpener = true → fallbackFrame cfg u.1 = none ∨ u.1.2.Fails cfg)

theorem fallbackFrame_reads {cfg u bytes} (h : fallbackFrame cfg u = some bytes) :
    ∃ f : FeedFrame, f.seq = u.1.seq ∧ f.ptsMicro = u.1.ptsMicro ∧ f.payload = u.1.bytes ∧
      ∀ rest, readFeedFrame.run (flat eofError) (bytes ++ rest) = .ok (f, rest) := by
  unfold fallbackFrame writeFeedFramePooled at h
  split at h
  · cases h
  · next hfits =>
    cases h
    exact ⟨_, rfl, rfl, rfl, readFeedFrame_feedFrameBytes (f := ⟨typeKeyframe, u.1.ptsMicro,
      u.1.seq, frameFlags true u.1.discontinuity, pubWall cfg u.2.now u.1, u.1.bytes⟩)
      ⟨frameFlags_and_wall .., Nat.le_of_not_lt hfits⟩⟩

theorem fallbackOrDrop_watch (u : Fated) (reason : GoString) :
    v.watch (fallbackOrDrop cfg v u reason).2 = some (fallbackOrDrop cfg v u reason).1 := by
  unfold fallbackOrDrop
  split
  · rfl
  · exact streamTurn_watch _ _ _ _ _ _ fun _ => rfl

theorem fallbackOrDrop_outcome {u} (i : Nat) (reason : GoString)
    (hsend : u.1.bytes.length ≤ maxDatagramPayload → u.2.sends = false) :
    DatagramOutcome cfg (u, i) (fallbackOrDrop cfg v u reason).2 := by
  unfold fallbackOrDrop
  split
  · next hno =>
    refine .inr (.inr ⟨.inl ⟨reason, rfl⟩, hsend, fun hopener => ?_⟩)
    rw [hopener] at hno
    cases hno
  · obtain ⟨k, bytes, n, hbytes, hout⟩ | ⟨hdrop, hwhy⟩ := streamTurn_outcome cfg v u (fallbackFrame cfg u)
      (str "fallback_open_failed") (str "fallback_write_failed")
      (rfl : outcome [.onFallback reason] = _)
    · exact .inr (.inl ⟨k, bytes, n, reason, hout, hsend, fallbackFrame_reads hbytes⟩)
    · exact .inr (.inr ⟨hdrop, hsend, fun _ => hwhy⟩)

theorem datagramTurn_outcome (u : Fated) (i : Nat) :
    DatagramOutcome cfg (u, i) (datagramTurn cfg (v, UInt16.ofNat i) u).2 := by
  unfold datagramTurn
  cases henc : encodeDatagram cfg.trackID (UInt16.ofNat i) u.1.bytes with
  | none =>
    refine fallbackOrDrop_outcome cfg v i _ fun hle => ?_
    simp [encodeDatagram, Nat.not_lt.mpr hle] at henc
  | some datagram =>
    cases hsends : u.2.sends with
    | true => exact .inl ⟨datagram, _, rfl, decodeDatagram_of_encode henc⟩
    | false => exact fallbackOrDrop_outcome cfg v i _ fun _ => hsends

theorem datagramTurns_outcome (us : List Fated) :
    ∀ v i, Forall₂ (DatagramOutcome cfg) (us.zipIdx i)
      (turns (datagramTurn cfg) (v, UInt16.ofNat i) us) := by
  induction us with
  | nil => exact fun _ _ => .nil
  | cons u us ih =>
    intro v i
    refine .cons (datagramTurn_outcome cfg v u i) ?_
    have hnext := ih (datagramTurn cfg (v, UInt16.ofNat i) u).1.1 (i + 1)
    rwa [UInt16.ofNat_add] at hnext

theorem datagramTurn_watch (s : StreamVar × UInt16) (u : Fated) :
    s.1.watch (datagramTurn cfg s u).2 = some (datagramTurn cfg s u).1.1 := by
  unfold datagramTurn
  cases encodeDatagram cfg.trackID s.2 u.1.bytes with
  | none => exact fallbackOrDrop_watch ..
  | some datagram =>
    cases u.2.sends with
    | true => rfl
    | false => exact fallbackOrDrop_watch ..

/-- **Datagram outcomes.** Every unit comes to a datagram with its number, a fallback frame
    or a drop, and one stream at most is open. -/
theorem datagram_outcomes {cfg : FeedConfig} (hsender : cfg.datagramSender = true)
    (us : List Fated) :
    ∃ acts, runDatagramOrStream cfg us = some acts ∧
      Forall₂ (DatagramOutcome cfg) us.zipIdx acts ∧
      (StreamVar.watch ⟨none, 0⟩ acts.flatten).isSome := by
  refine ⟨_, by simp only [runDatagramOrStream, hsender]; rfl,
    datagramTurns_outcome cfg us ⟨none, 0⟩ 0, ?_⟩
  exact turns_watch Prod.fst (datagramTurn_watch cfg) us (⟨none, 0⟩, 0)

/-- A datagram, a fallback frame, a write that fails after three bytes, and an open that
    fails. -/
theorem datagram_outcomes_each :
    let cfg := { FeedConfig.zero with datagramSender := true, fallbackOpener := true }
    let ok : TurnFate := ⟨firstTick, true, true, true, .ok⟩
    let us : List Fated := [(.bare true 1, ok), (.bare true 2, { ok with sends := false }),
      (.bare true 3, { ok with sends := false, writes := .failed 3 }),
      (.bare true 4, { ok with sends := false, opens := false })]
    cfg.datagramSender = true ∧ ∃ acts, runDatagramOrStream cfg us = some acts ∧
      Forall₂ (DatagramOutcome cfg) us.zipIdx acts ∧
      acts.map (fun a => (drops a, a.contains (.onFallback (str "send_failed")))) =
        [([], false), ([], true), ([str "fallback_write_failed"], false),
          ([str "fallback_open_failed"], false)] := by
  refine ⟨rfl, _, rfl, ?_, by decide⟩
  obtain ⟨acts, hrun, hout, -⟩ := datagram_outcomes
    (rfl : { FeedConfig.zero with datagramSender := true, fallbackOpener := true }.datagramSender = true)
    _
  cases hrun
  exact hout

end QuicRTC

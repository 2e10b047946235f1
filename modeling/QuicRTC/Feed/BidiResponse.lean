import QuicRTC.Feed.Frame

/-! # The Response of a Call

The goroutine `runBidiPerCall` of `feed/bidi.go` starts for a unit. The response is read through a
limit of one byte more than it may have, a sum of type `int64`.
-/

namespace QuicRTC

open Wire List

/-- `limit` is the number in the text of `ErrBidiResponseTooLarge`. -/
inductive BidiError where
  | responseTooLarge (limit : Int64)
  | readFailed (code : Nat)
deriving DecidableEq

/-- What the transport lets succeed, what the peer sends, and how its stream ends; `none` is
    the FIN. -/
structure CallFate where
  now : WallClock
  opens : Bool
  header : Bool
  writes : Bool
  sent : List UInt8
  ending : Option BidiError

inductive BidiHook where
  | auDropped (reason : GoString)
  | writeBytes (n : Nat)
  | response (seq : UInt32) (resp : List UInt8) (err : Option BidiError)
deriving DecidableEq

/-- The default is `DefaultMaxBidiResponse`. -/
def maxResp (maxBidiResponse : Int64) : Int64 :=
  if maxBidiResponse ≤ 0 then Int64.ofNat maxFeedPayload else maxBidiResponse

/-- A limit that is not positive is the end of the stream. -/
def readAllLimited (n : Int64) (sent : List UInt8) (ending : Option BidiError) :
    List UInt8 × Option BidiError :=
  if n ≤ 0 then ([], none)
  else if n.toInt ≤ sent.length then (sent.take n.toInt.toNat, none)
  else (sent, ending)

def onResponse (limit : Int64) (seq : UInt32) (sent : List UInt8) (ending : Option BidiError) :
    BidiHook :=
  let (resp, readErr) := readAllLimited (limit + 1) sent ending
  if limit.toInt < resp.length then
    .response seq (resp.take limit.toInt.toNat) (readErr.or (some (.responseTooLarge limit)))
  else .response seq resp readErr

/-- A call with all hooks set. -/
def bidiCall (cfg : FeedConfig) (maxBidiResponse : Int64) (au : AccessUnit) (fate : CallFate) :
    List BidiHook :=
  if !fate.opens then [.auDropped (str "bidi_open_failed")]
  else if cfg.trackName ≠ [] ∧ ¬ (fate.header ∧ (writeStreamHeader cfg.trackName).isSome) then
    [.auDropped (str "bidi_header_failed")]
  else if !fate.writes || (feedWrites cfg fate.now au).isNone then
    [.auDropped (str "bidi_write_failed")]
  else
    [.writeBytes (feedHeaderLen + au.bytes.length),
      onResponse (maxResp maxBidiResponse) au.seq fate.sent fate.ending]

def BidiHook.response? : BidiHook → Option (UInt32 × List UInt8 × Option BidiError)
  | .response seq resp err => some (seq, resp, err)
  | _ => none

/-- The transport takes all writes, and the peer answers with `w`. -/
def CallFate.answer (now : WallClock) (w : List UInt8) : CallFate := ⟨now, true, true, true, w, none⟩

theorem toInt_succ {m} (hpos : 0 < m) (hmax : m ≠ Int64.maxValue) :
    0 < m.toInt ∧ (m + 1).toInt = m.toInt + 1 := by
  have hm : 0 < m.toInt := Int64.lt_iff_toInt_lt.mp hpos
  have hle := m.toInt_le
  have hne : m.toInt ≠ 9223372036854775807 := fun heq => hmax (Int64.toInt_inj.mp heq)
  refine ⟨hm, ?_⟩
  rw [Int64.toInt_add]
  simp only [Int64.toInt_maxValue, Int64.toInt_one, Int.bmod_def] at hle ⊢
  omega

theorem bidiCall_answer {cfg : FeedConfig} (hloop : cfg.loop = .bidiPerCall) (m : Int64)
    (au : AccessUnit) (now : WallClock) (w : List UInt8) :
    (bidiCall cfg m au (.answer now w)).filterMap BidiHook.response? =
      if cfg.trackName.length ≤ maxStreamHeader ∧ au.bytes.length ≤ maxFeedPayload then
        (onResponse (maxResp m) au.seq w none).response?.toList
      else [] := by
  -- The request is on the stream if its encoders take it.
  have hheader : (writeStreamHeader cfg.trackName).isSome ↔ cfg.trackName.length ≤ maxStreamHeader := by
    unfold writeStreamHeader
    split <;> simp <;> omega
  have hframe : (feedWrites cfg now au).isNone ↔ ¬ au.bytes.length ≤ maxFeedPayload := by
    unfold feedWrites feedFrameWallWrites feedFrameWrites
    rw [hloop]
    simp only
    split <;> split <;> simp <;> omega
  simp only [bidiCall, CallFate.answer, Bool.not_true, Bool.false_eq_true, if_false, true_and, hheader,
    Bool.false_or, hframe]
  by_cases hname : cfg.trackName.length ≤ maxStreamHeader
  · by_cases hfits : au.bytes.length ≤ maxFeedPayload
    · simp only [hname, hfits, not_true_eq_false, and_false, if_false, and_self, if_true]
      cases onResponse (maxResp m) au.seq w none with
      | _ => rfl
    · simp only [hname, hfits, not_true_eq_false, and_false, if_false, not_false_eq_true, if_true]
      rfl
  · have hne : cfg.trackName ≠ [] := fun h => hname (h ▸ Nat.zero_le _)
    simp only [hne, hname, ne_eq, not_false_eq_true, and_self, if_true, false_and, if_false]
    rfl

theorem onResponse_capped {m : Int64} (hpos : 0 < m) (hmax : m ≠ Int64.maxValue) (seq : UInt32)
    (w : List UInt8) :
    onResponse m seq w none = .response seq (w.take (min w.length m.toInt.toNat))
      (if m.toInt < w.length then some (.responseTooLarge m) else none) := by
  obtain ⟨hm, hsum⟩ := toInt_succ hpos hmax
  have hread : ¬ m + 1 ≤ 0 := by
    rw [Int64.le_iff_toInt_le, hsum]
    exact not_le_of_gt (Int.lt_add_one_of_le hm.le)
  simp only [onResponse, readAllLimited, if_neg hread, hsum]
  by_cases hlong : m.toInt < w.length
  · -- one byte past the limit was read, and is cut off again
    rw [if_pos (Int.add_one_le_of_lt hlong), if_pos hlong, if_pos (by simp; omega), take_take,
      Nat.min_eq_left (by omega), Nat.min_eq_right (by omega)]
    rfl
  · rw [if_neg (fun h => hlong (Int.lt_of_add_one_le h)), if_neg hlong, if_neg hlong,
      Nat.min_eq_left (by omega), take_length]

/-- **Response cap.** It holds of every request that is encoded, but for the largest limit.
    -/
theorem bidi_response_capped {cfg : FeedConfig} (hloop : cfg.loop = .bidiPerCall) {m : Int64}
    (hpos : 0 < m) (au : AccessUnit) (now : WallClock) (w : List UInt8) :
    (bidiCall cfg m au (.answer now w)).filterMap BidiHook.response? =
        [(au.seq, w.take (min w.length m.toInt.toNat),
          if m.toInt < w.length then some (.responseTooLarge m) else none)] ↔
      (cfg.trackName.length ≤ maxStreamHeader ∧ au.bytes.length ≤ maxFeedPayload) ∧
        (m ≠ Int64.maxValue ∨ w = []) := by
  have hlimit : maxResp m = m := if_neg (fun h => absurd hpos (Int64.not_lt.mpr h))
  rw [bidiCall_answer hloop, hlimit]
  by_cases hfits : cfg.trackName.length ≤ maxStreamHeader ∧ au.bytes.length ≤ maxFeedPayload
  · rw [if_pos hfits, and_iff_right hfits]
    by_cases hmax : m = Int64.maxValue
    · subst hmax
      cases w with
      | nil => exact iff_of_true rfl (.inr rfl)
      | cons b w =>
        -- the limit wraps to a negative number, and nothing is read
        have hlost : onResponse Int64.maxValue au.seq (b :: w) none = .response au.seq [] none := rfl
        have hzero : (0 : Int64) ≠ Int64.maxValue := by decide
        rw [hlost]
        simp [BidiHook.response?, hzero]
    · rw [onResponse_capped hpos hmax]
      exact iff_of_true rfl (.inl hmax)
  · rw [if_neg hfits]
    exact iff_of_false (by simp) (fun h => hfits h.1)

theorem bidi_response_capped_two :
    (bidiCall { FeedConfig.zero with delivery := .bidiPerCall, bidiOpener := true, trackName := str "calls" }
        2 { AccessUnit.bare true 1 with bytes := [5] } (.answer firstTick [7, 8, 9])).filterMap
          BidiHook.response? =
      [(1, [7, 8], some (.responseTooLarge 2))] :=
  (bidi_response_capped rfl (by decide) _ firstTick [7, 8, 9]).mpr (by decide)

/-- With the largest limit the sum is negative, and nothing is read. -/
theorem bidi_response_lost :
    (bidiCall { FeedConfig.zero with delivery := .bidiPerCall, bidiOpener := true } Int64.maxValue
        (.bare true 1) (.answer firstTick [7])).filterMap BidiHook.response? = [(1, [], none)] := by
  decide

end QuicRTC

import QuicRTC.Framework.System

/-! # The Send-Rate Meter

`transport/congestion.go`: the sends of the last window and the sum of their bytes. The samples are
in a slice whose first `head` entries have left the window. The meter counts in microseconds,
rounded down, in an `int64`, and the sum is a `uint64`: it is exact up to these three.
-/

namespace QuicRTC

open LTS List

/-- `Time.UnixMicro`. -/
def unixMicro (now : Int) : Int64 := .ofInt (now / 1000)

structure RateSample where
  tMicros : Int64
  bytes : UInt32
deriving DecidableEq

def sampledBytes : List RateSample → Nat
  | [] => 0
  | x :: xs => x.bytes.toNat + sampledBytes xs

structure SendRateMeter where
  windowMicros : Int64
  samples : List RateSample
  head : Nat
  totalBytes : UInt64

def newSendRateMeter (window : Int64) : SendRateMeter where
  windowMicros := (if window ≤ 0 then 1000000000 else window) / 1000
  samples := []
  head := 0
  totalBytes := 0

namespace SendRateMeter

/-- `samples[head:]`. -/
def live (m : SendRateMeter) : List RateSample := m.samples.drop m.head

def push (m : SendRateMeter) (n t : Int64) : SendRateMeter :=
  { m with
    samples := m.samples ++ [⟨t, n.toUInt64.toUInt32⟩]
    totalBytes := m.totalBytes + n.toUInt64 }

/-- A turn of the loop. -/
def evict (m : SendRateMeter) (x : RateSample) : SendRateMeter :=
  { m with totalBytes := m.totalBytes - x.bytes.toUInt64, head := m.head + 1 }

/-- The loop of both methods, over `samples[head:]`. -/
def advance (cutoff : Int64) : List RateSample → SendRateMeter → SendRateMeter
  | [], m => m
  | x :: rest, m => if x.tMicros < cutoff then advance cutoff rest (m.evict x) else m

def slide (m : SendRateMeter) (t : Int64) : SendRateMeter :=
  advance (t - m.windowMicros) m.live m

/-- It copies as if through a buffer. -/
def compact (m : SendRateMeter) : SendRateMeter :=
  if 1024 < m.head then { m with samples := m.live, head := 0 } else m

def add (m : SendRateMeter) (n : Int64) (now : Int) : SendRateMeter :=
  ((m.push n (unixMicro now)).slide (unixMicro now)).compact

/-- `none` is the panic of a division by zero. -/
def rate (m : SendRateMeter) (now : Int) : SendRateMeter × Option UInt64 :=
  let m := m.slide (unixMicro now)
  match m.samples[m.head]? with
  | none => (m, some 0)
  | some x =>
    let span := unixMicro now - x.tMicros
    if span ≤ 0 then (m, some 0)
    else if span.toUInt64 = 0 then (m, none)
    else (m, some (m.totalBytes * 1000000 / span.toUInt64))

end SendRateMeter

/-! ## Runs -/

inductive MeterCall where
  | add (n : Int64) (now : Int)
  | rate (now : Int)
deriving DecidableEq

namespace MeterCall

def now : MeterCall → Int
  | add _ now | rate now => now

def size : MeterCall → Int
  | add n _ => n.toInt
  | rate _ => 0

def sample? : MeterCall → Option RateSample
  | add n now => some ⟨unixMicro now, n.toUInt64.toUInt32⟩
  | rate _ => none

/-- Not older than the window, in whole microseconds. -/
def recent (window : Int64) (now : Int) (c : MeterCall) : Bool :=
  decide (now / 1000 - c.now / 1000 ≤ window.toInt)

theorem recent_iff {w : Int64} {t : Int} {c : MeterCall} :
    c.recent w t = true ↔ t / 1000 - c.now / 1000 ≤ w.toInt := by
  rw [recent, decide_eq_true_eq]

end MeterCall

abbrev MeterRun := SendRateMeter × List MeterCall

namespace MeterRun

def serve (m : SendRateMeter) : MeterCall → Option SendRateMeter
  | .add n now => some (m.add n now)
  | .rate now => some (m.rate now).1

def start (window : Int64) : MeterRun := (newSendRateMeter window, [])

def next : MeterRun → MeterCall → Option MeterRun :=
  withHistory serve (fun _ c _ calls => calls ++ [c])

def latest (x : MeterRun) : Int := (x.2.getLast?.map MeterCall.now).getD 0

/-- At the latest call. -/
def window (x : MeterRun) (w : Int64) : List RateSample :=
  (x.2.filter (MeterCall.recent w x.latest)).filterMap MeterCall.sample?

/-- Times do not go back and sizes are 32-bit. -/
abbrev Forward (x : MeterRun) (c : MeterCall) : Prop :=
  (∀ p ∈ x.2.getLast?, p.now ≤ c.now) ∧ 0 ≤ c.size ∧ c.size < 4294967296

/-- The time and its cutoff are values of an `int64`. -/
abbrev Representable (x : MeterRun) (c : MeterCall) : Prop :=
  -9223372036854775808 ≤ c.now / 1000 - x.1.windowMicros.toInt ∧
    c.now / 1000 < 9223372036854775808

abbrev Timely (x : MeterRun) (c : MeterCall) : Prop := Forward x c ∧ Representable x c

def Room (x : MeterRun) (c : MeterCall) : Prop :=
  sampledBytes x.1.live + c.size.toNat < 18446744073709551616

end MeterRun

/-! ## The counter -/

namespace SendRateMeter

variable {m : SendRateMeter} {cutoff : Int64}

/-- The counter is the sum of the live bytes, as a `uint64`. -/
structure Counted (m : SendRateMeter) : Prop where
  head : m.head ≤ m.samples.length
  total : m.totalBytes = .ofNat (sampledBytes m.live)

theorem sampledBytes_append (xs ys : List RateSample) :
    sampledBytes (xs ++ ys) = sampledBytes xs + sampledBytes ys := by
  induction xs with
  | nil => exact (Nat.zero_add _).symm
  | cons x xs ih => simp only [cons_append, sampledBytes, ih, Nat.add_assoc]

theorem push_live (h : m.head ≤ m.samples.length) (n t : Int64) :
    (m.push n t).live = m.live ++ [⟨t, n.toUInt64.toUInt32⟩] :=
  drop_append_of_le_length h

theorem toUInt64_of_size {n : Int64} (h0 : 0 ≤ n.toInt) (h : n.toInt < 4294967296) :
    n.toUInt64 = .ofNat n.toUInt64.toUInt32.toNat ∧ n.toUInt64.toUInt32.toNat = n.toInt.toNat := by
  have hn : n.toUInt64.toNat = n.toInt.toNat := by
    rw [Int64.toNat_toUInt64_of_le (Int64.le_iff_toInt_le.mpr h0)]
    rfl
  have hbytes : n.toUInt64.toUInt32.toNat = n.toUInt64.toNat := by
    rw [UInt64.toNat_toUInt32, hn]
    omega
  exact ⟨by rw [hbytes, UInt64.ofNat_toNat], hbytes.trans hn⟩

theorem Counted.push (h : m.Counted) {n t : Int64} (h0 : 0 ≤ n.toInt)
    (hn : n.toInt < 4294967296) : (m.push n t).Counted where
  head := by
    show m.head ≤ (m.samples ++ [_]).length
    rw [length_append]
    exact Nat.le_add_right_of_le h.head
  total := by
    show m.totalBytes + n.toUInt64 = _
    rw [push_live h.head, sampledBytes_append, UInt64.ofNat_add, h.total]
    exact congrArg _ (toUInt64_of_size h0 hn).1

theorem live_evict {x rest} (h : m.live = x :: rest) :
    m.head < m.samples.length ∧ (m.evict x).live = rest := by
  constructor
  · exact Nat.lt_of_not_ge (fun hge => by simp [live, drop_eq_nil_of_le hge] at h)
  · show m.samples.drop (m.head + 1) = rest
    rw [← tail_drop]
    exact congrArg tail h

theorem Counted.evict (h : m.Counted) {x rest} (hlive : m.live = x :: rest) :
    (m.evict x).Counted where
  head := (live_evict hlive).1
  total := by
    show m.totalBytes - x.bytes.toUInt64 = _
    rw [(live_evict hlive).2, h.total, hlive, sampledBytes, UInt64.ofNat_add,
      UInt64.ofNat_uInt32ToNat, UInt64.add_comm, UInt64.add_sub_cancel]

theorem advance_spec (cutoff : Int64) (rest : List RateSample) {m : SendRateMeter}
    (hlive : m.live = rest) (h : m.Counted) :
    (advance cutoff rest m).Counted ∧
      (advance cutoff rest m).windowMicros = m.windowMicros ∧
      (advance cutoff rest m).live = rest.dropWhile (fun x => decide (x.tMicros < cutoff)) := by
  induction rest generalizing m with
  | nil => exact ⟨h, rfl, hlive⟩
  | cons x rest ih =>
    unfold advance
    by_cases hx : x.tMicros < cutoff
    · rw [if_pos hx, dropWhile_cons, if_pos (decide_eq_true hx)]
      exact ih (live_evict hlive).2 (h.evict hlive)
    · rw [if_neg hx, dropWhile_cons, if_neg (by simpa using hx)]
      exact ⟨h, rfl, hlive⟩

theorem slide_spec (h : m.Counted) (t : Int64) :
    (m.slide t).Counted ∧ (m.slide t).windowMicros = m.windowMicros ∧
      (m.slide t).live = m.live.dropWhile (fun x => decide (x.tMicros < t - m.windowMicros)) := by
  unfold slide
  exact advance_spec _ m.live rfl h

theorem push_bytes (h : m.head ≤ m.samples.length) {n t : Int64} (h0 : 0 ≤ n.toInt)
    (hn : n.toInt < 4294967296) :
    sampledBytes (m.push n t).live = sampledBytes m.live + n.toInt.toNat := by
  rw [push_live h, sampledBytes_append]
  exact congrArg _ (toUInt64_of_size h0 hn).2

theorem compact_spec (m : SendRateMeter) : m.compact.live = m.live ∧
    m.compact.totalBytes = m.totalBytes ∧ m.compact.windowMicros = m.windowMicros := by
  unfold compact
  split <;> exact ⟨rfl, rfl, rfl⟩

theorem Counted.compact (h : m.Counted) : m.compact.Counted where
  head := by
    unfold SendRateMeter.compact
    split
    · exact Nat.zero_le _
    · exact h.head
  total := by rw [m.compact_spec.1, m.compact_spec.2.1, h.total]

/-- In every turn there is a sample at `head`, and the counter is at least its bytes. -/
def Covers (m : SendRateMeter) (cutoff : Int64) : List RateSample → Prop
  | [] => True
  | x :: rest => x.tMicros < cutoff →
    m.samples[m.head]? = some x ∧ x.bytes.toUInt64 ≤ m.totalBytes ∧ (m.evict x).Covers cutoff rest

theorem Counted.covers (rest : List RateSample) {m : SendRateMeter} (hlive : m.live = rest)
    (h : m.Counted) (hroom : sampledBytes m.live < 18446744073709551616) :
    m.Covers cutoff rest := by
  induction rest generalizing m with
  | nil => trivial
  | cons x rest ih =>
    intro _
    have hsum : sampledBytes m.live = x.bytes.toNat + sampledBytes rest := by
      rw [hlive]
      rfl
    refine ⟨?_, ?_, ih (live_evict hlive).2 (h.evict hlive) ?_⟩
    · rw [← head?_drop]
      exact congrArg head? hlive
    · rw [UInt64.le_iff_toNat_le, h.total, UInt64.toNat_ofNat', UInt32.toNat_toUInt64,
        Nat.mod_eq_of_lt hroom, hsum]
      exact Nat.le_add_right _ _
    · rw [(live_evict hlive).2]
      omega

/-- A span that is positive is not zero as a `uint64`. -/
theorem rate_spec (m : SendRateMeter) (now : Int) :
    (m.rate now).1 = m.slide (unixMicro now) ∧ (m.rate now).2.isSome = true := by
  unfold rate
  simp only
  split
  · exact ⟨rfl, rfl⟩
  · next x _ =>
    split
    · exact ⟨rfl, rfl⟩
    · next hspan =>
      split
      · next hzero =>
        rw [← Int64.toInt64_toUInt64 (unixMicro now - x.tMicros), hzero] at hspan
        exact absurd (by decide) hspan
      · exact ⟨rfl, rfl⟩

end SendRateMeter

/-! ## The window -/

namespace MeterRun

open SendRateMeter MeterCall

variable {w : Int64} {x x' : MeterRun} {c : MeterCall}

/-- As the meter reads it. -/
def Exact (c : MeterCall) : Prop := (unixMicro c.now).toInt = c.now / 1000

theorem dropWhile_window {cutoff : Int64} {now} (hcut : cutoff.toInt = now / 1000 - w.toInt)
    {calls : List MeterCall} (hsorted : calls.Pairwise (fun p q => p.now ≤ q.now))
    (hexact : ∀ p ∈ calls, Exact p) :
    (calls.filterMap sample?).dropWhile (fun s => decide (s.tMicros < cutoff)) =
      (calls.filter (recent w now)).filterMap sample? := by
  induction calls with
  | nil => rfl
  | cons c calls ih =>
    obtain ⟨hle, hsorted⟩ := pairwise_cons.mp hsorted
    have hrest := ih hsorted (fun p hp => hexact p (mem_cons_of_mem _ hp))
    cases c with
    | rate t =>
      rw [filter_cons, filterMap_cons_none rfl, hrest]
      split <;> rfl
    | add n t =>
      have ht : (unixMicro t).toInt = t / 1000 := hexact (.add n t) mem_cons_self
      rw [filterMap_cons_some (f := sample?) rfl, dropWhile_cons, filter_cons]
      by_cases hold : unixMicro t < cutoff
      · have hnot : ¬ (MeterCall.add n t).recent w now = true := by
          intro hrecent
          have hin : now / 1000 - t / 1000 ≤ w.toInt := recent_iff.mp hrecent
          rw [Int64.lt_iff_toInt_lt, ht, hcut] at hold
          omega
        rw [if_pos (decide_eq_true hold), if_neg hnot, hrest]
      · rw [if_neg (by simpa using hold)]
        rw [Int64.lt_iff_toInt_lt, ht, hcut] at hold
        -- the later calls are recent with this one
        have hall : calls.filter (recent w now) = calls := by
          rw [filter_eq_self]
          intro p hp
          have hlater : t ≤ p.now := hle p hp
          exact recent_iff.mpr (by omega)
        have hin : (MeterCall.add n t).recent w now = true :=
          recent_iff.mpr (show now / 1000 - t / 1000 ≤ w.toInt by omega)
        rw [if_pos hin, hall, filterMap_cons_some (f := sample?) rfl]

structure Ok (w : Int64) (x : MeterRun) : Prop where
  micros : x.1.windowMicros = w
  counted : x.1.Counted
  live : x.1.live = x.window w
  sorted : x.2.Pairwise (fun p q => p.now ≤ q.now)
  exact : ∀ p ∈ x.2, Exact p

namespace Ok

theorem before (h : Ok w x) (hc : Forward x c) {p} (hp : p ∈ x.2) :
    p.now ≤ x.latest ∧ x.latest ≤ c.now := by
  obtain ⟨calls, q, hcalls⟩ := (eq_nil_or_concat x.2).resolve_left (ne_nil_of_mem hp)
  rw [concat_eq_append] at hcalls
  have hlatest : x.latest = q.now := by simp [latest, hcalls]
  have hsorted := h.sorted
  rw [hcalls] at hp hsorted
  rw [hlatest]
  refine ⟨?_, hc.1 q (by simp [hcalls])⟩
  obtain hmem | hlast := mem_append.mp hp
  · exact (pairwise_append.mp hsorted).2.2 p hmem q mem_cons_self
  · exact (mem_singleton.mp hlast) ▸ Int.le_refl _

/-- What a call leaves of the samples, given what it put there. -/
theorem slide (h : Ok w x) (hw : 0 ≤ w.toInt) (hc : Forward x c) (hrep : Representable x c)
    {m : SendRateMeter} (hm : m.Counted) (hmicros : m.windowMicros = w)
    (hlive : m.live = x.window w ++ c.sample?.toList) :
    Ok w (m.slide (unixMicro c.now), x.2 ++ [c]) := by
  have hexact : Exact c := by
    rw [Representable, h.micros] at hrep
    exact Int64.toInt_ofInt_of_le (by omega) (by omega)
  have hcut : (unixMicro c.now - m.windowMicros).toInt = c.now / 1000 - w.toInt := by
    rw [Representable, h.micros] at hrep
    rw [hmicros, Int64.toInt_sub, hexact]
    exact Int.bmod_eq_of_le (by omega) (by omega)
  have hsorted : (x.2 ++ [c]).Pairwise (fun p q => p.now ≤ q.now) := by
    refine pairwise_append.mpr ⟨h.sorted, pairwise_singleton _ _, ?_⟩
    intro p hp q hq
    rw [mem_singleton.mp hq]
    exact Int.le_trans (h.before hc hp).1 (h.before hc hp).2
  have hall : ∀ p ∈ x.2 ++ [c], Exact p := by
    intro p hp
    obtain hold | hnew := mem_append.mp hp
    · exact h.exact p hold
    · exact (mem_singleton.mp hnew) ▸ hexact
  obtain ⟨hcounted, hsame, hslid⟩ := slide_spec hm (unixMicro c.now)
  refine ⟨hsame.trans hmicros, hcounted, hslid.trans ?_, hsorted, hall⟩
  -- the calls before this one that were recent, and this one
  have hkept : m.live = (x.2.filter (recent w x.latest) ++ [c]).filterMap
      sample? := by
    rw [hlive, filterMap_append]
    cases c <;> rfl
  have hsub : (x.2.filter (recent w x.latest) ++ [c]).Sublist (x.2 ++ [c]) :=
    filter_sublist.append (.refl _)
  rw [hkept, dropWhile_window hcut (hsorted.sublist hsub) (fun p hp => hall p (hsub.subset hp))]
  have hlatest : latest (m.slide (unixMicro c.now), x.2 ++ [c]) = c.now := by simp [latest]
  rw [window, hlatest, filter_append, filter_filter, filter_append, filter_congr]
  intro p hp
  have hlt := h.before hc hp
  simp only [recent, Bool.and_eq_left_iff_imp, decide_eq_true_eq]
  omega

theorem step (h : Ok w x) (hw : 0 ≤ w.toInt) (hc : Forward x c) (hrep : Representable x c)
    (hstep : next x c = some x') : Ok w x' := by
  obtain ⟨hserve, hcalls⟩ := withHistory_eq_some.mp hstep
  obtain ⟨m', calls⟩ := x'
  cases hcalls
  cases c with
  | add n now =>
    cases hserve
    have hslid := h.slide hw hc hrep (h.counted.push (t := unixMicro now) hc.2.1 hc.2.2) h.micros
      (by rw [push_live h.counted.head, h.live]; rfl)
    exact ⟨(compact_spec _).2.2.trans hslid.micros, hslid.counted.compact,
      (compact_spec _).1.trans hslid.live, hslid.sorted, hslid.exact⟩
  | rate now =>
    obtain rfl : (x.1.rate now).1 = m' := Option.some.inj hserve
    rw [(rate_spec _ now).1]
    exact h.slide hw hc hrep h.counted h.micros (h.live.trans (append_nil _).symm)

end Ok

theorem start_ok (window : Int64) : Ok (newSendRateMeter window).windowMicros (start window) ∧
    0 ≤ (newSendRateMeter window).windowMicros.toInt := by
  refine ⟨⟨rfl, ⟨Nat.le_refl 0, rfl⟩, rfl, .nil, nofun⟩, ?_⟩
  show 0 ≤ (_ / 1000 : Int64).toInt
  generalize hv : (if window ≤ 0 then 1000000000 else window) = v
  have hpos : 0 < v.toInt := by
    rw [← hv]
    split
    · decide
    · next h => exact Int.not_le.mp (fun hle => h (Int64.le_iff_toInt_le.mpr hle))
  have hmax := v.toInt_lt
  have hdiv : v.toInt.tdiv 1000 = v.toInt / 1000 := Int.tdiv_eq_ediv_of_nonneg (by omega)
  rw [Int64.toInt_div, show (1000 : Int64).toInt = 1000 from rfl, hdiv,
    Int.bmod_eq_of_le (by omega) (by omega)]
  omega

theorem counted_step (h : x.1.Counted) (hc : Forward x c) (hstep : next x c = some x') :
    x'.1.Counted := by
  obtain ⟨hserve, -⟩ := withHistory_eq_some.mp hstep
  cases c with
  | add n now =>
    rw [← show x.1.add n now = x'.1 from Option.some.inj hserve]
    exact (slide_spec (h.push hc.2.1 hc.2.2) _).1.compact
  | rate now =>
    rw [← show (x.1.rate now).1 = x'.1 from Option.some.inj hserve, (rate_spec _ now).1]
    exact (slide_spec h _).1

/-- **The meter's window.** The counter is the sum of the live bytes modulo 2 ^ 64; a call
    that has room takes no more from the counter than it has, compaction changes neither,
    and no division is by zero. If times and cutoffs are values of an `int64`, the live
    samples are those of the window. -/
theorem meter_window (window : Int64) :
    (∀ x, Reachable ((ofFun (start window) next).restrict Forward) x →
      x.1.head ≤ x.1.samples.length ∧
      x.1.totalBytes.toNat = sampledBytes x.1.live % 18446744073709551616 ∧
      (∀ n now, Forward x (.add n now) →
        let m := x.1.push n (unixMicro now)
        (x.Room (.add n now) → m.Covers (unixMicro now - m.windowMicros) m.live) ∧
          (m.slide (unixMicro now)).compact.live = (m.slide (unixMicro now)).live ∧
          (m.slide (unixMicro now)).compact.totalBytes = (m.slide (unixMicro now)).totalBytes) ∧
      ∀ now, (x.Room (.rate now) → x.1.Covers (unixMicro now - x.1.windowMicros) x.1.live) ∧
        (x.1.rate now).2.isSome = true) ∧
    ∀ x, Reachable ((ofFun (start window) next).restrict Timely) x →
      x.1.live = x.window (newSendRateMeter window).windowMicros := by
  obtain ⟨hstart, hw⟩ := start_ok window
  refine ⟨fun x hx => ?_, fun x hx => ?_⟩
  · have h : x.1.Counted := by
      refine invariant_restrict (fun x : MeterRun => x.1.Counted) hstart.counted ?_ x hx
      exact fun _ _ _ _ h hc hstep => counted_step h hc hstep
    refine ⟨h.head, ?_, ?_, ?_⟩
    · rw [h.total, UInt64.toNat_ofNat']
    · intro n now hc
      have hpush := h.push (t := unixMicro now) hc.2.1 hc.2.2
      refine ⟨fun hroom => Counted.covers _ rfl hpush ?_, (compact_spec _).1, (compact_spec _).2.1⟩
      rw [push_bytes h.head hc.2.1 hc.2.2]
      exact hroom
    · intro now
      exact ⟨fun hroom => Counted.covers _ rfl h hroom, (rate_spec _ now).2⟩
  · exact (invariant_restrict (Ok _) hstart (fun _ _ _ _ h hc => h.step hw hc.1 hc.2) x hx).live

theorem meter_window_aged : ∃ x : MeterRun, x.2 = [.add 5 0, .add 7 999000, .rate 1001000] ∧
    x.1.totalBytes.toNat = 7 ∧ x.1.live = x.window 1000 := by
  have hreach : Reachable ((ofFun (start 1000000) next).restrict Timely) _ :=
    .step (.rate 1001000) (.step (.add 7 999000) (.step (.add 5 0) (.init rfl)
      ⟨⟨⟨nofun, by decide⟩, by decide⟩, rfl⟩) ⟨by decide, rfl⟩) ⟨by decide, rfl⟩
  obtain ⟨hforward, htimely⟩ := meter_window 1000000
  obtain ⟨-, htotal, -⟩ := hforward _ (hreach.mono (fun _ _ h => h.1))
  exact ⟨_, rfl, htotal.trans (by decide), htimely _ hreach⟩

/-- With a window of 1999 ns, a sample of 999 ns is gone at 2000 ns; and at the earliest
    time of an `int64` the cutoff wraps. -/
theorem meter_rounds :
    (∃ x, Reachable ((ofFun (start 1999) next).restrict Forward) x ∧
      x.2 = [.add 1 999, .rate 2000] ∧ x.1.live = []) ∧
    ∃ x, Reachable ((ofFun (start 1000000000) next).restrict Forward) x ∧
      x.2 = [.add 1 (-9223372036854775808000)] ∧ x.1.live = [] := by
  constructor
  · exact ⟨_, .step (.rate 2000) (.step (.add 1 999) (.init rfl) ⟨⟨nofun, by decide⟩, rfl⟩)
      ⟨by decide, rfl⟩, rfl, by decide⟩
  · exact ⟨_, .step (.add 1 (-9223372036854775808000)) (.init rfl) ⟨⟨nofun, by decide⟩, rfl⟩,
      rfl, by decide⟩

end MeterRun

end QuicRTC

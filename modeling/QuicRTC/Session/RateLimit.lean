import QuicRTC.Framework.TokenBucket

/-! # The Inbound Rate Limit

`session/ratelimit.go`: a bucket of units and a bucket of bytes with one time stamp. Tokens and
times are exact here. A call that finds no unit token returns before the byte bucket is refilled,
but has moved the time stamp: what that time would have brought is lost.
-/

namespace QuicRTC

open TokenBucket List

/-! ## The limiter -/

structure RateLimit where
  maxAUsPerSecond : Int
  maxBytesPerSecond : Int
  burstAUs : Int
  burstBytes : Int

/-- A burst that is not set is that of a second. -/
def RateLimit.burst (rate burst : Int) : Int := if burst ≤ 0 then rate else burst

/-- `auTokens`, `auCap`, `auRate`, or `bytesTokens`, `bytesCap`, `bytesRate`. -/
structure Bucket where
  tokens : Rat
  cap : Rat
  rate : Rat

namespace Bucket

/-- It is full. -/
def new (rate burst : Int) : Bucket :=
  let burst := RateLimit.burst rate burst
  { tokens := burst, cap := burst, rate := rate }

def refill (b : Bucket) (elapsed : Rat) : Bucket :=
  if 0 < b.rate then
    if b.cap < b.tokens + elapsed * b.rate then { b with tokens := b.cap }
    else { b with tokens := b.tokens + elapsed * b.rate }
  else b

def lacks (b : Bucket) (need : Rat) : Bool := decide (0 < b.rate ∧ b.tokens < need)

def charge (b : Bucket) (need : Rat) : Bucket :=
  if 0 < b.rate then { b with tokens := b.tokens - need } else b

end Bucket

structure RateLimiter where
  au : Bucket
  bytes : Bucket
  last : Rat

def newRateLimiter (cfg : RateLimit) (now : Rat) : RateLimiter where
  au := .new cfg.maxAUsPerSecond cfg.burstAUs
  bytes := .new cfg.maxBytesPerSecond cfg.burstBytes
  last := now

/-- The time it reads and the size of the unit. -/
structure AllowCall where
  now : Rat
  auBytes : Nat

namespace RateLimiter

def allow (l : RateLimiter) (c : AllowCall) : RateLimiter × Bool :=
  let elapsed := c.now - l.last
  let au := l.au.refill elapsed
  if au.lacks 1 then ({ l with au := au, last := c.now }, false)
  else
    let bytes := l.bytes.refill elapsed
    if bytes.lacks c.auBytes then (⟨au, bytes, c.now⟩, false)
    else (⟨au.charge 1, bytes.charge c.auBytes, c.now⟩, true)

structure Step where
  before : RateLimiter
  call : AllowCall

def Step.after (s : Step) : RateLimiter := (s.before.allow s.call).1

def Step.admitted (s : Step) : Bool := (s.before.allow s.call).2

def run (l : RateLimiter) : List AllowCall → List Step
  | [] => []
  | c :: cs => ⟨l, c⟩ :: (l.allow c).1.run cs

/-- The clock of the calls does not go back. -/
def Clocked (l : RateLimiter) (cs : List AllowCall) : Prop :=
  (l.last :: cs.map AllowCall.now).Pairwise (· ≤ ·)

end RateLimiter

/-! ## One bucket -/

namespace Bucket

structure Ok (b : Bucket) : Prop where
  rate : 0 ≤ b.rate
  tokens : 0 ≤ b.tokens
  cap : b.tokens ≤ b.cap

theorem new_ok {rate} (h : 0 ≤ rate) (burst : Int) : (new rate burst).Ok where
  rate := Int.cast_nonneg h
  tokens := by
    refine Int.cast_nonneg ?_
    unfold RateLimit.burst
    split <;> omega
  cap := le_refl _

/-- `cost` was taken. -/
structure Spends (b : Bucket) (elapsed cost : Rat) (b' : Bucket) : Prop where
  ok : b'.Ok
  cap : b'.cap = b.cap
  rate : b'.rate = b.rate
  limit : 0 < b.rate → b'.tokens + cost ≤ b.cap ∧ b'.tokens + cost ≤ b.tokens + b.rate * elapsed
  kept : cost = 0 → b.tokens ≤ b'.tokens

variable {b : Bucket} (h : b.Ok) {elapsed : Rat} (he : 0 ≤ elapsed)
include h he

theorem Ok.untouched : b.Spends elapsed 0 b where
  ok := h
  cap := rfl
  rate := rfl
  limit := by
    intro _
    have := mul_nonneg h.rate he
    have := h.cap
    constructor <;> linarith
  kept := fun _ => le_refl _

theorem Ok.refill : b.Spends elapsed 0 (b.refill elapsed) := by
  have hgain := mul_nonneg he h.rate
  have hcomm := mul_comm elapsed b.rate
  unfold Bucket.refill
  split
  · next hrate =>
    split
    · next hfull =>
      refine ⟨⟨h.rate, h.tokens.trans h.cap, le_refl _⟩, rfl, rfl, fun _ => ?_, fun _ => h.cap⟩
      constructor <;> simp only <;> linarith
    · next hroom =>
      refine ⟨⟨h.rate, add_nonneg h.tokens hgain, not_lt.mp hroom⟩, rfl, rfl, fun _ => ?_, fun _ => ?_⟩
      · constructor <;> simp only <;> linarith
      · simp only
        linarith
  · exact h.untouched he

theorem Ok.charge {need} (hneed : 0 ≤ need) (hhas : (b.refill elapsed).lacks need = false) :
    b.Spends elapsed need ((b.refill elapsed).charge need) := by
  have hre := h.refill he
  unfold Bucket.charge
  split
  · next hrate =>
    have hle : need ≤ (b.refill elapsed).tokens := by
      simpa [lacks, hrate] using hhas
    have hlimit := hre.limit (hre.rate ▸ hrate)
    have hcap := hre.ok.cap
    refine ⟨⟨hre.ok.rate, sub_nonneg.mpr hle, ?_⟩, hre.cap, hre.rate, fun _ => ?_, ?_⟩
    · simp only
      linarith
    · simpa using hlimit
    · rintro rfl
      simpa using hre.kept rfl
  · next hrate =>
    exact ⟨hre.ok, hre.cap, hre.rate, fun hpos => absurd (hre.rate ▸ hpos) hrate, fun _ => hre.kept rfl⟩

end Bucket

/-! ## Every run -/

namespace RateLimiter

structure Ok (l : RateLimiter) : Prop where
  au : l.au.Ok
  bytes : l.bytes.Ok

def cost (w : AllowCall → Nat) (s : Step) : Rat := if s.admitted then w s.call else 0

variable {l : RateLimiter} {c : AllowCall} {cs : List AllowCall}

theorem Ok.allow (h : l.Ok) (hclock : l.last ≤ c.now) :
    l.au.Spends (c.now - l.last) (cost (fun _ => 1) ⟨l, c⟩) (l.allow c).1.au ∧
      l.bytes.Spends (c.now - l.last) (cost AllowCall.auBytes ⟨l, c⟩) (l.allow c).1.bytes ∧
      (l.allow c).1.last = c.now := by
  have he := sub_nonneg.mpr hclock
  simp only [cost, Step.admitted, RateLimiter.allow]
  split
  · exact ⟨h.au.refill he, h.bytes.untouched he, rfl⟩
  · next hau =>
    split
    · exact ⟨h.au.refill he, h.bytes.refill he, rfl⟩
    · next hbytes =>
      have hone := h.au.charge he zero_le_one (Bool.eq_false_iff.mpr hau)
      rw [← Nat.cast_one] at hone
      exact ⟨hone, h.bytes.charge he (Nat.cast_nonneg _) (Bool.eq_false_iff.mpr hbytes), rfl⟩

theorem Clocked.head (h : l.Clocked (c :: cs)) : l.last ≤ c.now :=
  (pairwise_cons.mp h).1 _ mem_cons_self

theorem Clocked.tail (h : l.Clocked (c :: cs)) (hl : l.Ok) : (l.allow c).1.Clocked cs := by
  have hlast := (hl.allow h.head).2.2
  unfold Clocked
  rw [hlast]
  exact (pairwise_cons.mp h).2

theorem Ok.next (h : l.Ok) (hclock : l.last ≤ c.now) : (l.allow c).1.Ok :=
  ⟨(h.allow hclock).1.ok, (h.allow hclock).2.1.ok⟩

/-- **Step to run.** -/
theorem forall_run {P : Step → Prop} (hP : ∀ l c, Ok l → l.last ≤ c.now → P ⟨l, c⟩) (h : l.Ok)
    (hclock : l.Clocked cs) : ∀ s ∈ l.run cs, P s := by
  induction cs generalizing l with
  | nil => nofun
  | cons c cs ih =>
    intro s hs
    rcases mem_cons.mp hs with rfl | hs
    · exact hP l c h hclock.head
    · exact ih (h.next hclock.head) (hclock.tail h) s hs

/-- From time `a` to time `b`. -/
def admittedSum (w : AllowCall → Nat) (a b : Rat) : List Step → Nat
  | [] => 0
  | s :: ss =>
    (if s.admitted ∧ a ≤ s.call.now ∧ s.call.now ≤ b then w s.call else 0) + admittedSum w a b ss

def use (f : RateLimiter → Bucket) (w : AllowCall → Nat) (s : Step) : Use Rat :=
  ⟨s.call.now, cost w s, (f s.after).tokens⟩

theorem spent_use (f : RateLimiter → Bucket) (w : AllowCall → Nat) (a b : Rat) (ss : List Step) :
    spent a b (ss.map (use f w)) = admittedSum w a b ss := by
  induction ss with
  | nil => simp [spent, admittedSum]
  | cons s ss ih =>
    simp only [map_cons, spent, admittedSum, ih, use, cost, Nat.cast_add, Nat.cast_ite, Nat.cast_zero]
    cases s.admitted <;> simp

section Window

variable {f : RateLimiter → Bucket} {w : AllowCall → Nat}
  (hstep : ∀ l c, Ok l → l.last ≤ c.now →
    (f l).Spends (c.now - l.last) (cost w ⟨l, c⟩) (f (l.allow c).1))
include hstep

theorem metered_run (h : l.Ok) (hclock : l.Clocked cs) (hrate : 0 < (f l).rate) :
    Metered (f l).rate (f l).cap (f l).tokens l.last ((l.run cs).map (use f w)) := by
  induction cs generalizing l with
  | nil => trivial
  | cons c cs ih =>
    have hs := hstep l c h hclock.head
    have hrest := ih (h.next hclock.head) (hclock.tail h) (hs.rate ▸ hrate)
    rw [hs.rate, hs.cap, (h.allow hclock.head).2.2] at hrest
    have hcost : 0 ≤ cost w ⟨l, c⟩ := by
      unfold cost
      split
      · exact Nat.cast_nonneg _
      · exact le_refl _
    exact ⟨⟨hclock.head, hcost, hs.ok.tokens, (hs.limit hrate).1, (hs.limit hrate).2⟩, hrest⟩

theorem admitted_le (h : l.Ok) (hclock : l.Clocked cs) (hrate : 0 < (f l).rate)
    (hcap : 0 ≤ (f l).cap) (a : Rat) {T} (hT : 0 ≤ T) :
    (admittedSum w a (a + T) (l.run cs) : Rat) ≤ (f l).cap + (f l).rate * T := by
  have hle := spent_le (a := a) hrate.le (metered_run hstep h hclock hrate) hcap
    (le_add_of_nonneg_right hT)
  rwa [spent_use, add_sub_cancel_left] at hle

end Window

end RateLimiter

open RateLimiter

/-- **Rate bound.** -/
theorem rate_limit_bound (cfg : RateLimit) (hau : 0 ≤ cfg.maxAUsPerSecond)
    (hbytes : 0 ≤ cfg.maxBytesPerSecond) (start : Rat) {cs : List AllowCall}
    (hclock : (newRateLimiter cfg start).Clocked cs) :
    (∀ a T, 0 ≤ T →
      (0 < cfg.maxAUsPerSecond →
        (admittedSum (fun _ => 1) a (a + T) ((newRateLimiter cfg start).run cs) : Rat) ≤
          RateLimit.burst cfg.maxAUsPerSecond cfg.burstAUs + cfg.maxAUsPerSecond * T) ∧
      (0 < cfg.maxBytesPerSecond →
        (admittedSum AllowCall.auBytes a (a + T) ((newRateLimiter cfg start).run cs) : Rat) ≤
          RateLimit.burst cfg.maxBytesPerSecond cfg.burstBytes + cfg.maxBytesPerSecond * T)) ∧
    ∀ s ∈ (newRateLimiter cfg start).run cs,
      (0 ≤ s.after.au.tokens ∧ s.after.au.tokens ≤ s.after.au.cap ∧
        0 ≤ s.after.bytes.tokens ∧ s.after.bytes.tokens ≤ s.after.bytes.cap) ∧
      (s.admitted = false → s.before.au.tokens ≤ s.after.au.tokens ∧
        s.before.bytes.tokens ≤ s.after.bytes.tokens) := by
  have hok : (newRateLimiter cfg start).Ok := ⟨Bucket.new_ok hau _, Bucket.new_ok hbytes _⟩
  refine ⟨fun a T hT => ⟨fun hpos => ?_, fun hpos => ?_⟩, ?_⟩
  · exact admitted_le (f := RateLimiter.au) (fun l c h hc => (h.allow hc).1) hok hclock
      (Int.cast_pos.mpr hpos) (hok.au.tokens.trans hok.au.cap) a hT
  · exact admitted_le (f := RateLimiter.bytes) (fun l c h hc => (h.allow hc).2.1) hok hclock
      (Int.cast_pos.mpr hpos) (hok.bytes.tokens.trans hok.bytes.cap) a hT
  · refine forall_run (fun l c h hc => ?_) hok hclock
    obtain ⟨hsau, hsbytes, -⟩ := h.allow hc
    refine ⟨⟨hsau.ok.tokens, hsau.ok.cap, hsbytes.ok.tokens, hsbytes.ok.cap⟩, fun hrej => ?_⟩
    have hcost : ∀ w, cost w ⟨l, c⟩ = 0 := fun w => if_neg (by rw [hrej]; exact Bool.false_ne_true)
    exact ⟨hsau.kept (hcost _), hsbytes.kept (hcost _)⟩

/-! ## Two independent buckets -/

/-- The reference: refilled for all the time that passed. -/
def RateLimiter.allowIdeal (l : RateLimiter) (c : AllowCall) : RateLimiter × Bool :=
  let au := l.au.refill (c.now - l.last)
  let bytes := l.bytes.refill (c.now - l.last)
  if 1 ≤ au.tokens ∧ c.auBytes ≤ bytes.tokens then
    (⟨au.charge 1, bytes.charge c.auBytes, c.now⟩, true)
  else (⟨au, bytes, c.now⟩, false)

def RateLimiter.runIdeal (l : RateLimiter) : List AllowCall → List Bool
  | [] => []
  | c :: cs => (l.allowIdeal c).2 :: (l.allowIdeal c).1.runIdeal cs

/-- A call without a unit token comes at the time of the one before it, or finds the byte
    bucket full. -/
def RateLimiter.Step.NothingLost (s : Step) : Prop :=
  (s.before.au.refill (s.call.now - s.before.last)).tokens < 1 →
    s.call.now = s.before.last ∨ s.before.bytes.tokens = s.before.bytes.cap

theorem Bucket.refill_eq {b : Bucket} {elapsed} (he : 0 ≤ elapsed)
    (h : elapsed = 0 ∨ b.tokens = b.cap) (hok : b.Ok) : b.refill elapsed = b := by
  have hre := hok.refill he
  have hlevel : (b.refill elapsed).tokens = b.tokens := by
    refine le_antisymm ?_ (hre.kept rfl)
    rcases h with hzero | hfull
    · by_cases hrate : 0 < b.rate
      · subst hzero
        simpa using (hre.limit hrate).2
      · rw [Bucket.refill, if_neg hrate]
    · rw [hfull, ← hre.cap]
      exact hre.ok.cap
  obtain ⟨_, _, _⟩ := b
  generalize hb : Bucket.refill _ _ = b' at hlevel hre ⊢
  obtain ⟨_, _, _⟩ := b'
  exact Bucket.mk.injEq .. ▸ ⟨hlevel, hre.cap, hre.rate⟩

theorem RateLimiter.allow_eq_ideal {l : RateLimiter} {c : AllowCall} (h : l.Ok)
    (hclock : l.last ≤ c.now) (hau : 0 < l.au.rate) (hbytes : 0 < l.bytes.rate)
    (hlost : Step.NothingLost ⟨l, c⟩) : l.allow c = l.allowIdeal c := by
  have he := sub_nonneg.mpr hclock
  have hrau : 0 < (l.au.refill (c.now - l.last)).rate := (h.au.refill he).rate.symm ▸ hau
  have hrbytes : 0 < (l.bytes.refill (c.now - l.last)).rate := (h.bytes.refill he).rate.symm ▸ hbytes
  simp only [allow, allowIdeal, Bucket.lacks, hrau, hrbytes, true_and, decide_eq_true_eq]
  by_cases hone : (l.au.refill (c.now - l.last)).tokens < 1
  · have hsame := Bucket.refill_eq he ((hlost hone).imp_left sub_eq_zero.mpr) h.bytes
    rw [if_pos hone, if_neg (fun hw => absurd hw.1 (not_le.mpr hone)), hsame]
  · by_cases hneed : (l.bytes.refill (c.now - l.last)).tokens < c.auBytes
    · rw [if_neg hone, if_pos hneed, if_neg (fun hw => absurd hw.2 (not_le.mpr hneed))]
    · rw [if_neg hone, if_neg hneed, if_pos ⟨not_lt.mp hone, not_lt.mp hneed⟩]

theorem RateLimiter.run_eq_ideal {l : RateLimiter} {cs} (h : l.Ok) (hclock : l.Clocked cs)
    (hau : 0 < l.au.rate) (hbytes : 0 < l.bytes.rate) (hlost : ∀ s ∈ l.run cs, s.NothingLost) :
    (l.run cs).map Step.admitted = l.runIdeal cs := by
  induction cs generalizing l with
  | nil => rfl
  | cons c cs ih =>
    have heq := allow_eq_ideal h hclock.head hau hbytes (hlost _ mem_cons_self)
    obtain ⟨hsau, hsbytes, -⟩ := h.allow hclock.head
    have hrest := ih (h.next hclock.head) (hclock.tail h) (hsau.rate.symm ▸ hau)
      (hsbytes.rate.symm ▸ hbytes) (fun s hs => hlost s (mem_cons_of_mem _ hs))
    rw [run, map_cons, hrest, runIdeal, ← heq]
    rfl

/-- **Two ideal buckets**, as long as no call without a unit token costs
    the byte bucket a refill. -/
theorem limiter_is_ideal (cfg : RateLimit) (hau : 0 < cfg.maxAUsPerSecond)
    (hbytes : 0 < cfg.maxBytesPerSecond) (start : Rat) {cs : List AllowCall}
    (hclock : (newRateLimiter cfg start).Clocked cs)
    (hlost : ∀ s ∈ (newRateLimiter cfg start).run cs, s.NothingLost) :
    ((newRateLimiter cfg start).run cs).map Step.admitted = (newRateLimiter cfg start).runIdeal cs :=
  run_eq_ideal ⟨Bucket.new_ok hau.le _, Bucket.new_ok hbytes.le _⟩ hclock (Int.cast_pos.mpr hau)
    (Int.cast_pos.mpr hbytes) hlost

/-- One unit and ten bytes a second. -/
def oneAndTen : RateLimit := ⟨1, 10, 0, 0⟩

/-- The call in between is rejected and costs the byte bucket five tokens. -/
def halfway : List AllowCall := [⟨0, 10⟩, ⟨1 / 2, 1⟩, ⟨1, 10⟩]

theorem halfway_clocked : (newRateLimiter oneAndTen 0).Clocked halfway := by
  unfold Clocked
  decide +kernel

theorem rate_limit_bound_halfway :
    (admittedSum (fun _ => 1) 0 (0 + 1) ((newRateLimiter oneAndTen 0).run halfway) : Rat) ≤
      RateLimit.burst 1 0 + (1 : Int) * 1 :=
  ((rate_limit_bound oneAndTen (by decide) (by decide) 0 halfway_clocked).1 0 1 zero_le_one).1
    (by decide)

theorem limiter_is_ideal_spaced :
    ((newRateLimiter oneAndTen 0).run [⟨0, 10⟩, ⟨1, 10⟩]).map Step.admitted =
      (newRateLimiter oneAndTen 0).runIdeal [⟨0, 10⟩, ⟨1, 10⟩] := by
  refine limiter_is_ideal oneAndTen (by decide) (by decide) 0 (by unfold Clocked; decide +kernel) ?_
  unfold Step.NothingLost
  decide +kernel

theorem limiter_not_ideal : (newRateLimiter oneAndTen 0).Clocked halfway ∧
    ((newRateLimiter oneAndTen 0).run halfway).map Step.admitted = [true, false, false] ∧
      (newRateLimiter oneAndTen 0).runIdeal halfway = [true, false, true] :=
  ⟨halfway_clocked, by decide +kernel, by decide +kernel⟩

end QuicRTC

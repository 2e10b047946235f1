import QuicRTC.Framework.System
import QuicRTC.Framework.GoMap

/-! # The Idle Watchdog

A session ends with `ErrIdle` when its pumps take units for delivery and nothing gets through. The
decision is made on a ticker from two timestamps that all tracks share: `lastFeedNano`, moved by
progress in either direction, and `lastAttemptNano`, moved by every dequeue. A session that was
quiet for longer than its budget is killed at the first tick between a dequeue and the write it
leads to.
-/

namespace QuicRTC

open LTS

/-! ## The hooks and the tick -/

inductive FeedEvent where
  /-- `OnWriteAttempt`. -/
  | dequeued (track : GoString)
  /-- `OnWriteBytes`: a write of `n` bytes has succeeded. -/
  | wrote (track : GoString) (n : UInt64)
  /-- No hook runs. -/
  | skipped (track : GoString)
  /-- `drainInboundStream` has accepted a unit. -/
  | inbound (track : GoString)
deriving DecidableEq

/-- With the events the timestamps were made from. -/
structure Watchdog where
  idleTimeout : Int
  lastFeedNano : Int
  lastAttemptNano : Int
  bytesOut : UInt64
  clock : Int
  /-- The latest first. -/
  history : List (Int × FeedEvent)
  errIdle : Option Int
deriving DecidableEq

namespace Watchdog

def touchFeed (w : Watchdog) (now : Int) : Watchdog :=
  { w with lastFeedNano := now }

def touchAttempt (w : Watchdog) (now : Int) : Watchdog :=
  { w with lastAttemptNano := now }

def touchFeedAndCount (w : Watchdog) (now : Int) (n : UInt64) : Watchdog :=
  { w with bytesOut := w.bytesOut + n }.touchFeed now

def hook (w : Watchdog) (now : Int) : FeedEvent → Watchdog
  | .dequeued _ => w.touchAttempt now
  | .wrote _ n => w.touchFeedAndCount now n
  | .skipped _ => w
  | .inbound _ => w.touchFeed now

def fires (w : Watchdog) (now : Int) : Bool :=
  decide (w.lastAttemptNano > w.lastFeedNano) && decide (now - w.lastFeedNano > w.idleTimeout)

/-! ## Timed runs -/

inductive Moment where
  | event (now : Int) (e : FeedEvent)
  | tick (now : Int)
deriving DecidableEq

def observe (w : Watchdog) (now : Int) (e : FeedEvent) : Watchdog :=
  { w.hook now e with clock := now, history := (now, e) :: w.history }

def atTick (w : Watchdog) (now : Int) : Watchdog :=
  { w with clock := now, errIdle := if w.fires now then some now else none }

/-- Time does not run backwards, and `ErrIdle` ends the session. -/
def next (w : Watchdog) : Moment → Option Watchdog
  | .event now e => if w.errIdle = none ∧ w.clock ≤ now then some (w.observe now e) else none
  | .tick now => if w.errIdle = none ∧ w.clock ≤ now then some (w.atTick now) else none

/-- In nanoseconds of the Unix clock. -/
def start (idleTimeout : Int) (began : Nat) : Watchdog where
  idleTimeout := idleTimeout
  lastFeedNano := began
  lastAttemptNano := 0
  bytesOut := 0
  clock := began
  history := []
  errIdle := none

def watchdogSystem (idleTimeout : Int) (began : Nat) : System Watchdog Moment :=
  ofFun (start idleTimeout began) next

/-! ## What is pending -/

def isWrite : FeedEvent → Bool
  | .wrote _ _ => true
  | _ => false

/-- The first dequeue since the last write. -/
def waitingSince : List (Int × FeedEvent) → Option Int
  | [] => none
  | (now, .dequeued _) :: before => some ((waitingSince before).getD now)
  | (_, .wrote _ _) :: _ => none
  | (_, .skipped _) :: before => waitingSince before
  | (_, .inbound _) :: before => waitingSince before

def Unanswered (history : List (Int × FeedEvent)) (t : Int) : Prop :=
  ∃ since track before, history = since ++ (t, .dequeued track) :: before ∧
    ∀ x ∈ since, isWrite x.2 = false

/-- A unit was dequeued more than the idle budget ago and no write has succeeded since. -/
def Stalled (w : Watchdog) (now : Int) : Prop :=
  ∃ t, Unanswered w.history t ∧ t + w.idleTimeout < now

theorem Unanswered.cons {history t now e} (h : Unanswered history t) (he : isWrite e = false) :
    Unanswered ((now, e) :: history) t := by
  obtain ⟨since, track, before, rfl, hsince⟩ := h
  refine ⟨(now, e) :: since, track, before, rfl, ?_⟩
  intro x hx
  rcases List.mem_cons.mp hx with rfl | hx
  · exact he
  · exact hsince x hx

theorem unanswered_of_waitingSince {history : List (Int × FeedEvent)} {t : Int}
    (h : waitingSince history = some t) : Unanswered history t := by
  induction history with
  | nil => cases h
  | cons x before ih =>
    obtain ⟨now, e⟩ := x
    cases e with
    | dequeued track =>
      -- either an earlier dequeue is still waiting, or this event is the one
      cases hwaiting : waitingSince before with
      | none =>
        rw [waitingSince, hwaiting] at h
        cases h
        exact ⟨[], track, before, rfl, fun _ hx => (by cases hx)⟩
      | some t' =>
        rw [waitingSince, hwaiting] at h
        cases h
        exact (ih hwaiting).cons rfl
    | wrote track n => cases h
    | skipped track => exact (ih h).cons rfl
    | inbound track => exact (ih h).cons rfl

/-! ## `ErrIdle` only on stalled sessions -/

/-- Where no unit waits for a write, the next one is dequeued at most `gap` after the last
    progress; and no tick that finds an attempt since falls into the `gap` after the budget
    of that progress. -/
def steady (gap : Int) (w : Watchdog) : Moment → Bool
  | .event now (.dequeued _) =>
    (waitingSince w.history).isSome || decide (now ≤ w.lastFeedNano + gap)
  | .event _ _ => true
  | .tick now =>
    decide (w.lastAttemptNano ≤ w.lastFeedNano) || decide (now ≤ w.lastFeedNano + w.idleTimeout) ||
      decide (w.lastFeedNano + w.idleTimeout + gap < now)

/-- About the unit that waits longest. -/
structure Accurate (gap : Int) (w : Watchdog) : Prop where
  feed : w.lastFeedNano ≤ w.clock
  attempt : w.lastAttemptNano ≤ w.clock
  waiting : w.lastFeedNano < w.lastAttemptNano → ∃ t, waitingSince w.history = some t
  gap : ∀ t, waitingSince w.history = some t → t ≤ w.lastFeedNano + gap

namespace Accurate

variable {gap : Int} {w : Watchdog}

theorem init (gap idleTimeout : Int) (began : Nat) :
    Accurate gap (Watchdog.start idleTimeout began) where
  feed := le_refl _
  attempt := Int.natCast_nonneg began
  waiting := fun h => absurd h (not_lt.mpr (Int.natCast_nonneg began))
  gap := fun _ ht => (by cases ht)

theorem observe (h : Accurate gap w) {now e} (hnow : w.clock ≤ now)
    (hok : w.steady gap (.event now e) = true) : Accurate gap (w.observe now e) := by
  have hfeed := h.feed.trans hnow
  have hattempt := h.attempt.trans hnow
  cases e with
  | dequeued track =>
    refine ⟨hfeed, le_refl _, fun _ => ⟨_, rfl⟩, fun t ht => ?_⟩
    cases hwaiting : waitingSince w.history with
    | none =>
      simp only [Watchdog.observe, waitingSince, hwaiting] at ht
      cases ht
      simp only [steady, hwaiting, Option.isSome_none, Bool.false_or, decide_eq_true_eq] at hok
      exact hok
    | some t' =>
      simp only [Watchdog.observe, waitingSince, hwaiting] at ht
      cases ht
      exact h.gap t' hwaiting
  | skipped track => exact ⟨hfeed, hattempt, h.waiting, h.gap⟩
  -- progress moves the first timestamp past the second
  | wrote track n =>
    exact ⟨le_refl _, hattempt, fun hlt => absurd hlt (not_lt.mpr hattempt), fun _ ht => (by cases ht)⟩
  | inbound track =>
    refine ⟨le_refl _, hattempt, fun hlt => absurd hlt (not_lt.mpr hattempt), fun t ht => ?_⟩
    exact (h.gap t ht).trans (Int.add_le_add_right hfeed gap)

theorem atTick (h : Accurate gap w) {now} (hnow : w.clock ≤ now) : Accurate gap (w.atTick now) :=
  ⟨h.feed.trans hnow, h.attempt.trans hnow, h.waiting, h.gap⟩

theorem stalled (h : Accurate gap w) {now} (hok : w.steady gap (.tick now) = true)
    (hfires : w.fires now = true) : w.Stalled now := by
  simp only [fires, Bool.and_eq_true, decide_eq_true_eq] at hfires
  obtain ⟨hattempt, hold⟩ := hfires
  obtain ⟨t, ht⟩ := h.waiting hattempt
  have hgap := h.gap t ht
  refine ⟨t, unanswered_of_waitingSince ht, ?_⟩
  simp only [steady, Bool.or_eq_true, decide_eq_true_eq] at hok
  omega

end Accurate

structure Sound (gap : Int) (w : Watchdog) : Prop where
  accurate : Accurate gap w
  stalled : ∀ now, w.errIdle = some now → w.Stalled now

theorem sound_of_reachable {gap idleTimeout began} :
    ∀ w, Reachable ((watchdogSystem idleTimeout began).restrict
      (fun w m => w.steady gap m = true)) w → Sound gap w := by
  refine invariant_restrict _ ⟨Accurate.init gap idleTimeout began, nofun⟩ ?_
  intro w m w' _ h hok
  fun_cases w.next m <;> intro hstep <;> cases hstep
  · next now e hgo =>
    refine ⟨h.accurate.observe hgo.2 hok, fun t ht => ?_⟩
    -- no event runs after `ErrIdle`
    have herr : (w.observe now e).errIdle = none := by
      cases e <;> exact hgo.1
    exact absurd (ht.symm.trans herr) (Option.some_ne_none _)
  · next now hgo =>
    refine ⟨h.accurate.atTick hgo.2, fun t ht => ?_⟩
    simp only [atTick] at ht
    split at ht
    · next hfires =>
      cases ht
      exact h.accurate.stalled hok hfires
    · cases ht

/-- **Idle watchdog.** If the pumps keep up within some gap, a session that ended with
    `ErrIdle` was stalled at that tick. -/
theorem errIdle_only_stalled {gap idleTimeout : Int} {began : Nat} {w : Watchdog}
    (h : Reachable ((watchdogSystem idleTimeout began).restrict
      (fun w m => w.steady gap m = true)) w) {now : Int}
    (hidle : w.errIdle = some now) : w.Stalled now :=
  (sound_of_reachable w h).stalled now hidle

def blockedWrite : List Moment :=
  [.event 1000 (.dequeued (str "primary")), .event 1010 (.wrote (str "primary") 5),
    .event 1020 (.dequeued (str "primary")), .tick 1025, .tick 1050, .tick 1075, .tick 1100,
    .event 1104 (.dequeued (str "audio")), .tick 1125]

theorem errIdle_only_stalled_blockedWrite :
    ∃ w, Reachable ((watchdogSystem 100 1000).restrict (fun w m => w.steady 10 m = true)) w ∧
      w.errIdle = some 1125 ∧ w.Stalled 1125 :=
  exists_run_given_imp blockedWrite (fun w hw (hidle : w.errIdle = some 1125) =>
    ⟨hidle, errIdle_only_stalled hw hidle⟩) (by decide)

/-- Nothing to send for nine times the budget; then a unit is dequeued just before a tick.
    -/
def quietThenBusy : List Moment :=
  [.tick 1025, .tick 1500, .tick 1900, .event 1915 (.dequeued (str "primary")), .tick 1925]

/-- Its one unit was dequeued ten time units ago. -/
theorem quiet_session_killed :
    ∃ w, Reachable (watchdogSystem 100 1000) w ∧ w.errIdle = some 1925 ∧
      w.history = [(1915, .dequeued (str "primary"))] ∧ ¬ w.Stalled 1925 := by
  refine exists_run_imp quietThenBusy (fun w hw (hp : w.errIdle = some 1925 ∧ w.idleTimeout = 100 ∧
    w.history = [(1915, .dequeued (str "primary"))]) => ⟨hp.1, hp.2.2, ?_⟩) (by decide)
  obtain ⟨-, hbudget, hhist⟩ := hp
  rintro ⟨t, ⟨since, track, before, hsplit, -⟩, hold⟩
  have hmem : (t, FeedEvent.dequeued track) ∈ w.history := by
    rw [hsplit]
    exact List.mem_append_right _ List.mem_cons_self
  rw [hhist, List.mem_singleton, Prod.mk.injEq] at hmem
  omega

end Watchdog

end QuicRTC

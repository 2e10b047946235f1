import Mathlib.Data.List.Perm.Basic
import QuicRTC.Framework.GoMap

/-! # The Receiving Side of a Track in the TypeScript SDK

`TrackReceiver` of `ts-sdk/src/client.ts`. An access unit goes to the oldest pending `recv`, else to
the callback, else into a queue whose oldest entry is dropped when it is full. A method returns the
new receiver and the events the rest of the program sees, in order.
-/

namespace QuicRTC.Sdk

open List Option

/-! ## Data -/

inductive Rejection where
  | clientError (message code : GoString)
  | abortError (message : GoString)
deriving DecidableEq

def trackClosed : Rejection := .clientError (str "track closed") (str "closed")

def aborted : Rejection := .abortError (str "aborted")

def recvTimeout (name : GoString) : Rejection :=
  .clientError (str "recv timeout on track \"" ++ name ++ str "\"") (str "recv_timeout")

/-- Which call it is, and whether it has a timer and a signal. -/
structure Waiter where
  call : Nat
  timed : Bool
  abortable : Bool
deriving DecidableEq

inductive Event (α : Type) where
  | resolved (call : Nat) (au : α)
  | rejected (call : Nat) (err : Rejection)
  | passed (callback : Nat) (au : α)
  | dropped (au : α)
  /-- Still queued when `close` emptied the queue. -/
  | discarded (au : α)
  /-- Delivered after `close`. -/
  | ignored (au : α)
deriving DecidableEq

structure TrackReceiver (α : Type) where
  name : GoString
  maxQueueSize : Int
  droppedAUs : Nat
  onAUCallback : Option Nat
  queue : List α
  waiters : List Waiter
  closed : Bool
deriving DecidableEq

namespace TrackReceiver

variable {α : Type}

/-! ## Methods -/

def new (name : GoString) (maxQueueSize : Int) : TrackReceiver α where
  name := name
  maxQueueSize := maxQueueSize
  droppedAUs := 0
  onAUCallback := none
  queue := []
  waiters := []
  closed := false

/-- `isAborted` is `signal?.aborted`. -/
def recv (r : TrackReceiver α) (w : Waiter) (isAborted : Bool) : TrackReceiver α × List (Event α) :=
  if r.closed then (r, [.rejected w.call trackClosed])
  else if isAborted then (r, [.rejected w.call aborted])
  else
    match r.queue with
    | au :: rest => ({ r with queue := rest }, [.resolved w.call au])
    | [] => ({ r with waiters := r.waiters ++ [w] }, [])

def giveUp (r : TrackReceiver α) (w : Waiter) (err : Rejection) : TrackReceiver α × List (Event α) :=
  ({ r with waiters := r.waiters.erase w }, [.rejected w.call err])

/-- It is cleared when the promise settles. -/
def timeout (r : TrackReceiver α) (w : Waiter) : Option (TrackReceiver α × List (Event α)) :=
  if w ∈ r.waiters ∧ w.timed then some (r.giveUp w (recvTimeout r.name)) else none

/-- The listener goes when the promise settles. -/
def abort (r : TrackReceiver α) (w : Waiter) : Option (TrackReceiver α × List (Event α)) :=
  if w ∈ r.waiters ∧ w.abortable then some (r.giveUp w aborted) else none

def onAU (r : TrackReceiver α) (callback : Nat) : TrackReceiver α × List (Event α) :=
  ({ r with onAUCallback := some callback, queue := [] }, r.queue.map (.passed callback))

/-- Nobody waits. -/
def enqueue (r : TrackReceiver α) (au : α) : TrackReceiver α × List (Event α) :=
  if r.maxQueueSize ≤ r.queue.length then
    -- `shift` on an empty queue does nothing, and is counted too.
    ({ r with queue := r.queue.tail ++ [au], droppedAUs := r.droppedAUs + 1 },
      r.queue.head?.toList.map .dropped)
  else ({ r with queue := r.queue ++ [au] }, [])

def deliver (r : TrackReceiver α) (au : α) : TrackReceiver α × List (Event α) :=
  if r.closed then (r, [.ignored au])
  else
    match r.waiters with
    | w :: rest => ({ r with waiters := rest }, [.resolved w.call au])
    | [] =>
      match r.onAUCallback with
      | some callback => (r, [.passed callback au])
      | none => r.enqueue au

def close (r : TrackReceiver α) : TrackReceiver α × List (Event α) :=
  if r.closed then (r, [])
  else
    ({ r with closed := true, waiters := [], queue := [], onAUCallback := none },
      r.waiters.map (fun w => .rejected w.call trackClosed) ++ r.queue.map .discarded)

/-- It makes the queue shorter, once; `maxQueueSize` keeps its value. -/
def setMaxQueueSize (r : TrackReceiver α) (size : Nat) : TrackReceiver α × List (Event α) :=
  ({ r with
      queue := r.queue.drop (r.queue.length - size)
      droppedAUs := r.droppedAUs + (r.queue.length - size) },
    (r.queue.take (r.queue.length - size)).map .dropped)

end TrackReceiver

/-! ## What becomes of the access units -/

namespace Event

variable {α : Type}

/-- Handed to the application, or counted as dropped. -/
def settled : Event α → Option α
  | .resolved _ au => some au
  | .passed _ au => some au
  | .dropped au => some au
  | _ => none

/-- Gone without a trace. -/
def lost : Event α → Option α
  | .discarded au => some au
  | .ignored au => some au
  | _ => none

def isDropped : Event α → Bool
  | .dropped _ => true
  | _ => false

theorem filterMap_map_none {β γ δ} {f : β → γ} {g : γ → Option δ} (h : ∀ x, g (f x) = none)
    (l : List β) : (l.map f).filterMap g = [] := by
  rw [filterMap_map]
  exact filterMap_eq_nil_iff.mpr (fun x _ => h x)

theorem filterMap_map_some {f : α → Event α} {g : Event α → Option α} (h : ∀ x, g (f x) = some x)
    (l : List α) : (l.map f).filterMap g = l := by
  rw [filterMap_map]
  exact (filterMap_congr (fun x _ => h x)).trans filterMap_some

theorem countP_map_false {β} {f : β → Event α} (h : ∀ x, isDropped (f x) = false) (l : List β) :
    (l.map f).countP isDropped = 0 := by
  rw [countP_map]
  exact countP_eq_zero.mpr (fun x _ => Bool.eq_false_iff.mp (h x))

end Event

namespace TrackReceiver

variable {α : Type}

/-- What was queued or has arrived is settled, lost or queued, and what was dropped has been
    counted. -/
structure Conserves (r : TrackReceiver α) (arrived : List α) (res : TrackReceiver α × List (Event α)) :
    Prop where
  units : (r.queue ++ arrived).Perm
              (res.2.filterMap Event.settled ++ res.2.filterMap Event.lost ++ res.1.queue)
  counted : r.droppedAUs + res.2.countP Event.isDropped ≤ res.1.droppedAUs

variable (r : TrackReceiver α)

theorem recv_conserves (w : Waiter) (isAborted : Bool) : Conserves r [] (r.recv w isAborted) := by
  unfold recv
  split
  · exact ⟨Perm.of_eq (append_nil _), Nat.le_refl _⟩
  · split
    · exact ⟨Perm.of_eq (append_nil _), Nat.le_refl _⟩
    · split
      · next au rest hqueue =>
        refine ⟨Perm.of_eq ?_, Nat.le_refl _⟩
        rw [hqueue, append_nil]
        rfl
      · exact ⟨Perm.of_eq (append_nil _), Nat.le_refl _⟩

theorem giveUp_conserves (w : Waiter) (err : Rejection) : Conserves r [] (r.giveUp w err) :=
  ⟨Perm.of_eq (append_nil _), Nat.le_refl _⟩

theorem giveUp_of_timeout {w res} (h : r.timeout w = some res) : ∃ err, res = r.giveUp w err := by
  obtain ⟨-, h⟩ := ite_none_right_eq_some.mp h
  exact ⟨_, (some.inj h).symm⟩

theorem giveUp_of_abort {w res} (h : r.abort w = some res) : ∃ err, res = r.giveUp w err := by
  obtain ⟨-, h⟩ := ite_none_right_eq_some.mp h
  exact ⟨_, (some.inj h).symm⟩

theorem onAU_conserves (callback : Nat) : Conserves r [] (r.onAU callback) := by
  refine ⟨Perm.of_eq ?_, ?_⟩
  · simp only [onAU]
    rw [Event.filterMap_map_some (fun _ => rfl), Event.filterMap_map_none (fun _ => rfl), append_nil,
      append_nil]
  · simp only [onAU]
    rw [Event.countP_map_false (fun _ => rfl)]
    exact Nat.le_refl _

theorem enqueue_conserves (au : α) : Conserves r [au] (r.enqueue au) := by
  unfold enqueue
  split
  · cases hqueue : r.queue with
    | nil =>
      refine ⟨Perm.of_eq ?_, Nat.le_succ _⟩
      rw [hqueue]
      rfl
    | cons x rest =>
      refine ⟨Perm.of_eq ?_, Nat.le_refl _⟩
      rw [hqueue]
      rfl
  · exact ⟨Perm.refl _, Nat.le_refl _⟩

theorem deliver_conserves (au : α) : Conserves r [au] (r.deliver au) := by
  unfold deliver
  split
  · exact ⟨perm_append_comm, Nat.le_refl _⟩
  · split
    · exact ⟨perm_append_comm, Nat.le_refl _⟩
    · split
      · exact ⟨perm_append_comm, Nat.le_refl _⟩
      · exact enqueue_conserves r au

theorem close_conserves : Conserves r [] r.close := by
  unfold close
  split
  · exact ⟨Perm.of_eq (append_nil _), Nat.le_refl _⟩
  · refine ⟨Perm.of_eq ?_, ?_⟩
    · simp only [filterMap_append]
      rw [Event.filterMap_map_none (fun _ => rfl), Event.filterMap_map_none (fun _ => rfl),
        Event.filterMap_map_none (fun _ => rfl), Event.filterMap_map_some (fun _ => rfl), append_nil,
        append_nil]
      rfl
    · simp only [countP_append]
      rw [Event.countP_map_false (fun _ => rfl), Event.countP_map_false (fun _ => rfl)]
      exact Nat.le_refl _

theorem deliver_lost {au : α} (h : r.closed = false) : (r.deliver au).2.filterMap Event.lost = [] := by
  unfold deliver
  rw [if_neg (by rw [h]; exact Bool.false_ne_true)]
  split
  · rfl
  · split
    · rfl
    · unfold enqueue
      split
      · cases r.queue <;> rfl
      · rfl

theorem recv_lost (w : Waiter) (isAborted : Bool) : (r.recv w isAborted).2.filterMap Event.lost = [] := by
  unfold recv
  split
  · rfl
  · split
    · rfl
    · split <;> rfl

theorem close_lost (h : r.queue = []) : r.close.2.filterMap Event.lost = [] := by
  unfold close
  split
  · rfl
  · rw [h, map_nil, append_nil]
    exact Event.filterMap_map_none (fun _ => rfl) _

end TrackReceiver

end QuicRTC.Sdk

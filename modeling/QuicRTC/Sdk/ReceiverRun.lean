import QuicRTC.Framework.System
import QuicRTC.Sdk.TrackReceiver

/-! # Runs of a TypeScript Receiver

Units and calls come in, timers and signals of pending calls fire, and the receiver is closed. A
method runs to its end, and the callback does not call back.

Every unit is stamped with its position in the order of delivery, and every `recv` with its number.
-/

namespace QuicRTC.Sdk

open LTS List

/-- `delivered` has the units delivered before `close`, and `limit` is the queue size asked
    for last. -/
structure ReceiverRun (β : Type) where
  r : TrackReceiver (Nat × β)
  calls : Nat
  delivered : List (Nat × β)
  log : List (Event (Nat × β))
  limit : Int

namespace ReceiverRun

variable {β : Type}

def start (name : GoString) (maxQueueSize : Int) : ReceiverRun β :=
  ⟨.new name maxQueueSize, 0, [], [], maxQueueSize⟩

inductive Label (β : Type) where
  | deliver (au : β)
  | recv (timed abortable isAborted : Bool)
  | timeout (w : Waiter)
  | abort (w : Waiter)
  | onAU (callback : Nat)
  | close
  | setMaxQueueSize (size : Nat)

def after (s : ReceiverRun β) (res : TrackReceiver (Nat × β) × List (Event (Nat × β))) :
    ReceiverRun β :=
  { s with r := res.1, log := s.log ++ res.2 }

def next (s : ReceiverRun β) : Label β → Option (ReceiverRun β)
  | .deliver au =>
    let x := (s.delivered.length, au)
    some { s.after (s.r.deliver x) with
      delivered := if s.r.closed then s.delivered else s.delivered ++ [x] }
  | .recv timed abortable isAborted =>
    some { s.after (s.r.recv ⟨s.calls, timed, abortable⟩ isAborted) with calls := s.calls + 1 }
  | .timeout w => (s.r.timeout w).map s.after
  | .abort w => (s.r.abort w).map s.after
  | .onAU callback => some (s.after (s.r.onAU callback))
  | .close => some (s.after s.r.close)
  | .setMaxQueueSize size => some { s.after (s.r.setMaxQueueSize size) with limit := size }

end ReceiverRun

def receiverSystem (β : Type) (name : GoString) (maxQueueSize : Int) :
    System (ReceiverRun β) (ReceiverRun.Label β) :=
  ofFun (ReceiverRun.start name maxQueueSize) ReceiverRun.next

/-! ## What the log says -/

namespace Event

variable {α : Type}

def unit : Event α → Option α
  | .resolved _ au => some au
  | .passed _ au => some au
  | .dropped au => some au
  | .discarded au => some au
  | _ => none

def handed : Event α → Option α
  | .resolved _ au => some au
  | .passed _ au => some au
  | _ => none

def served : Event α → Option Nat
  | .resolved call _ => some call
  | _ => none

def settles : Event α → Option Nat
  | .resolved call _ => some call
  | .rejected call _ => some call
  | _ => none

end Event

/-! ## One method -/

namespace TrackReceiver

variable {α : Type}

/-- Nobody waits while units are queued, and a callback or `close` leaves none. -/
structure Fit (r : TrackReceiver α) : Prop where
  apart : r.waiters = [] ∨ r.queue = []
  callback : r.onAUCallback ≠ none → r.queue = []
  closed : r.closed = true → r.waiters = [] ∧ r.queue = []
  size : 1 ≤ r.maxQueueSize

/-- Where units and promises are afterwards: those in the queue and those that wait,
    `arrived` and `asked`. -/
structure Moves (r : TrackReceiver α) (arrived : List α) (asked : List Nat)
    (res : TrackReceiver α × List (Event α)) : Prop where
  units : (res.2.filterMap Event.unit ++ res.1.queue).Perm (r.queue ++ arrived)
  order : (res.2.filterMap Event.handed ++ res.1.queue).Sublist (r.queue ++ arrived)
  served : (res.2.filterMap Event.served ++ res.1.waiters.map Waiter.call).Sublist
              (r.waiters.map Waiter.call ++ asked)
  promises : (res.2.filterMap Event.settles ++ res.1.waiters.map Waiter.call).Perm
              (r.waiters.map Waiter.call ++ asked)
  counted : res.1.droppedAUs = r.droppedAUs + res.2.countP Event.isDropped
  fit : res.1.Fit
  limit : res.1.maxQueueSize = r.maxQueueSize

variable {r : TrackReceiver α} (h : r.Fit)
include h

theorem Fit.reject (call : Nat) (err : Rejection) : Moves r [] [call] (r, [.rejected call err]) where
  units := Perm.of_eq (append_nil _).symm
  order := (append_nil r.queue).symm ▸ .refl _
  served := sublist_append_left _ _
  promises := (perm_append_singleton _ _).symm
  counted := rfl
  fit := h
  limit := rfl

theorem Fit.recv (w : Waiter) (isAborted : Bool) : Moves r [] [w.call] (r.recv w isAborted) := by
  unfold TrackReceiver.recv
  split
  · exact h.reject _ _
  · next hopen =>
    split
    · exact h.reject _ _
    · split
      · next au rest hqueue =>
        have hwait : r.waiters = [] := h.apart.resolve_right (by rw [hqueue]; exact cons_ne_nil _ _)
        refine ⟨?_, ?_, ?_, ?_, rfl, ⟨.inl hwait, fun hcb => ?_, fun hc => absurd hc hopen, h.size⟩, rfl⟩
        · rw [hqueue, append_nil]; exact .refl _
        · rw [hqueue, append_nil]; exact .refl _
        · rw [hwait]; exact .refl _
        · rw [hwait]; exact .refl _
        · rw [h.callback hcb] at hqueue; cases hqueue
      · next hqueue =>
        refine ⟨Perm.of_eq (append_nil _).symm, (append_nil r.queue).symm ▸ .refl _, ?_, ?_, rfl,
          ⟨.inr hqueue, h.callback, fun hc => absurd hc hopen, h.size⟩, rfl⟩
        · rw [map_append]; exact .refl _
        · rw [map_append]; exact .refl _

theorem Fit.giveUp {w} (hw : w ∈ r.waiters) (err : Rejection) :
    Moves r [] [] (r.giveUp w err) where
  units := Perm.of_eq (append_nil _).symm
  order := (append_nil r.queue).symm ▸ .refl _
  served := by
    rw [append_nil]
    exact (erase_sublist).map _
  promises := by
    rw [append_nil]
    exact ((perm_cons_erase hw).map _).symm
  counted := rfl
  fit := ⟨.inr (h.apart.resolve_left (ne_nil_of_mem hw)), h.callback,
    fun hc => absurd hw ((h.closed hc).1 ▸ not_mem_nil), h.size⟩
  limit := rfl

theorem Fit.onAU (callback : Nat) : Moves r [] [] (r.onAU callback) where
  units := by
    simp only [TrackReceiver.onAU]
    rw [Event.filterMap_map_some (fun _ => rfl)]
  order := by
    simp only [TrackReceiver.onAU]
    rw [Event.filterMap_map_some (fun _ => rfl)]
  served := by
    simp only [TrackReceiver.onAU]
    rw [Event.filterMap_map_none (fun _ => rfl), append_nil, nil_append]
  promises := by
    simp only [TrackReceiver.onAU]
    rw [Event.filterMap_map_none (fun _ => rfl), append_nil, nil_append]
  counted := by
    simp only [TrackReceiver.onAU]
    rw [Event.countP_map_false (fun _ => rfl)]
    rfl
  fit := ⟨.inr rfl, fun _ => rfl, fun hc => ⟨(h.closed hc).1, rfl⟩, h.size⟩
  limit := rfl

theorem Fit.drop (n : Nat) (hn : n ≤ r.queue.length) :
    Moves r [] [] ({ r with queue := r.queue.drop n, droppedAUs := r.droppedAUs + n },
      (r.queue.take n).map .dropped) where
  units := by
    simp only
    rw [Event.filterMap_map_some (fun _ => rfl), take_append_drop, append_nil]
  order := by
    simp only
    rw [Event.filterMap_map_none (fun _ => rfl), append_nil]
    exact drop_sublist _ _
  served := by
    simp only
    rw [Event.filterMap_map_none (fun _ => rfl), append_nil]
    exact .refl _
  promises := by
    simp only
    rw [Event.filterMap_map_none (fun _ => rfl), append_nil]
    exact .refl _
  counted := by
    simp only
    have hall : ((r.queue.take n).map Event.dropped).countP Event.isDropped = (r.queue.take n).length :=
      countP_map.trans (countP_eq_length.mpr (fun _ _ => rfl))
    rw [hall, length_take, Nat.min_eq_left hn]
  fit := ⟨h.apart.imp_right (fun hq => by simp [hq]), fun hcb => by simp [h.callback hcb],
    fun hc => ⟨(h.closed hc).1, by simp [(h.closed hc).2]⟩, h.size⟩
  limit := rfl

theorem Fit.deliver (hopen : ¬ r.closed = true) (au : α) : Moves r [au] [] (r.deliver au) := by
  unfold TrackReceiver.deliver
  rw [if_neg hopen]
  split
  · next w rest hwait =>
    have hqueue : r.queue = [] := h.apart.resolve_left (by rw [hwait]; exact cons_ne_nil _ _)
    refine ⟨?_, ?_, ?_, ?_, rfl, ⟨.inr hqueue, h.callback, fun hc => absurd hc hopen, h.size⟩, rfl⟩
    · rw [hqueue]; exact .refl _
    · rw [hqueue]; exact .refl _
    · rw [hwait, append_nil]; exact .refl _
    · rw [hwait, append_nil]; exact .refl _
  · next hwait =>
    split
    · next callback hcb =>
      have hqueue : r.queue = [] := h.callback (by rw [hcb]; exact Option.some_ne_none _)
      refine ⟨?_, ?_, ?_, ?_, rfl, h, rfl⟩
      · rw [hqueue]; exact .refl _
      · rw [hqueue]; exact .refl _
      · rw [append_nil]; exact .refl _
      · rw [append_nil]; exact .refl _
    · next hcb =>
      have hfit (q : List α) (n : Nat) : Fit { r with queue := q, droppedAUs := n } :=
        ⟨.inl hwait, fun hne => absurd hcb hne, fun hc => absurd hc hopen, h.size⟩
      unfold enqueue
      split
      · next hfull =>
        match hqueue : r.queue, hfull with
        | [], hfull => exact absurd hfull (by have := h.size; simp only [length_nil]; omega)
        | x :: rest, _ =>
          refine ⟨?_, ?_, ?_, ?_, rfl, hfit _ _, rfl⟩
          · rw [hqueue]; exact .refl _
          · rw [hqueue]; exact sublist_cons_self _ _
          · rw [append_nil]; exact .refl _
          · rw [append_nil]; exact .refl _
      · refine ⟨.refl _, .refl _, ?_, ?_, rfl, hfit _ _, rfl⟩
        · rw [append_nil]; exact .refl _
        · rw [append_nil]; exact .refl _

theorem Fit.close : Moves r [] [] r.close := by
  unfold TrackReceiver.close
  split
  · refine ⟨?_, ?_, ?_, ?_, rfl, h, rfl⟩ <;> rw [append_nil] <;> exact .refl _
  · refine ⟨?_, ?_, ?_, ?_, ?_, ⟨.inl rfl, fun _ => rfl, fun _ => ⟨rfl, rfl⟩, h.size⟩, rfl⟩
    · rw [filterMap_append, Event.filterMap_map_none (fun _ => rfl),
        Event.filterMap_map_some (fun _ => rfl)]
      exact .refl _
    · rw [filterMap_append, Event.filterMap_map_none (fun _ => rfl),
        Event.filterMap_map_none (fun _ => rfl)]
      exact nil_sublist _
    · rw [filterMap_append, Event.filterMap_map_none (fun _ => rfl),
        Event.filterMap_map_none (fun _ => rfl)]
      exact nil_sublist _
    · have hreject : (r.waiters.map (fun w => Event.rejected (α := α) w.call trackClosed)).filterMap
          Event.settles = r.waiters.map Waiter.call :=
        filterMap_map.trans (congrFun filterMap_eq_map _)
      rw [filterMap_append, hreject, Event.filterMap_map_none (fun _ => rfl), append_nil]
      exact Perm.of_eq (append_nil _)
    · rw [countP_append, Event.countP_map_false (fun _ => rfl), Event.countP_map_false (fun _ => rfl)]
      rfl

theorem Fit.ignore (au : α) : Moves r [] [] (r, [.ignored au]) := by
  refine ⟨?_, ?_, ?_, ?_, rfl, h, rfl⟩ <;> rw [append_nil] <;> exact .refl _

omit h in
theorem Moves.length_le {res asked} (hm : Moves r [] asked res) :
    res.1.queue.length ≤ r.queue.length := by
  have hlen := ((sublist_append_right _ _).trans hm.order).length_le
  rwa [append_nil] at hlen

theorem Fit.deliver_length (au : α) (hlen : (r.queue.length : Int) ≤ r.maxQueueSize) :
    ((r.deliver au).1.queue.length : Int) ≤ r.maxQueueSize := by
  unfold TrackReceiver.deliver
  split
  · exact hlen
  · split
    · exact hlen
    · split
      · exact hlen
      · have := h.size
        unfold enqueue
        split
        · simp only [length_append, length_tail, length_singleton]
          omega
        · simp only [length_append, length_singleton]
          omega

end TrackReceiver

namespace ReceiverRun

variable {β : Type}

/-! ## A run -/

/-- The log and the queue have the units delivered before `close`; the log and the waiters
    have the calls. -/
structure Kept (maxQueueSize : Int) (s : ReceiverRun β) : Prop where
  units : (s.log.filterMap Event.unit ++ s.r.queue).Perm s.delivered
  stamps : s.delivered.map Prod.fst = range s.delivered.length
  order : ((s.log.filterMap Event.handed ++ s.r.queue).map Prod.fst).Pairwise (· < ·)
  served : (s.log.filterMap Event.served ++ s.r.waiters.map Waiter.call).Pairwise (· < ·)
  promises : (s.log.filterMap Event.settles ++ s.r.waiters.map Waiter.call).Perm (range s.calls)
  counted : s.r.droppedAUs = s.log.countP Event.isDropped
  fit : s.r.Fit
  size : s.r.maxQueueSize = maxQueueSize
  short : (s.r.queue.length : Int) ≤ maxQueueSize

theorem filterMap_sublist_of {α γ : Type} {f g : α → Option γ} (h : ∀ x y, f x = some y → g x = some y)
    (l : List α) : (l.filterMap f).Sublist (l.filterMap g) := by
  induction l with
  | nil => exact .refl _
  | cons x l ih =>
    cases hf : f x with
    | none =>
      rw [filterMap_cons_none hf]
      exact ih.trans ((sublist_cons_self x l).filterMap g)
    | some y =>
      rw [filterMap_cons_some hf, filterMap_cons_some (h x y hf)]
      exact ih.cons_cons y

theorem pairwise_append_range' {l : List Nat} {n} (hl : l.Pairwise (· < ·)) (hlt : ∀ a ∈ l, a < n)
    (k : Nat) : (l ++ range' n k).Pairwise (· < ·) := by
  refine pairwise_append.mpr ⟨hl, pairwise_lt_range', fun a ha b hb => ?_⟩
  exact Nat.lt_of_lt_of_le (hlt a ha) (mem_range'_1.mp hb).1

theorem range_append_range' (n k : Nat) : range n ++ range' n k = range (n + k) := by
  rw [range_eq_range', range_eq_range', ← range'_append_1, Nat.zero_add]

section

variable {maxQueueSize : Int} {s t : ReceiverRun β} (h : s.Kept maxQueueSize)
include h

variable {res : TrackReceiver (Nat × β) × List (Event (Nat × β))}

/-- One lemma for all methods: `arrived` and `asked` are stamped in the order of the run. -/
theorem Kept.moved {arrived asked} (hm : s.r.Moves arrived asked res)
    (hshort : (res.1.queue.length : Int) ≤ s.r.maxQueueSize)
    (harrived : arrived.map Prod.fst = range' s.delivered.length arrived.length)
    (hasked : asked = range' s.calls asked.length) (limit : Int) :
    Kept maxQueueSize ⟨res.1, s.calls + asked.length, s.delivered ++ arrived, s.log ++ res.2, limit⟩ where
  units := by
    rw [filterMap_append, append_assoc]
    calc s.log.filterMap Event.unit ++ (res.2.filterMap Event.unit ++ res.1.queue)
      _ ~ s.log.filterMap Event.unit ++ (s.r.queue ++ arrived) := hm.units.append_left _
      _ ~ s.delivered ++ arrived := append_assoc .. ▸ h.units.append_right arrived
  stamps := by
    rw [map_append, h.stamps, harrived, length_append, range_append_range']
  order := by
    have hlt (n : Nat) (hn : n ∈ (s.log.filterMap Event.handed ++ s.r.queue).map Prod.fst) :
        n < s.delivered.length := by
      have hunit : ∀ e x, Event.handed (α := Nat × β) e = some x → e.unit = some x := by
        rintro ⟨⟩ x hx <;> first | exact hx | cases hx
      have hsub := ((filterMap_sublist_of hunit s.log).append_right s.r.queue).map Prod.fst
      have hmem := (h.units.map Prod.fst).subset (hsub.subset hn)
      rw [h.stamps] at hmem
      exact mem_range.mp hmem
    rw [filterMap_append, append_assoc]
    refine Pairwise.sublist ((hm.order.append_left _).map _) ?_
    rw [← append_assoc, map_append, harrived]
    exact pairwise_append_range' h.order hlt _
  served := by
    have hlt (n : Nat) (hn : n ∈ s.log.filterMap Event.served ++ s.r.waiters.map Waiter.call) :
        n < s.calls := by
      have hsettles : ∀ e n, Event.served (α := Nat × β) e = some n → e.settles = some n := by
        rintro ⟨⟩ n hn <;> first | exact hn | cases hn
      have hsub := (filterMap_sublist_of hsettles s.log).append_right (s.r.waiters.map Waiter.call)
      exact mem_range.mp (h.promises.subset (hsub.subset hn))
    rw [filterMap_append, append_assoc]
    refine Pairwise.sublist (hm.served.append_left _) ?_
    rw [← append_assoc, hasked]
    exact pairwise_append_range' h.served hlt _
  promises := by
    rw [filterMap_append, append_assoc, ← range_append_range', ← hasked]
    calc s.log.filterMap Event.settles ++ (res.2.filterMap Event.settles ++ res.1.waiters.map Waiter.call)
      _ ~ s.log.filterMap Event.settles ++ (s.r.waiters.map Waiter.call ++ asked) :=
        hm.promises.append_left _
      _ ~ range s.calls ++ asked := append_assoc .. ▸ h.promises.append_right asked
  counted := by
    rw [countP_append, ← h.counted]
    exact hm.counted
  fit := hm.fit
  size := hm.limit.trans h.size
  short := h.size ▸ hshort

theorem Kept.short_of_moves {asked} (hm : s.r.Moves [] asked res) :
    (res.1.queue.length : Int) ≤ s.r.maxQueueSize := by
  have := hm.length_le
  have := h.short
  have := h.size
  omega

theorem Kept.quiet (hm : s.r.Moves [] [] res) (limit : Int) :
    Kept maxQueueSize { s.after res with limit := limit } := by
  have hmoved := h.moved hm (h.short_of_moves hm) rfl rfl limit
  rwa [append_nil] at hmoved

theorem Kept.next (l : Label β) : s.next l = some t → t.Kept maxQueueSize := by
  fun_cases s.next l <;> intro hnext
  all_goals try cases hnext
  · split
    · next hclosed =>
      rw [TrackReceiver.deliver, if_pos hclosed]
      exact h.quiet (h.fit.ignore _) _
    · next hopen =>
      exact h.moved (h.fit.deliver hopen _) (h.fit.deliver_length _ (h.size ▸ h.short)) rfl rfl _
  · next timed abortable isAborted =>
    have hm := h.fit.recv ⟨s.calls, timed, abortable⟩ isAborted
    have hmoved := h.moved hm (h.short_of_moves hm) rfl rfl s.limit
    rwa [append_nil] at hmoved
  · obtain ⟨res, hres, rfl⟩ := Option.map_eq_some_iff.mp hnext
    obtain ⟨⟨hw, -⟩, rfl⟩ := of_guard hres
    exact h.quiet (h.fit.giveUp hw _) _
  · obtain ⟨res, hres, rfl⟩ := Option.map_eq_some_iff.mp hnext
    obtain ⟨⟨hw, -⟩, rfl⟩ := of_guard hres
    exact h.quiet (h.fit.giveUp hw _) _
  · exact h.quiet (h.fit.onAU _) _
  · exact h.quiet h.fit.close _
  · exact h.quiet (h.fit.drop _ (Nat.sub_le _ _)) _

end

theorem kept {name maxQueueSize} (hsize : 1 ≤ maxQueueSize) :
    ∀ s, Reachable (receiverSystem β name maxQueueSize) s → s.Kept maxQueueSize := by
  refine invariant_ofFun _ ?_ (fun _ l _ _ h hstep => h.next l hstep)
  exact ⟨.refl _, rfl, .nil, .nil, .refl _, rfl, ⟨.inl rfl, fun _ => rfl, fun _ => ⟨rfl, rfl⟩, hsize⟩,
    rfl, Int.le_trans (by decide : (0 : Int) ≤ 1) hsize⟩

/-- **Conservation and order.** The units delivered before `close` are those returned,
    passed, counted as dropped, discarded or queued. Consumers get units in the order of
    delivery, pending calls are served in the order of the calls, and after `close` nobody
    waits. -/
theorem receiver_conserves (name : GoString) {maxQueueSize : Int} (hsize : 1 ≤ maxQueueSize) :
    ∀ s, Reachable (receiverSystem β name maxQueueSize) s →
      (s.log.filterMap Event.unit ++ s.r.queue).Perm s.delivered ∧ s.delivered.Nodup ∧
      s.r.droppedAUs = s.log.countP Event.isDropped ∧
      ((s.log.filterMap Event.handed).map Prod.fst).Pairwise (· < ·) ∧
      (s.log.filterMap Event.served ++ s.r.waiters.map Waiter.call).Pairwise (· < ·) ∧
      (s.r.waiters = [] ∨ s.r.queue = []) ∧
      (s.log.filterMap Event.settles ++ s.r.waiters.map Waiter.call).Perm (range s.calls) ∧
      (s.r.closed = true → s.r.waiters = []) := by
  intro s hs
  have h := kept hsize s hs
  have hnodup : s.delivered.Nodup := Nodup.of_map _ (h.stamps ▸ nodup_range)
  exact ⟨h.units, hnodup, h.counted, h.order.sublist ((sublist_append_left _ _).map _), h.served,
    h.fit.apart, h.promises, fun hc => (h.fit.closed hc).1⟩

/-- One unit returned, one dropped and one queued at `close`. -/
theorem receiver_conserves_closed :
    ∃ s : ReceiverRun Nat, s.log =
        [.resolved 0 (0, 7), .dropped (1, 8), .rejected 1 aborted, .discarded (2, 9)] ∧
      s.log.filterMap Event.unit ++ s.r.queue ~ s.delivered := by
  have hrun : ∃ s, Reachable (receiverSystem Nat [] 1) s ∧ s.log =
      [.resolved 0 (0, 7), .dropped (1, 8), .rejected 1 aborted, .discarded (2, 9)] :=
    exists_run [.recv false false false, .deliver 7, .deliver 8, .deliver 9, .recv true false true,
      .close] (by decide +kernel)
  obtain ⟨s, hs, hlog⟩ := hrun
  exact ⟨s, hlog, (receiver_conserves [] (by decide) s hs).1⟩

/-! ## The size of the queue -/

/-- `setMaxQueueSize` asks for no less than the constructor. -/
def Label.NotBelow (maxQueueSize : Int) : Label β → Prop
  | .setMaxQueueSize size => maxQueueSize ≤ size
  | _ => True

/-- **Queue limit.** The queue is never longer than was asked for last, if no call asks for
    less than the constructor. -/
theorem queue_within_limit (name : GoString) {maxQueueSize : Int} (hsize : 1 ≤ maxQueueSize) :
    ∀ s, Reachable ((receiverSystem β name maxQueueSize).restrict
      (fun _ l => l.NotBelow maxQueueSize)) s → (s.r.queue.length : Int) ≤ s.limit := by
  intro s hs
  have hlimit : maxQueueSize ≤ s.limit := by
    refine invariant_restrict (fun s => maxQueueSize ≤ s.limit) (Int.le_refl _) ?_ s hs
    intro s l t _ h hok hstep
    cases l with
    | setMaxQueueSize size =>
      cases hstep
      exact hok
    | timeout w =>
      obtain ⟨res, -, rfl⟩ := Option.map_eq_some_iff.mp hstep
      exact h
    | abort w =>
      obtain ⟨res, -, rfl⟩ := Option.map_eq_some_iff.mp hstep
      exact h
    | _ =>
      cases hstep
      exact h
  exact Int.le_trans (kept hsize s hs.of_restrict).short hlimit

theorem queue_within_limit_raised : ∃ s : ReceiverRun Nat, s.r.queue.length = 1 ∧ s.limit = 2 ∧
    (s.r.queue.length : Int) ≤ s.limit :=
  ⟨_, rfl, rfl, queue_within_limit [] (by decide) _
    (.step (.deliver 8) (.step (.setMaxQueueSize 2) (.step (.deliver 7) (.init (s := start [] 1) rfl)
      ⟨trivial, rfl⟩) ⟨(by decide : (1 : Int) ≤ 2), rfl⟩) ⟨trivial, rfl⟩)⟩

/-- `setMaxQueueSize(1)` on an empty queue has no effect. -/
theorem queue_above_limit : ∃ s : ReceiverRun Nat, Reachable (receiverSystem Nat [] 2) s ∧
    s.limit = 1 ∧ s.r.queue.length = 2 :=
  exists_run [.setMaxQueueSize 1, .deliver 7, .deliver 8] (by decide +kernel)

end ReceiverRun

end QuicRTC.Sdk

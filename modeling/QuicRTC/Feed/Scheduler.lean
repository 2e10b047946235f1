import Mathlib.Data.Prod.Lex
import QuicRTC.Framework.Heap
import QuicRTC.Framework.Slots
import QuicRTC.Framework.System

/-! # The Priority Scheduler

`feed/scheduler.go`: pumps hand work items to `Submit`, and one worker runs them by priority, items
of one priority in the order of their submission. A step is one section under `s.mu`, one event of
the environment, or the return of an item's `Do`. `Close` only signals the watcher, which sets
`closed` later, so items may be accepted after `Close`.
-/

namespace QuicRTC

open List Option

open LTS

/-! ## Data -/

/-- `act` is what its `Do` does. -/
structure WorkItem (δ : Type) where
  priority : UInt8
  act : δ
  deriving DecidableEq

/-- `call` numbers its `Submit` call, which no code reads. -/
structure WorkEntry (δ : Type) where
  priority : UInt8
  seq : UInt64
  act : δ
  call : Nat
  deriving DecidableEq

/-- `Less` of `workHeap`. -/
def WorkEntry.less {δ : Type} (a b : WorkEntry δ) : Bool :=
  if a.priority ≠ b.priority then decide (a.priority < b.priority) else decide (a.seq < b.seq)

def WorkEntry.key {δ : Type} (e : WorkEntry δ) : Nat ×ₗ Nat :=
  toLex (e.priority.toNat, e.seq.toNat)

theorem WorkEntry.less_eq {δ} (a b : WorkEntry δ) : a.less b = decide (a.key < b.key) := by
  have hiff : a.key < b.key ↔
      a.priority < b.priority ∨ a.priority = b.priority ∧ a.seq < b.seq := by
    unfold key
    rw [Prod.Lex.toLex_lt_toLex, UInt8.lt_iff_toNat_lt, UInt64.lt_iff_toNat_lt, ← UInt8.toNat_inj]
  unfold less
  split
  · next hne => exact decide_eq_decide.mpr (by rw [hiff]; simp [hne])
  · next heq =>
    have heq : a.priority = b.priority := not_not.mp heq
    exact decide_eq_decide.mpr (by rw [hiff]; simp [heq])

inductive Worker (δ : Type) where
  /-- `Start` was not called. -/
  | idle
  /-- About to take the lock. -/
  | ready
  /-- In `cond.Wait`. -/
  | asleep
  /-- In the `Do` of an item. -/
  | busy (e : WorkEntry δ)
  | exited
  deriving DecidableEq

/-- History: the answer, the item running then, and how many had been taken. -/
structure SubmitCall (δ : Type) where
  item : WorkItem δ
  accepted : Bool
  running : List Nat
  taken : Nat
  deriving DecidableEq

/-- `calls` and `executed` are history. -/
structure Scheduler (δ : Type) where
  items : List (WorkEntry δ)
  seq : UInt64
  closed : Bool
  started : Bool
  shutdown : Bool
  worker : Worker δ
  watching : Bool
  ctxDone : Bool
  calls : List (SubmitCall δ)
  executed : List Nat
  deriving DecidableEq

namespace Scheduler

variable {δ : Type}

def new : Scheduler δ where
  items := []
  seq := 0
  closed := false
  started := false
  shutdown := false
  worker := .idle
  watching := false
  ctxDone := false
  calls := []
  executed := []

def running (s : Scheduler δ) : List Nat :=
  match s.worker with
  | .busy e => [e.call]
  | _ => []

def pending (s : Scheduler δ) : List Nat := s.items.map WorkEntry.call

def taken (s : Scheduler δ) : List Nat := s.executed ++ s.running

def answered (s : Scheduler δ) (answer : Bool) : List Nat :=
  (List.range s.calls.length).filter
    (fun c => (s.calls[c]?).any (fun call => decide (call.accepted = answer)))

/-! ## Steps -/

/-- The worker is the only one that waits. -/
def wake : Worker δ → Worker δ
  | .asleep => .ready
  | w => w

def record (s : Scheduler δ) (item : WorkItem δ) (accepted : Bool) : Scheduler δ :=
  { s with
    calls := s.calls ++
      [{ item := item, accepted := accepted, running := s.running, taken := s.taken.length }] }

def enqueue (s : Scheduler δ) (item : WorkItem δ) : Scheduler δ :=
  { s.record item true with
    seq := s.seq + 1
    items := Heap.push WorkEntry.less s.items
      { priority := item.priority, seq := s.seq + 1, act := item.act, call := s.calls.length }
    worker := wake s.worker }

def submit (s : Scheduler δ) (item : WorkItem δ) : Scheduler δ × Bool :=
  if s.closed then (s.record item false, false) else (s.enqueue item, true)

def start (s : Scheduler δ) : Scheduler δ :=
  if s.started then s else { s with started := true, worker := .ready, watching := true }

def lock (s : Scheduler δ) : Option (Scheduler δ) :=
  match s.worker with
  | .ready =>
    if s.items = [] then
      if s.closed then some { s with worker := .exited } else some { s with worker := .asleep }
    else
      match Heap.pop WorkEntry.less s.items with
      | some (e, rest) => some { s with items := rest, worker := .busy e }
      | none => none
  | _ => none

inductive Label (δ : Type) where
  | start
  | submit (item : WorkItem δ)
  | close
  | cancel
  | watch
  | lock
  | done

/-- `none`: the label is not enabled. -/
def next (s : Scheduler δ) : Label δ → Option (Scheduler δ)
  | .start => some s.start
  | .submit item => some (s.submit item).1
  | .close => some { s with shutdown := true }
  | .cancel => some { s with ctxDone := true }
  | .watch =>
    if s.watching && (s.ctxDone || s.shutdown) then
      some { s with closed := true, watching := false, worker := wake s.worker }
    else none
  | .lock => s.lock
  | .done =>
    match s.worker with
    | .busy e => some { s with executed := s.executed ++ [e.call], worker := .ready }
    | _ => none

def schedulerSystem (δ : Type) : System (Scheduler δ) (Label δ) := ofFun new next

def Label.isWorker : Label δ → Bool
  | .lock => true
  | .done => true
  | _ => false

inductive Effect (s : Scheduler δ) : Label δ → Scheduler δ → Prop where
  | start (new : s.started = false) :
      Effect s .start { s with started := true, worker := .ready, watching := true }
  | startAgain (again : s.started = true) : Effect s .start s
  | refuse {item} (closed : s.closed = true) : Effect s (.submit item) (s.record item false)
  | accept {item} (open' : s.closed = false) : Effect s (.submit item) (s.enqueue item)
  | close : Effect s .close { s with shutdown := true }
  | cancel : Effect s .cancel { s with ctxDone := true }
  | watch (watching : s.watching = true) :
      Effect s .watch { s with closed := true, watching := false, worker := wake s.worker }
  | exit (ready : s.worker = .ready) (empty : s.items = []) (closed : s.closed = true) :
      Effect s .lock { s with worker := .exited }
  | sleep (ready : s.worker = .ready) (empty : s.items = []) (open' : s.closed = false) :
      Effect s .lock { s with worker := .asleep }
  | take {e rest} (ready : s.worker = .ready) (some' : s.items ≠ [])
      (pop : Heap.pop WorkEntry.less s.items = some (e, rest)) :
      Effect s .lock { s with items := rest, worker := .busy e }
  | done {e} (busy : s.worker = .busy e) :
      Effect s .done { s with executed := s.executed ++ [e.call], worker := .ready }

variable {s s' : Scheduler δ} {w : Worker δ}

theorem effect_of_next {l} : next s l = some s' → Effect s l s' := by
  fun_cases next s l <;> intro h <;> try cases h
  · unfold Scheduler.start
    split
    · next hs => exact .startAgain hs
    · next hs => exact .start (Bool.eq_false_of_not_eq_true hs)
  · unfold submit
    split
    · next hc => exact .refuse hc
    · next hc => exact .accept (Bool.eq_false_of_not_eq_true hc)
  · exact .close
  · exact .cancel
  · next hw => exact .watch (Bool.and_eq_true_iff.mp hw).1
  · revert h
    fun_cases lock s <;> intro h <;> cases h
    · next hready hempty hc => exact .exit hready hempty hc
    · next hready hempty hc => exact .sleep hready hempty (Bool.eq_false_of_not_eq_true hc)
    · next hready hne _ _ hpop => exact .take hready hne hpop
  · next hbusy => exact .done hbusy

/-! ## What was submitted -/

theorem answered_record (s : Scheduler δ) (item : WorkItem δ) (accepted answer : Bool) :
    (s.record item accepted).answered answer =
      s.answered answer ++ if accepted = answer then [s.calls.length] else [] := by
  unfold answered record
  simp only [length_append, length_singleton, range_succ, filter_append]
  congr 1
  · apply filter_congr
    intro c hc
    rw [getElem?_append_left (mem_range.mp hc)]
  · cases accepted <;> cases answer <;> simp

theorem answered_nodup (s : Scheduler δ) (answer : Bool) : (s.answered answer).Nodup :=
  nodup_range.filter _

theorem answered_ascending (s : Scheduler δ) (answer : Bool) :
    (s.answered answer).Pairwise (· < ·) :=
  pairwise_lt_range.filter _

theorem answered_lt {answer c} (h : c ∈ s.answered answer) : c < s.calls.length :=
  mem_range.mp (mem_filter.mp h).1

theorem not_accepted_of_refused {c} (h : c ∈ s.answered false) : c ∉ s.answered true := by
  intro h'
  have hf := (mem_filter.mp h).2
  have ht := (mem_filter.mp h').2
  obtain ⟨call, hcall, hfalse⟩ := (any_eq_true _ _).mp hf
  rw [hcall, any_some, of_decide_eq_true hfalse] at ht
  cases ht

/-! ## Every item is accounted for -/

/-- An accepted item is executed, running or in the heap; the worker sleeps only over an
    open, empty queue and exits only from a closed one. -/
structure Ok (s : Scheduler δ) : Prop where
  heap : Heap.IsHeap WorkEntry.key s.items s.items.length
  conserved : (s.answered true).Perm (s.executed ++ s.running ++ s.pending)
  known : ∀ e, e ∈ s.items ∨ s.worker = .busy e →
                ∃ call, s.calls[e.call]? = some call ∧ call.item = { e with }
  asleep : s.worker = .asleep → s.items = [] ∧ s.closed = false
  exited : s.worker = .exited → s.items = [] ∧ s.closed = true
  idle : s.worker = .idle ↔ s.started = false

theorem ok_new : Ok (new : Scheduler δ) where
  heap := Heap.isHeap_nil
  conserved := Perm.refl _
  known := by rintro e (he | he) <;> cases he
  asleep := nofun
  exited := nofun
  idle := ⟨fun _ => rfl, fun _ => rfl⟩

variable {e : WorkEntry δ}

theorem known_record {call} (h : s.calls[e.call]? = some call) (item : WorkItem δ) (accepted : Bool) :
    (s.record item accepted).calls[e.call]? = some call := by
  exact Slots.getElem?_append_some h

theorem wake_busy : wake w = .busy e ↔ w = .busy e := by
  cases w <;> simp [wake]

theorem wake_exited : wake w = .exited ↔ w = .exited := by
  cases w <;> simp [wake]

theorem wake_idle : wake w = .idle ↔ w = .idle := by
  cases w <;> simp [wake]

theorem wake_ne_asleep (w : Worker δ) : wake w ≠ .asleep := by
  cases w <;> simp [wake]

namespace Ok

variable {s : Scheduler δ}

theorem work (h : Ok s) {w closed started watching}
    (hrun : running { s with worker := w } = s.running)
    (hbusy : ∀ e, w = .busy e → s.worker = .busy e)
    (hasleep : w = .asleep → s.items = [] ∧ closed = false)
    (hexited : w = .exited → s.items = [] ∧ closed = true) (hidle : w = .idle ↔ started = false) :
    Ok { s with worker := w, closed := closed, started := started, watching := watching } where
  heap := h.heap
  conserved := by
    have hc := h.conserved
    rw [← hrun] at hc
    exact hc
  known := fun e he => h.known e (he.imp_right (hbusy e))
  asleep := hasleep
  exited := hexited
  idle := hidle

theorem refuse (h : Ok s) (item : WorkItem δ) : Ok (s.record item false) where
  heap := h.heap
  conserved := by
    rw [answered_record, if_neg Bool.false_ne_true, append_nil]
    exact h.conserved
  known := by
    intro e he
    obtain ⟨call, hcall, hitem⟩ := h.known e he
    exact ⟨call, known_record hcall item false, hitem⟩
  asleep := h.asleep
  exited := h.exited
  idle := h.idle

theorem accept (h : Ok s) (hopen : s.closed = false) (item : WorkItem δ) : Ok (s.enqueue item) := by
  obtain ⟨hperm, hheap⟩ := Heap.push_spec WorkEntry.less_eq h.heap
    { priority := item.priority, seq := s.seq + 1, act := item.act, call := s.calls.length }
  refine ⟨hheap, ?_, ?_, ?_, ?_, ?_⟩
  · -- one more accepted call, one more pending entry
    have hpending : (s.enqueue item).pending.Perm (s.pending ++ [s.calls.length]) :=
      (hperm.map WorkEntry.call).trans (perm_append_singleton _ _).symm
    have hrun : (s.enqueue item).running = s.running := by
      unfold running enqueue wake
      cases s.worker <;> rfl
    show ((s.record item true).answered true).Perm (s.executed ++ (s.enqueue item).running ++ _)
    rw [answered_record, if_pos rfl, hrun]
    refine (h.conserved.append_right [s.calls.length]).trans ?_
    rw [append_assoc (s.executed ++ s.running)]
    exact hpending.symm.append_left _
  · intro e he
    have hcases : (e ∈ s.items ∨ s.worker = .busy e) ∨ e =
        { priority := item.priority, seq := s.seq + 1, act := item.act, call := s.calls.length } := by
      rcases he with he | he
      · rcases mem_cons.mp (hperm.subset he) with rfl | hold
        · exact .inr rfl
        · exact .inl (.inl hold)
      · exact .inl (.inr (wake_busy.mp he))
    rcases hcases with hold | rfl
    · obtain ⟨call, hcall, hitem⟩ := h.known e hold
      exact ⟨call, known_record hcall item true, hitem⟩
    · exact ⟨_, getElem?_concat_length, rfl⟩
  · exact fun hw => absurd hw (wake_ne_asleep _)
  · intro hw
    have hcl := (h.exited (wake_exited.mp hw)).2
    rw [hopen] at hcl
    cases hcl
  · exact wake_idle.trans h.idle

theorem take (h : Ok s) (hready : s.worker = .ready) (hne : s.items ≠ []) {e rest}
    (hpop : Heap.pop WorkEntry.less s.items = some (e, rest)) :
    Ok { s with items := rest, worker := .busy e } ∧ s.items.Perm (e :: rest) ∧
      ∀ e' ∈ rest, e.key ≤ e'.key := by
  obtain ⟨a, r, hpop', hperm, hheap, hmin⟩ := Heap.pop_spec WorkEntry.less_eq h.heap hne
  rw [hpop] at hpop'
  cases hpop'
  refine ⟨⟨hheap, ?_, ?_, nofun, nofun, ?_⟩, hperm, hmin⟩
  · have hc := h.conserved
    have hold : s.running = [] := by unfold running; rw [hready]
    rw [hold, append_nil] at hc
    rw [append_assoc]
    exact hc.trans ((hperm.map WorkEntry.call).append_left _)
  · rintro e' (he' | he')
    · exact h.known e' (.inl (hperm.symm.subset (mem_cons_of_mem _ he')))
    · obtain rfl := Worker.busy.inj he'
      exact h.known e (.inl (hperm.symm.subset mem_cons_self))
  · simp [← h.idle, hready]

theorem done (h : Ok s) {e} (hbusy : s.worker = .busy e) :
    Ok { s with executed := s.executed ++ [e.call], worker := .ready } where
  heap := h.heap
  conserved := by
    have hc := h.conserved
    unfold running at hc
    rw [hbusy] at hc
    show (s.answered true).Perm (s.executed ++ [e.call] ++ [] ++ s.pending)
    rw [append_nil]
    exact hc
  known := by
    rintro e' (he' | he')
    · exact h.known e' (.inl he')
    · cases he'
  asleep := nofun
  exited := nofun
  idle := by simp [← h.idle, hbusy]

theorem step (h : Ok s) {l s'} (hstep : Effect s l s') : Ok s' := by
  cases hstep with
  | start hnew =>
    exact h.work (by simp [running, h.idle.mpr hnew]) nofun nofun nofun ⟨nofun, nofun⟩
  | startAgain => exact h
  | refuse => exact h.refuse _
  | accept hopen => exact h.accept hopen _
  | watch =>
    refine h.work ?_ (fun _ => wake_busy.mp) (fun hw => absurd hw (wake_ne_asleep _))
      (fun hw => ⟨(h.exited (wake_exited.mp hw)).1, rfl⟩) (wake_idle.trans h.idle)
    unfold running wake
    cases s.worker <;> rfl
  | exit hready hempty hclosed =>
    exact h.work (by simp [running, hready]) nofun nofun (fun _ => ⟨hempty, hclosed⟩)
      (by simp [← h.idle, hready])
  | sleep hready hempty hopen =>
    exact h.work (by simp [running, hready]) nofun (fun _ => ⟨hempty, hopen⟩) nofun
      (by simp [← h.idle, hready])
  | take hready hne hpop => exact (h.take hready hne hpop).1
  | done hbusy => exact h.done hbusy
  | _ => exact { h with }

end Ok

theorem ok_of_reachable : ∀ s, Reachable (schedulerSystem δ) s → Ok s := by
  refine invariant_ofFun _ ok_new ?_
  intro s l s' _ h hstep
  exact h.step (effect_of_next hstep)

/-! ## The order of execution -/

/-- Until the counter wraps, a tag is a place among the accepted calls. -/
def Tagged (s : Scheduler δ) : Prop :=
  (s.answered true).length < UInt64.size →
    s.seq.toNat = (s.answered true).length ∧
      ∀ e ∈ s.items, ∃ k, e.seq.toNat = k + 1 ∧ (s.answered true)[k]? = some e.call

theorem tagged_new : Tagged (new : Scheduler δ) :=
  fun _ => ⟨rfl, nofun⟩

variable {s : Scheduler δ}

theorem Tagged.accept (h : Tagged s) (hok : Ok s) (item : WorkItem δ) :
    Tagged (s.enqueue item) := by
  have hans : (s.enqueue item).answered true = s.answered true ++ [s.calls.length] := by
    show (s.record item true).answered true = _
    rw [answered_record, if_pos rfl]
  intro hfew
  rw [hans, length_append, length_singleton] at hfew
  obtain ⟨hseq, htags⟩ := h (by omega)
  have hsucc : (s.seq + 1).toNat = s.seq.toNat + 1 := by
    rw [UInt64.toNat_add, UInt64.toNat_one, Nat.mod_eq_of_lt]
    rw [hseq]
    exact hfew
  obtain ⟨hperm, -⟩ := Heap.push_spec WorkEntry.less_eq hok.heap
    { priority := item.priority, seq := s.seq + 1, act := item.act, call := s.calls.length }
  rw [hans]
  refine ⟨?_, fun e he => ?_⟩
  · rw [length_append, length_singleton, ← hseq]
    exact hsucc
  · rcases mem_cons.mp (hperm.subset he) with rfl | hold
    · exact ⟨(s.answered true).length, by rw [← hseq]; exact hsucc, getElem?_concat_length⟩
    · obtain ⟨k, hk, hcall⟩ := htags e hold
      exact ⟨k, hk, Slots.getElem?_append_some hcall⟩

theorem Tagged.step (h : Tagged s) (hok : Ok s) {l} (hstep : Effect s l s') : Tagged s' := by
  cases hstep with
  | @refuse item _ =>
    have hans : (s.record item false).answered true = s.answered true := by
      rw [answered_record, if_neg Bool.false_ne_true, append_nil]
    intro hfew
    rw [hans] at hfew ⊢
    exact h hfew
  | accept _ => exact h.accept hok _
  | take hready hne hpop =>
    obtain ⟨-, hperm, -⟩ := hok.take hready hne hpop
    intro hfew
    obtain ⟨hseq, htags⟩ := h hfew
    exact ⟨hseq, fun e he => htags e (hperm.symm.subset (mem_cons_of_mem _ he))⟩
  | _ => exact h

theorem tagged_of_reachable : ∀ s, Reachable (schedulerSystem δ) s → Tagged s := by
  refine invariant_ofFun Tagged tagged_new ?_
  intro s l s' hs h hstep
  exact h.step (ok_of_reachable s hs) (effect_of_next hstep)

/-- More urgent, or as urgent and submitted first. -/
def Before (e e' : WorkEntry δ) : Prop :=
  e.priority < e'.priority ∨ e.priority = e'.priority ∧ e.call < e'.call

theorem Ok.take_least (h : Ok s) (htag : Tagged s) (hready : s.worker = .ready) (hne : s.items ≠ [])
    {rest} (hpop : Heap.pop WorkEntry.less s.items = some (e, rest)) {e'} (he' : e' ∈ rest) :
    e.priority ≤ e'.priority ∧ ((s.answered true).length < UInt64.size → Before e e') := by
  obtain ⟨-, hperm, hmin⟩ := h.take hready hne hpop
  have hle := hmin e' he'
  unfold WorkEntry.key at hle
  rw [Prod.Lex.toLex_le_toLex] at hle
  refine ⟨UInt8.le_iff_toNat_le.mpr (by omega), fun hfew => ?_⟩
  rcases hle with hlt | ⟨heq, hseq⟩
  · exact .inl (UInt8.lt_iff_toNat_lt.mpr hlt)
  · refine .inr ⟨UInt8.toNat_inj.mp heq, ?_⟩
    obtain ⟨-, htags⟩ := htag hfew
    obtain ⟨k, hk, hcall⟩ := htags e (hperm.symm.subset mem_cons_self)
    obtain ⟨k', hk', hcall'⟩ := htags e' (hperm.symm.subset (mem_cons_of_mem _ he'))
    -- two entries of the queue come from different calls
    have hnd : (s.executed ++ s.running ++ s.pending).Nodup :=
      h.conserved.nodup (s.answered_nodup true)
    have hnd' : (e.call :: rest.map WorkEntry.call).Nodup :=
      (hperm.map WorkEntry.call).nodup (nodup_append.mp hnd).2.1
    have hdiff : e.call ≠ e'.call := fun heq =>
      (nodup_cons.mp hnd').1 (heq ▸ mem_map_of_mem he')
    have hkk : k < k' := by
      rcases Nat.lt_or_ge k k' with hlt | hge
      · exact hlt
      · obtain rfl : k = k' := by omega
        exact absurd (mem_unique hcall hcall') hdiff
    obtain ⟨hlt, hget⟩ := List.getElem?_eq_some_iff.mp hcall
    obtain ⟨hlt', hget'⟩ := List.getElem?_eq_some_iff.mp hcall'
    rw [← hget, ← hget']
    exact pairwise_iff_getElem.mp (s.answered_ascending true) k k' hlt hlt' hkk

/-! ## Every accepted item can be run -/

/-- Only the worker moves. -/
def workerSystem (δ : Type) : System (Scheduler δ) (Label δ) :=
  (schedulerSystem δ).restrict (fun _ l => l.isWorker = true)

theorem next_take (hready : s.worker = .ready) (hne : s.items ≠ []) {rest}
    (hpop : Heap.pop WorkEntry.less s.items = some (e, rest)) :
    next s .lock = some { s with items := rest, worker := .busy e } := by
  simp only [next, lock, hready, if_neg hne, hpop]

theorem next_done (hbusy : s.worker = .busy e) :
    next s .done = some { s with executed := s.executed ++ [e.call], worker := .ready } := by
  simp only [next, hbusy]

theorem drain (n : Nat) (h : Ok s) (hready : s.worker = .ready) (hn : s.items.length = n) :
    ∃ s', (workerSystem δ).Steps s s' ∧ Ok s' ∧ s'.items = [] ∧ s'.worker = .ready ∧
      s'.calls = s.calls := by
  induction n generalizing s with
  | zero =>
    exact ⟨s, Relation.ReflTransGen.refl, h, eq_nil_of_length_eq_zero hn, hready, rfl⟩
  | succ n ih =>
    have hne : s.items ≠ [] := by
      intro hnil
      rw [hnil] at hn
      cases hn
    obtain ⟨e, rest, hpop, hperm, -, -⟩ := Heap.pop_spec WorkEntry.less_eq h.heap hne
    have htake := next_take hready hne hpop
    have hbusy := (h.take hready hne hpop).1
    have hdone := next_done (s := { s with items := rest, worker := .busy e }) rfl
    have hlen : rest.length = n := by
      have := hperm.length_eq
      rw [length_cons] at this
      omega
    obtain ⟨s', hsteps, hok', hempty, hready', hcalls⟩ := ih (hbusy.done rfl) rfl hlen
    refine ⟨s', ?_, hok', hempty, hready', hcalls⟩
    exact .head ⟨.lock, rfl, htake⟩ (.head ⟨.done, rfl, hdone⟩ hsteps)

theorem Ok.executed_of_idle (h : Ok s) (hitems : s.items = []) (hrun : s.running = []) {c}
    (hc : c ∈ s.answered true) : c ∈ s.executed := by
  have hmem := h.conserved.subset hc
  rw [hrun, pending, hitems, map_nil, append_nil, append_nil] at hmem
  exact hmem

theorem Ok.runs (h : Ok s) (hstarted : s.started = true) {c} (hc : c ∈ s.answered true) :
    ∃ s', (workerSystem δ).Steps s s' ∧ c ∈ s'.executed := by
  -- from a worker at its lock the queue can be emptied
  have hfrom : ∀ s₁ : Scheduler δ, Ok s₁ → s₁.worker = .ready → c ∈ s₁.answered true →
      ∃ s', (workerSystem δ).Steps s₁ s' ∧ c ∈ s'.executed := by
    intro s₁ h₁ hready hc₁
    obtain ⟨s', hsteps, hok', hempty, hready', hcalls⟩ := drain _ h₁ hready rfl
    refine ⟨s', hsteps, hok'.executed_of_idle hempty ?_ ?_⟩
    · unfold running
      rw [hready']
    · unfold answered at hc₁ ⊢
      rwa [hcalls]
  cases hw : s.worker with
  | idle =>
    rw [h.idle.mp hw] at hstarted
    cases hstarted
  | ready => exact hfrom s h hw hc
  | asleep =>
    refine ⟨s, Relation.ReflTransGen.refl, h.executed_of_idle (h.asleep hw).1 ?_ hc⟩
    unfold running
    rw [hw]
  | exited =>
    refine ⟨s, Relation.ReflTransGen.refl, h.executed_of_idle (h.exited hw).1 ?_ hc⟩
    unfold running
    rw [hw]
  | busy e =>
    obtain ⟨s', hsteps, hmem⟩ := hfrom _ (h.done hw) rfl hc
    exact ⟨s', .head ⟨.done, rfl, next_done hw⟩ hsteps, hmem⟩

/-! ## Results -/

theorem closed_of_steps (hs : (schedulerSystem δ).Steps s s') (h : s.closed = true) :
    s'.closed = true := by
  induction hs with
  | refl => exact h
  | tail _ hlast ih =>
    obtain ⟨l, hl⟩ := hlast
    cases effect_of_next hl with
    | watch => rfl
    | _ => exact ih

structure Serves (s : Scheduler δ) : Prop where
  /-- An accepted item is executed, running or pending, -/
  conserved : (s.answered true).Perm (s.executed ++ s.running ++ s.pending)
  /-- and only one of these, once. -/
  once : (s.executed ++ s.running ++ s.pending).Nodup
  refused : ∀ c ∈ s.answered false, c ∉ s.executed ++ s.running ++ s.pending
  /-- The worker takes the least pending item. -/
  least : ∀ s' e, next s .lock = some s' → s'.worker = .busy e → ∀ e' ∈ s'.items,
                e.priority ≤ e'.priority ∧
                  ((s.answered true).length < UInt64.size → Before e e')
  /-- After the worker's exit nothing is pending or accepted, -/
  exited : s.worker = .exited → s.pending = [] ∧
                ∀ s', (schedulerSystem δ).Steps s s' → ∀ item, (s'.submit item).2 = false
  /-- and before it every accepted item can be run. -/
  runs : s.started = true → ∀ c ∈ s.answered true,
                ∃ s', (workerSystem δ).Steps s s' ∧ c ∈ s'.executed

/-- **The scheduler** serves every accepted item once, the most urgent first. -/
theorem scheduler_serves {s : Scheduler δ} (h : Reachable (schedulerSystem δ) s) : Serves s := by
  have hok := ok_of_reachable s h
  have htag := tagged_of_reachable s h
  have hnd : (s.executed ++ s.running ++ s.pending).Nodup :=
    hok.conserved.nodup (s.answered_nodup true)
  refine ⟨hok.conserved, hnd, ?_, ?_, ?_, fun hs c hc => hok.runs hs hc⟩
  · intro c hc hmem
    exact not_accepted_of_refused hc (hok.conserved.symm.subset hmem)
  · intro s' e hlock hbusy e' he'
    cases effect_of_next hlock with
    | take hready hne hpop =>
      obtain rfl := Worker.busy.inj hbusy
      exact hok.take_least htag hready hne hpop he'
    | _ => cases hbusy
  · intro hexited
    obtain ⟨hempty, hclosed⟩ := hok.exited hexited
    refine ⟨by rw [pending, hempty, map_nil], fun s' hsteps item => ?_⟩
    unfold submit
    rw [if_pos (closed_of_steps hsteps hclosed)]

/-- The urgent item runs first, the other after the close, and a third is refused. -/
def closingRun : List (Label Nat) :=
  [.start, .submit ⟨4, 10⟩, .submit ⟨2, 11⟩, .close, .lock, .watch, .submit ⟨0, 12⟩, .done, .lock]

theorem scheduler_serves_closing :
    ∃ s : Scheduler Nat, Reachable (schedulerSystem Nat) s ∧ s.executed = [1] ∧
      s.running = [0] ∧ s.answered false = [2] ∧ Serves s :=
  exists_run_imp closingRun (fun s hs (hp : s.executed = [1] ∧ s.running = [0] ∧
    s.answered false = [2]) => ⟨hp.1, hp.2.1, hp.2.2, scheduler_serves hs⟩) (by decide +kernel)

/-! ### When the counter starts again -/

/-- Of the lowest priority. -/
def patient : WorkEntry Unit := { priority := 7, seq := 1, act := (), call := 0 }

structure Waits (k : Nat) (s : Scheduler Unit) : Prop where
  items : s.items = [patient]
  seq : s.seq = UInt64.ofNat (k + 1)
  open' : s.closed = false
  worker : s.worker = .ready
  calls : 0 < s.calls.length

theorem waits_zero : ∃ s, Reachable (schedulerSystem Unit) s ∧ Waits 0 s :=
  exists_run_imp [.start, .submit ⟨7, ()⟩] (fun s _ (hp : s.items = [patient] ∧ s.seq = 1 ∧
    s.closed = false ∧ s.worker = .ready ∧ 0 < s.calls.length) =>
      ⟨hp.1, hp.2.1, hp.2.2.1, hp.2.2.2.1, hp.2.2.2.2⟩) (by decide +kernel)

theorem Waits.taken {k s} (h : Waits k s) {priority e}
    (he : e = { priority, seq := s.seq + 1, act := (), call := s.calls.length })
    (hpush : Heap.push WorkEntry.less [patient] e = [e, patient])
    (hpop : Heap.pop WorkEntry.less [e, patient] = some (e, [patient])) :
    next s (.submit ⟨priority, ()⟩) = some (s.enqueue ⟨priority, ()⟩) ∧
      next (s.enqueue ⟨priority, ()⟩) .lock =
        some { s.enqueue ⟨priority, ()⟩ with items := [patient], worker := .busy e } := by
  have hitems : (s.enqueue ⟨priority, ()⟩).items = [e, patient] := by
    rw [← hpush, he, ← h.items]
    rfl
  refine ⟨by simp only [next, submit, h.open', Bool.false_eq_true, if_false], next_take ?_ ?_ ?_⟩
  · show wake s.worker = .ready
    rw [h.worker]
    rfl
  · rw [hitems]
    exact cons_ne_nil _ _
  · rw [hitems]
    exact hpop

theorem Waits.round {k s} (hs : Reachable (schedulerSystem Unit) s) (h : Waits k s) :
    ∃ s', Reachable (schedulerSystem Unit) s' ∧ Waits (k + 1) s' := by
  obtain ⟨hsubmit, htake⟩ := h.taken (priority := 0) rfl rfl rfl
  refine ⟨_, ((hs.step _ hsubmit).step _ htake).step _ (next_done rfl), rfl, ?_, h.open', rfl, ?_⟩
  · show s.seq + 1 = _
    rw [h.seq, ← UInt64.ofNat_one, ← UInt64.ofNat_add]
  · show 0 < (s.calls ++ [_]).length
    rw [length_append]
    exact Nat.lt_add_right _ h.calls

theorem exists_waits (k : Nat) : ∃ s, Reachable (schedulerSystem Unit) s ∧ Waits k s := by
  induction k with
  | zero => exact waits_zero
  | succ k ih =>
    obtain ⟨s, hs, h⟩ := ih
    exact h.round hs

/-- After 2^64 - 1 items the next one gets the tag 0, and overtakes an earlier one. -/
theorem seq_starts_again :
    ∃ (s s' : Scheduler Unit) (e e' : WorkEntry Unit), Reachable (schedulerSystem Unit) s ∧
      next s .lock = some s' ∧ s'.worker = .busy e ∧ e' ∈ s'.items ∧
      e.priority = e'.priority ∧ e'.call < e.call := by
  obtain ⟨s, hs, h⟩ := exists_waits (UInt64.size - 2)
  have hseq : s.seq + 1 = 0 := by
    rw [h.seq]
    decide
  obtain ⟨hsubmit, htake⟩ := h.taken (e := { priority := 7, seq := 0, act := (), call := s.calls.length })
    (by rw [hseq]) rfl rfl
  exact ⟨_, _, _, patient, hs.step _ hsubmit, htake, rfl, mem_singleton_self _, rfl, h.calls⟩

end Scheduler

end QuicRTC

import QuicRTC.Feed.Parseable

/-! # Pumps That Are Not Disturbed Finish

When no open and no write fails, steps of the lanes and the worker lead from any state to one in
which every lane is at rest (`exists_rest`), and a unit that a loop took and did not refuse is in
hand until it is on a stream or went out as a datagram (`Kept`).
-/

namespace QuicRTC

open LTS Wire List Option Slots

/-! ## Steps that only finish -/

/-- A lane or the worker goes on, and nothing fails. -/
def PumpLabel.isWork : PumpLabel → Bool
  | .opened _ _ => true
  | .submit _ => true
  | .write _ _ .ok => true
  | .done _ .ok => true
  | .sched .start => true
  | .sched .lock => true
  | _ => false

/-- A step in which nothing fails. -/
def PumpLabel.clean : PumpLabel → Bool
  | .openFailed _ => false
  | .write _ _ (.failed _) => false
  | .done _ (.failed _) => false
  | _ => true

def pumpWork (cfgs : List FeedConfig) : System PumpSet PumpLabel :=
  (pumpSetSystem cfgs).restrict (fun _ l => l.isWork = true)

def Lane.Resting (ln : Lane) : Prop := ln.pc = .waiting ∨ ln.pc = .done

namespace Lane

variable {ln : Lane}

theorem not_resting_of_bytes {bytes} (hat : ln.bytes? = some bytes) : ¬ ln.Resting := by
  rintro (hpc | hpc) <;> rw [bytes?, hpc] at hat <;> cases hat

theorem not_resting_of_opening {u} (hpc : ln.pc = .opening u) : ¬ ln.Resting := by
  rintro (h | h) <;> rw [hpc] at h <;> cases h

theorem idle_resting (ln : Lane) : ln.idle.Resting := by
  cases hcall : ln.call <;> simp [idle, Resting, hcall]

theorem giveUp_resting (ln : Lane) : ln.giveUp.Resting := idle_resting _

end Lane

namespace PumpSet

variable {cfgs : List FeedConfig}

/-- What work leaves as it is. -/
structure Later (s s' : PumpSet) : Prop where
  units : s'.units = s.units
  length : s'.lanes.length = s.lanes.length
  rest : ∀ (i : Nat) (ln : Lane), s.lanes[i]? = some ln → ln.Resting → s'.lanes[i]? = some ln

theorem Later.refl (s : PumpSet) : Later s s := ⟨rfl, rfl, fun _ _ h _ => h⟩

variable {i : Nat} {s s' : PumpSet}

theorem Later.trans {s''} (h : Later s s') (h' : Later s' s'') : Later s s'' where
  units := h'.units.trans h.units
  length := h'.length.trans h.length
  rest := fun i ln hln hrest => h'.rest i ln (h.rest i ln hln hrest) hrest

variable {ln : Lane}

theorem later_set {t : PumpSet} {m} (hlane : s.lanes[i]? = some ln) (hbusy : ¬ ln.Resting)
    (hunits : t.units = s.units) (hlanes : t.lanes = s.lanes.set i m) : Later s t where
  units := hunits
  length := by rw [hlanes, length_set]
  rest := by
    intro j x hx hrest
    have hne : i ≠ j := by
      rintro rfl
      exact hbusy (mem_unique hlane hx ▸ hrest)
    rw [hlanes, getElem?_set_ne hne]
    exact hx

theorem Later.step (hq : Queued s) {l : PumpLabel} (hl : l.isWork = true)
    (he : Effect s l s') : Later s s' := by
  cases he with
  | opened hlane hpc => exact later_set hlane (Lane.not_resting_of_opening hpc) rfl rfl
  | queue hlane hat _ _ _ | refuse hlane hat _ _ _ | write hlane hat _ =>
    exact later_set hlane (Lane.not_resting_of_bytes hat) rfl rfl
  | done hbusy hlane =>
    obtain ⟨ln, hln, hat, -⟩ := hq.job _ (.inr hbusy)
    obtain rfl := mem_unique hln hlane
    exact later_set hlane (Lane.not_resting_of_bytes hat) rfl rfl
  | sched => exact ⟨rfl, rfl, fun _ _ h _ => h⟩
  | _ => cases hl

theorem later_of_steps (hs : Reachable (pumpSetSystem cfgs) s)
    (h : (pumpWork cfgs).Steps s s') : Later s s' := by
  induction h with
  | refl => exact Later.refl s
  | tail hpre hlast ih =>
    obtain ⟨l, hl, hstep⟩ := hlast
    have hreach := hs.steps (System.Steps.of_restrict hpre)
    exact ih.trans (Later.step (queued_of_reachable _ hreach) hl (effect_of_next hstep))

/-! ## A write is run -/

/-- How far the worker is from running an item. -/
def rank : Worker Job → Nat
  | .busy _ => 0
  | .ready => 1
  | .idle => 2
  | _ => 0

/-- Bounds the steps until every queued item was run. -/
def backlog (s : PumpSet) : Nat := 2 * s.outstanding.length + rank s.sched.worker

theorem exists_inline {bytes} (hlane : s.lanes[i]? = some ln) (hat : ln.bytes? = some bytes)
    (hown : ln.gate = .inline ∨ ln.scheduled = false) (now : WallClock) :
    ∃ s', (pumpWork cfgs).Steps s s' ∧ s'.lanes[i]? = some (ln.resume now .ok) := by
  have hcond : (decide (ln.gate = .inline) || !ln.scheduled) = true := by
    rw [Bool.or_eq_true, decide_eq_true_eq, Bool.not_eq_true']
    exact hown
  have hnext : s.next (.write i now .ok) = some (s.perform i ln now .ok) := by
    simp only [next, hlane, hat, if_pos hcond]
  refine ⟨_, .single ⟨_, rfl, hnext⟩, ?_⟩
  exact getElem?_set_some hlane

theorem next_run (hq : Queued s) {e} (hbusy : s.sched.worker = .busy e) (now : WallClock) :
    ∃ ln, s.lanes[e.act.lane]? = some ln ∧
      s.next (.done now .ok) = some ((s.finish e).perform e.act.lane ln now .ok) := by
  obtain ⟨ln, hlane, -⟩ := hq.job e (.inr hbusy)
  refine ⟨ln, hlane, ?_⟩
  simp only [next, hbusy, Scheduler.next_done hbusy, hlane]
  rfl

theorem backlog_of_busy {e} (hw : s.sched.worker = .busy e) :
    s.backlog = 2 * s.sched.items.length + 2 := by
  simp only [backlog, outstanding, rank, hw, length_append, length_map,
    length_singleton]
  omega

theorem backlog_of_ready (hw : s.sched.worker = .ready) :
    s.backlog = 2 * s.sched.items.length + 1 := by
  simp only [backlog, outstanding, rank, hw, nil_append, length_map]

theorem backlog_of_idle (hw : s.sched.worker = .idle) :
    s.backlog = 2 * s.sched.items.length + 2 := by
  simp only [backlog, outstanding, rank, hw, nil_append, length_map]

theorem exists_nearer (hs : Reachable (pumpSetSystem cfgs) s) (hlane : s.lanes[i]? = some ln)
    (hgate : ln.gate = .queued) (now : WallClock) :
    ∃ l s', l.isWork = true ∧ s.next l = some s' ∧
      (s'.lanes[i]? = some (ln.resume now .ok) ∨
        s'.lanes[i]? = some ln ∧ s'.backlog < s.backlog) := by
  have hq := queued_of_reachable s hs
  have hok := Scheduler.ok_of_reachable _ (sched_reachable s hs)
  have hmem := (hq.waits i ln hlane).mp hgate
  have hitems : (∀ e, s.sched.worker ≠ .busy e) → s.sched.items ≠ [] := by
    intro hfree hnil
    obtain ⟨e, he | he, -⟩ := mem_outstanding.mp hmem
    · rw [hnil] at he
      cases he
    · exact hfree e he
  cases hw : s.sched.worker with
  | busy e =>
    obtain ⟨m, hm, hnext⟩ := next_run hq hw now
    refine ⟨_, _, rfl, hnext, ?_⟩
    by_cases hi : e.act.lane = i
    · subst hi
      obtain rfl := mem_unique hm hlane
      exact .inl (getElem?_set_some hlane)
    · refine .inr ⟨(getElem?_set_ne hi).trans hlane, ?_⟩
      rw [backlog_of_busy hw, backlog_of_ready rfl]
      exact Nat.lt_succ_self _
  | ready =>
    have hne := hitems (fun e he => by rw [hw] at he; cases he)
    obtain ⟨e, rest, hpop, hperm, -, -⟩ := Heap.pop_spec WorkEntry.less_eq hok.heap hne
    have hnext : s.next (.sched .lock) =
        some { s with sched := { s.sched with items := rest, worker := .busy e } } := by
      show (s.sched.next .lock).map _ = _
      rw [Scheduler.next_take hw hne hpop]
      rfl
    refine ⟨_, _, rfl, hnext, .inr ⟨hlane, ?_⟩⟩
    have hlen := hperm.length_eq
    rw [length_cons] at hlen
    rw [backlog_of_ready hw, backlog_of_busy rfl]
    show 2 * rest.length + 2 < _
    omega
  | idle =>
    have hstart : s.sched.start =
        { s.sched with started := true, worker := .ready, watching := true } := by
      unfold Scheduler.start
      rw [hok.idle.mp hw]
      rfl
    have hnext : s.next (.sched .start) = some { s with sched := s.sched.start } := rfl
    refine ⟨_, _, rfl, hnext, .inr ⟨hlane, ?_⟩⟩
    rw [backlog_of_idle hw, hstart, backlog_of_ready rfl]
    exact Nat.lt_succ_self _
  | asleep =>
    exact absurd (hok.asleep hw).1 (hitems (fun e he => by rw [hw] at he; cases he))
  | exited =>
    exact absurd (hok.exited hw).1 (hitems (fun e he => by rw [hw] at he; cases he))

theorem exists_run (n : Nat) (hs : Reachable (pumpSetSystem cfgs) s) (hn : s.backlog < n)
    (hlane : s.lanes[i]? = some ln) (hgate : ln.gate = .queued) (now : WallClock) :
    ∃ s', (pumpWork cfgs).Steps s s' ∧ s'.lanes[i]? = some (ln.resume now .ok) := by
  -- The induction is on the backlog.
  induction n generalizing s with
  | zero => exact absurd hn (Nat.not_lt_zero _)
  | succ n ih =>
    obtain ⟨l, s₁, hl, hnext, hdone | ⟨hlane₁, hless⟩⟩ := exists_nearer hs hlane hgate now
    · exact ⟨s₁, .single ⟨l, hl, hnext⟩, hdone⟩
    · obtain ⟨s', hsteps, hdone⟩ := ih (hs.step l hnext) (by omega) hlane₁
      exact ⟨s', .head ⟨l, hl, hnext⟩ hsteps, hdone⟩

theorem exists_resumed (hs : Reachable (pumpSetSystem cfgs) s) {bytes}
    (hlane : s.lanes[i]? = some ln) (hat : ln.bytes? = some bytes) (now : WallClock) :
    ∃ s', (pumpWork cfgs).Steps s s' ∧ s'.lanes[i]? = some (ln.resume now .ok) := by
  cases hsched : ln.scheduled with
  | false => exact exists_inline hlane hat (.inr hsched) now
  | true =>
    cases hgate : ln.gate with
    | inline => exact exists_inline hlane hat (.inl hgate) now
    | queued => exact exists_run _ hs (Nat.lt_succ_self _) hlane hgate now
    | free =>
      -- `Submit` first; what it answers decides who runs the write
      have hsubmit : s.next (.submit i) = some (s.submit i ln bytes) := by
        simp only [next, hlane, hat, hsched, hgate, decide_true, Bool.and_true, if_true]
      have hat' : ∀ g : Gate, ({ ln with gate := g } : Lane).bytes? = some bytes := fun _ => hat
      have hlane' : ∀ g : Gate, (s.lanes.set i { ln with gate := g })[i]? =
          some { ln with gate := g } := fun g => getElem?_set_some hlane
      have hreach := hs.step _ hsubmit
      cases hr : (s.sched.submit ⟨ln.cfg.priority, ⟨i, bytes⟩⟩).2 with
      | true =>
        have hl : (s.submit i ln bytes).lanes[i]? = some { ln with gate := .queued } := by
          simp only [submit, hr, if_true]
          exact hlane' .queued
        obtain ⟨s', hsteps, hdone⟩ := exists_run _ hreach (Nat.lt_succ_self _) hl rfl now
        exact ⟨s', .head ⟨_, rfl, hsubmit⟩ hsteps, hdone⟩
      | false =>
        have hl : (s.submit i ln bytes).lanes[i]? = some { ln with gate := .inline } := by
          simp only [submit, hr]
          exact hlane' .inline
        obtain ⟨s', hsteps, hdone⟩ := @exists_inline cfgs _ _ _ _ hl (hat' .inline) (.inl rfl) now
        exact ⟨s', .head ⟨_, rfl, hsubmit⟩ hsteps, hdone⟩

/-! ## A lane comes to rest -/

def CanRest (cfgs : List FeedConfig) (s : PumpSet) (i : Nat) : Prop :=
  ∃ s', (pumpWork cfgs).Steps s s' ∧ ∃ ln, s'.lanes[i]? = some ln ∧ ln.Resting

section rest

variable {s : PumpSet} {i : Nat} {ln : Lane}

theorem canRest_of_resting (hlane : s.lanes[i]? = some ln) (hrest : ln.Resting) :
    CanRest cfgs s i := ⟨s, .refl, ln, hlane, hrest⟩

theorem CanRest.after {s s'} (hsteps : (pumpWork cfgs).Steps s s') (h : CanRest cfgs s' i) :
    CanRest cfgs s i := by
  obtain ⟨s'', hsteps', hrest⟩ := h
  exact ⟨s'', hsteps.trans hsteps', hrest⟩

theorem canRest_of_writing {k item w rest} (hs : Reachable (pumpSetSystem cfgs) s)
    (hlane : s.lanes[i]? = some ln) (hpc : ln.pc = .writing k item w rest) : CanRest cfgs s i := by
  induction rest generalizing s ln w with
  | nil =>
    obtain ⟨s', hsteps, hdone⟩ := exists_resumed hs hlane (by rw [Lane.bytes?, hpc]) firstTick
    simp only [Lane.resume, Lane.proceed, hpc] at hdone
    exact ⟨s', hsteps, _, hdone, Lane.idle_resting _⟩
  | cons w' rest ih =>
    obtain ⟨s', hsteps, hdone⟩ := exists_resumed hs hlane (by rw [Lane.bytes?, hpc]) firstTick
    simp only [Lane.resume, Lane.proceed, hpc] at hdone
    exact (ih (hs.steps (System.Steps.of_restrict hsteps)) hdone rfl).after hsteps

variable {u : Option InHand}

section

variable (hs : Reachable (pumpSetSystem cfgs) s)
include hs

theorem canRest_of_ready {k now} (hlane : s.lanes[i]? = some (ln.ready k now u)) :
    CanRest cfgs s i := by
  cases u with
  | none => exact canRest_of_resting hlane (Lane.idle_resting _)
  | some u =>
    change s.lanes[i]? = some (ln.write k now u) at hlane
    unfold Lane.write at hlane
    split at hlane
    · exact canRest_of_writing hs hlane rfl
    · exact canRest_of_resting hlane (Lane.giveUp_resting _)

theorem canRest_of_header {k item w rest} (hlane : s.lanes[i]? = some ln)
    (hpc : ln.pc = .header k item w rest u) : CanRest cfgs s i := by
  induction rest generalizing s ln w with
  | nil =>
    obtain ⟨s', hsteps, hdone⟩ := exists_resumed hs hlane (by rw [Lane.bytes?, hpc]) firstTick
    simp only [Lane.resume, Lane.proceed, hpc] at hdone
    exact (canRest_of_ready (hs.steps (System.Steps.of_restrict hsteps)) hdone).after hsteps
  | cons w' rest ih =>
    obtain ⟨s', hsteps, hdone⟩ := exists_resumed hs hlane (by rw [Lane.bytes?, hpc]) firstTick
    simp only [Lane.resume, Lane.proceed, hpc] at hdone
    exact (ih (hs.steps (System.Steps.of_restrict hsteps)) hdone rfl).after hsteps

theorem canRest_of_opening (hlane : s.lanes[i]? = some ln) (hpc : ln.pc = .opening u) :
    CanRest cfgs s i := by
  have hnext : s.next (.opened i firstTick) =
      some ({ s with streams := s.streams ++ [OutStream.fresh ln.cfg] }.setLane i
        (ln.opened s.streams.length firstTick u)) := by
    simp only [next, hlane, hpc]
  have hreach := hs.step _ hnext
  have hlane' := getElem?_set_self (a := ln.opened s.streams.length firstTick u)
    (lt_of_getElem? hlane)
  refine CanRest.after (.single ⟨_, rfl, hnext⟩) ?_
  generalize hm : ln.opened s.streams.length firstTick u = m at hlane' hreach ⊢
  unfold Lane.opened at hm
  split at hm
  · split at hm
    · exact canRest_of_header hreach hlane' (by rw [← hm])
    · exact canRest_of_resting hlane' (hm ▸ Lane.giveUp_resting _)
  · rw [← hm] at hlane' hreach ⊢
    exact canRest_of_ready hreach hlane'

theorem canRest (hlane : s.lanes[i]? = some ln) : CanRest cfgs s i := by
  cases hpc : ln.pc with
  | waiting => exact canRest_of_resting hlane (.inl hpc)
  | done => exact canRest_of_resting hlane (.inr hpc)
  | opening u => exact canRest_of_opening hs hlane hpc
  | header k item w rest u => exact canRest_of_header hs hlane hpc
  | writing k item w rest => exact canRest_of_writing hs hlane hpc
  | sending v datagram =>
    obtain ⟨s', hsteps, hdone⟩ := exists_resumed hs hlane (by rw [Lane.bytes?, hpc]) firstTick
    simp only [Lane.resume, Lane.proceed, hpc] at hdone
    exact ⟨s', hsteps, _, hdone, Lane.idle_resting _⟩

theorem exists_rest : ∃ s', (pumpWork cfgs).Steps s s' ∧ ∀ ln ∈ s'.lanes, ln.Resting := by
  -- One lane after the other: one that is at rest stays there.
  have hfirst : ∀ n, n ≤ s.lanes.length → ∃ s', (pumpWork cfgs).Steps s s' ∧
      ∀ (i : Nat) (ln : Lane), i < n → s'.lanes[i]? = some ln → ln.Resting := by
    intro n
    induction n with
    | zero => exact fun _ => ⟨s, .refl, fun i _ hi => absurd hi (Nat.not_lt_zero i)⟩
    | succ n ih =>
      intro hn
      obtain ⟨s₁, hsteps, hrest⟩ := ih (Nat.le_of_succ_le hn)
      have hreach := hs.steps (System.Steps.of_restrict hsteps)
      have hlen := (later_of_steps hs hsteps).length
      obtain ⟨s₂, hsteps₂, ln, hln, hresting⟩ := canRest hreach
        (getElem?_eq_getElem (show n < s₁.lanes.length by omega))
      refine ⟨s₂, hsteps.trans hsteps₂, ?_⟩
      intro i m hi hm
      rcases Nat.lt_or_eq_of_le (Nat.le_of_lt_succ hi) with hlt | rfl
      · have hi₁ : i < s₁.lanes.length := by omega
        have hold := getElem?_eq_getElem hi₁
        have hkept := (later_of_steps hreach hsteps₂).rest i _ hold (hrest i _ hlt hold)
        exact mem_unique hkept hm ▸ hrest i _ hlt hold
      · exact mem_unique hln hm ▸ hresting
  obtain ⟨s', hsteps, hrest⟩ := hfirst s.lanes.length (Nat.le_refl _)
  refine ⟨s', hsteps, fun ln hln => ?_⟩
  obtain ⟨i, hi⟩ := mem_iff_getElem?.mp hln
  have hlt := lt_of_getElem? hi
  rw [(later_of_steps hs hsteps).length] at hlt
  exact hrest i ln hlt hi

end

end rest

end PumpSet

/-! ## A unit is kept -/

namespace Lane

variable (ln : Lane) (k : Nat) (now : WallClock)

/-- The same goroutine of the same pump. -/
def Same (ln m : Lane) : Prop :=
  m.cfg = ln.cfg ∧ m.call = ln.call ∧ (ln.call = false → ln.pc ≠ .done → m.pc ≠ .done)

theorem idle_same : Same ln ln.idle := by
  refine ⟨rfl, rfl, fun hcall _ => ?_⟩
  simp [idle, hcall]

theorem giveUp_same : Same ln ln.giveUp := by
  refine ⟨rfl, rfl, fun hcall _ => ?_⟩
  simp [giveUp, idle, hcall]

theorem write_same (u : InHand) : Same ln (ln.write k now u) := by
  unfold write
  split
  · exact ⟨rfl, rfl, fun _ _ => nofun⟩
  · exact ln.giveUp_same

theorem ready_same (u : Option InHand) : Same ln (ln.ready k now u) := by
  cases u with
  | none => exact idle_same { ln with current := some k }
  | some u => exact ln.write_same k now u

theorem opened_same (u : Option InHand) : Same ln (ln.opened k now u) := by
  unfold opened
  split
  · split
    · exact ⟨rfl, rfl, fun _ _ => nofun⟩
    · exact ln.giveUp_same
  · exact ln.ready_same k now u

theorem fallbackOrDrop_same (u : InHand) : Same ln (ln.fallbackOrDrop now u) :=
  fallbackOrDrop_induction ln.idle_same (fun i _ => ln.write_same i now u) ⟨rfl, rfl, fun _ _ => nofun⟩

theorem receive_same (u : InHand) : Same ln (ln.receive now u) :=
  receive_induction ln.idle_same (fun i _ => ln.write_same i now u)
    (fun _ => ⟨rfl, rfl, fun _ _ => nofun⟩) (fun _ _ => ⟨rfl, rfl, fun _ _ => nofun⟩)
    (fallbackOrDrop_same { ln with seq := ln.seq + 1 } now u) (fun _ => ⟨rfl, rfl, fun _ h => h⟩)

theorem resume_same (r : WriteResult) : Same ln (ln.resume now r) := by
  unfold resume proceed
  split
  case h_1 => exact ready_same { ln with gate := .free } _ now _
  case h_2 => exact ⟨rfl, rfl, fun _ _ => nofun⟩
  case h_3 => exact giveUp_same { ln with gate := .free }
  case h_4 => exact idle_same { ln with gate := .free }
  case h_5 => exact ⟨rfl, rfl, fun _ _ => nofun⟩
  case h_6 => exact giveUp_same { ln with gate := .free }
  case h_7 => exact idle_same { ln with gate := .free }
  case h_8 => exact fallbackOrDrop_same { ln with gate := .free } now _
  case h_9 => exact ⟨rfl, rfl, fun _ h => h⟩

end Lane

structure Accepts (cfg : FeedConfig) (au : AccessUnit) : Prop where
  header : cfg.trackName.length ≤ maxStreamHeader
  frame : ∀ now, ∃ ws, feedWrites cfg now au = some ws

namespace Lane

variable {ln : Lane} {now : WallClock} {k : Nat}

theorem write_keeps {u : InHand} (h : Accepts ln.cfg u.au) :
    (ln.write k now u).hand = [u.index] := by
  obtain ⟨ws, hws⟩ := h.frame now
  cases ws with
  | nil => exact absurd rfl (feedWrites_ne_nil hws)
  | cons w rest =>
    unfold write
    rw [hws]
    rfl

theorem ready_keeps {u : InHand} (h : Accepts ln.cfg u.au) :
    (ln.ready k now (some u)).hand = [u.index] := write_keeps h

theorem opened_keeps {u : InHand} (h : Accepts ln.cfg u.au) :
    (ln.opened k now (some u)).hand = [u.index] := by
  unfold opened
  split
  · have hheader := Nat.not_lt.mpr h.header
    unfold writeStreamHeader headThenBody
    rw [if_neg hheader]
    split
    · rfl
    · next hno => exact absurd rfl (hno _ _)
  · exact ready_keeps h

end Lane

def LanePc.Good (cfg : FeedConfig) : LanePc → Prop
  | .opening u => ∀ x ∈ u, Accepts cfg x.au
  | .header _ _ _ _ u => ∀ x ∈ u, Accepts cfg x.au
  | .sending _ _ => cfg.loop = .datagramOrStream
  | _ => True

/-- If the lane has one of the given units, it is of the given pump and the unit is not
    refused. -/
def Lane.Serves (cfg : FeedConfig) (mine : List Nat) (ln : Lane) : Prop :=
  ∀ n ∈ ln.hand, n ∈ mine → ln.cfg = cfg ∧ ln.pc.Good cfg

namespace Lane

variable {cfg : FeedConfig} {mine : List Nat} {ln m : Lane} {now : WallClock} {k : Nat}

theorem serves_of_hand_nil (h : ln.hand = []) : ln.Serves cfg mine := by
  intro n hn
  rw [h] at hn
  cases hn

theorem Serves.of_hand (h : ln.Serves cfg mine) (hhand : m.hand.Sublist ln.hand)
    (hcfg : m.cfg = ln.cfg) (hgood : ln.pc.Good cfg → m.pc.Good cfg) : m.Serves cfg mine := by
  intro n hn hmine
  obtain ⟨howner, hpc⟩ := h n (hhand.subset hn) hmine
  exact ⟨hcfg.trans howner, hgood hpc⟩

theorem write_good (u : InHand) : (ln.write k now u).pc.Good cfg := by
  unfold write
  split
  · trivial
  · cases hcall : ln.call <;> simp [giveUp, idle, hcall, LanePc.Good]

theorem ready_good (u : Option InHand) : (ln.ready k now u).pc.Good cfg := by
  cases u with
  | none => cases hcall : ln.call <;> simp [ready, idle, hcall, LanePc.Good]
  | some u => exact write_good u

theorem opened_good {u} (h : ∀ x ∈ u, Accepts cfg x.au) : (ln.opened k now u).pc.Good cfg := by
  unfold opened
  split
  · split
    · exact h
    · cases hcall : ln.call <;> simp [giveUp, idle, hcall, LanePc.Good]
  · exact ready_good u

end Lane

namespace PumpSet

variable {cfg : FeedConfig} {mine : List Nat} {s s' : PumpSet} {n : Nat}

/-- In a datagram, or in a frame that is complete on one of the pump's streams. -/
def OnWire (cfg : FeedConfig) (s : PumpSet) (n : Nat) : Prop :=
  cfg.loop = .datagramOrStream ∧ n ∈ s.sent ∨
    ∃ st ∈ s.streams, st.cfg = cfg ∧ ∃ it ∈ st.items, it.unit = some n

theorem items_prefix_write (st : OutStream) (item : StreamItem) (w : List UInt8) (last : Bool)
    (r : WriteResult) : (st.write item w last r).cfg = st.cfg ∧
      st.items <+: (st.write item w last r).items := by
  cases r with
  | failed n => exact ⟨rfl, prefix_rfl⟩
  | ok =>
    refine ⟨rfl, ?_⟩
    cases last with
    | true => exact prefix_append _ _
    | false => exact prefix_rfl

variable {t : PumpSet}

theorem OnWire.of_modify (h : OnWire cfg s n) (hsent : ∀ x ∈ s.sent, x ∈ t.sent) {k}
    {f : OutStream → OutStream} (hf : ∀ st, (f st).cfg = st.cfg ∧ st.items <+: (f st).items)
    (hstreams : t.streams = s.streams.modify k f) : OnWire cfg t n := by
  rcases h with ⟨hloop, hmem⟩ | ⟨st, hst, hcfg, it, hit, hunit⟩
  · exact .inl ⟨hloop, hsent n hmem⟩
  · obtain ⟨j, hj⟩ := mem_iff_getElem?.mp hst
    have hget : t.streams[j]? = some (if k = j then f st else st) := by
      rw [hstreams, getElem?_modify, hj]
      split <;> rfl
    refine .inr ⟨_, mem_of_getElem? hget, ?_⟩
    split
    · exact ⟨(hf st).1.trans hcfg, it, (hf st).2.subset hit, hunit⟩
    · exact ⟨hcfg, it, hit, hunit⟩

theorem OnWire.perform (h : OnWire cfg s n) (i : Nat) (ln : Lane) (now : WallClock)
    (r : WriteResult) : OnWire cfg (s.perform i ln now r) n := by
  have hsent : ∀ x ∈ s.sent, x ∈ delivered s.sent ln r := by
    intro x hx
    unfold delivered
    split
    · exact mem_append_left _ hx
    · exact hx
  unfold PumpSet.perform
  cases hpc : ln.pc with
  | header k item w rest u =>
    exact h.of_modify (k := k) hsent (fun st => items_prefix_write st item w rest.isEmpty r)
      (by simp only [written, hpc])
  | writing k item w rest =>
    exact h.of_modify (k := k) hsent (fun st => items_prefix_write st item w rest.isEmpty r)
      (by simp only [written, hpc])
  | _ =>
    have hsame : written s.streams ln r = s.streams := by simp only [written, hpc]
    exact h.imp (fun hd => ⟨hd.1, hsent n hd.2⟩)
      (Exists.imp fun _ hst => ⟨hsame.symm ▸ hst.1, hst.2⟩)

theorem OnWire.step {l} (h : OnWire cfg s n) (he : Effect s l s') : OnWire cfg s' n := by
  cases he with
  | opened _ _ =>
    exact h.imp id (fun ⟨st, hst, hrest⟩ => ⟨st, mem_append_left _ hst, hrest⟩)
  | write _ _ _ => exact h.perform _ _ _ _
  | done _ _ => exact OnWire.perform (s := s.finish _) h _ _ _ _
  | _ => exact h

/-- Every given unit is sent or in hand. -/
structure Kept (cfg : FeedConfig) (mine : List Nat) (s : PumpSet) : Prop where
  kept : ∀ n ∈ mine, OnWire cfg s n ∨ ∃ ln ∈ s.lanes, n ∈ ln.hand
  lanes : ∀ ln ∈ s.lanes, ln.Serves cfg mine

theorem Kept.sent (h : Kept cfg mine s) (hrest : ∀ ln ∈ s.lanes, ln.Resting) :
    ∀ n ∈ mine, OnWire cfg s n := by
  intro n hn
  rcases h.kept n hn with hsent | ⟨ln, hln, hhand⟩
  · exact hsent
  · rcases hrest ln hln with hpc | hpc <;> rw [Lane.hand, hpc] at hhand <;> cases hhand

variable {ln : Lane}

theorem Kept.move {i m} (h : Kept cfg mine s) (hlane : s.lanes[i]? = some ln)
    (hlanes : t.lanes = s.lanes.set i m) (hwire : ∀ n, OnWire cfg s n → OnWire cfg t n)
    (hhand : ∀ n ∈ ln.hand, n ∈ mine → n ∈ m.hand ∨ OnWire cfg t n) (hserves : m.Serves cfg mine) :
    Kept cfg mine t where
  kept := by
    intro n hn
    rcases h.kept n hn with hsent | ⟨x, hx, hmem⟩
    · exact .inl (hwire n hsent)
    · obtain ⟨j, hj⟩ := mem_iff_getElem?.mp hx
      by_cases hij : i = j
      · subst hij
        obtain rfl := mem_unique hlane hj
        rcases hhand n hmem hn with hm | hsent
        · exact .inr ⟨m, hlanes ▸ mem_of_getElem? (getElem?_set_some hlane), hm⟩
        · exact .inl hsent
      · refine .inr ⟨x, ?_, hmem⟩
        rw [hlanes]
        exact mem_of_getElem? ((getElem?_set_ne hij).trans hj)
  lanes := by
    rw [hlanes]
    exact forall_mem_set h.lanes hserves

theorem onWire_complete (hsound : Sound s) {i k item w} (hlane : s.lanes[i]? = some ln)
    (hpc : ln.pc = .writing k item w []) (hcfg : ln.cfg = cfg) (now : WallClock) (hn : n ∈ ln.hand) :
    OnWire cfg (s.perform i ln now .ok) n := by
  obtain ⟨st, hst, -, hwithin, -⟩ := hsound.within_frame (mem_of_getElem? hlane) hpc
  have hunit : item.unit = some n := by simpa [Lane.hand, hpc] using hn
  have hget : (written s.streams ln .ok)[k]? = some (st.write item w true .ok) := by
    simp [written, hpc, hst]
  exact .inr ⟨_, mem_of_getElem? hget, hwithin.owner.trans hcfg, item,
    mem_concat_self, hunit⟩

theorem Kept.perform (h : Kept cfg mine s) (hsound : Sound s) {i bytes}
    (hlane : s.lanes[i]? = some ln) (hat : ln.bytes? = some bytes) (now : WallClock) :
    Kept cfg mine (s.perform i ln now .ok) := by
  have hserves := h.lanes ln (mem_of_getElem? hlane)
  have hcfg := (ln.resume_same now .ok).1
  have hres := Lane.resumed hat now .ok
  have hmove := h.move (t := s.perform i ln now .ok) (m := ln.resume now .ok) hlane rfl
    (fun n hn => hn.perform i ln now .ok)
  generalize ln.resume now .ok = m at hcfg hres hmove
  -- the lane goes on with its unit, or is done with it
  have hkeep : m.hand = ln.hand → (ln.pc.Good cfg → m.pc.Good cfg) →
      Kept cfg mine (s.perform i ln now .ok) := fun hhand hgood =>
    hmove (fun n hn _ => .inl (hhand.symm ▸ hn)) (hserves.of_hand (hhand ▸ Sublist.refl _) hcfg hgood)
  have hleave : m.hand = [] → (∀ n ∈ ln.hand, n ∈ mine → OnWire cfg (s.perform i ln now .ok) n) →
      Kept cfg mine (s.perform i ln now .ok) := fun hhand hsent =>
    hmove (fun n hn hmine => .inr (hsent n hn hmine)) (Lane.serves_of_hand_nil hhand)
  cases hres with
  | @headerDone k item w u hpc =>
    have hhand : ln.hand = (u.map InHand.index).toList := by simp [Lane.hand, hpc]
    refine hmove (fun n hn hmine => ?_) (hserves.of_hand ?_ hcfg (fun _ => Lane.ready_good u))
    · obtain ⟨howner, hgood⟩ := hserves n hn hmine
      rw [hpc] at hgood
      rw [hhand] at hn
      cases u with
      | none => cases hn
      | some x =>
        rw [Lane.ready_keeps (howner.symm ▸ hgood x rfl)]
        exact .inl hn
    · rw [hhand]
      exact Lane.ready_hand _ k now u
  | headerMore hpc => exact hkeep (by simp [Lane.hand, hpc]) (by rw [hpc]; exact id)
  | frameDone hpc =>
    exact hleave (Lane.idle_hand _)
      (fun n hn hmine => onWire_complete hsound hlane hpc (hserves n hn hmine).1 now hn)
  | frameMore hpc => exact hkeep (by simp [Lane.hand, hpc]) (fun _ => trivial)
  | @sent u datagram hpc =>
    refine hleave (Lane.idle_hand _) (fun n hn hmine => .inl ?_)
    have hgood := (hserves n hn hmine).2
    rw [hpc] at hgood
    simp only [Lane.hand, hpc] at hn
    simp only [PumpSet.perform, delivered, hpc]
    exact ⟨hgood, mem_append_right _ hn⟩

theorem Kept.other {i m} (h : Kept cfg mine s) (hlane : s.lanes[i]? = some ln)
    (hlanes : t.lanes = s.lanes.set i m) (hwire : ∀ n, OnWire cfg s n → OnWire cfg t n)
    (hnone : ln.hand = []) (hnew : ∀ n ∈ m.hand, n ∉ mine) : Kept cfg mine t := by
  refine h.move hlane hlanes hwire ?_ (fun n hn hmine => absurd hmine (hnew n hn))
  intro n hn
  rw [hnone] at hn
  cases hn

theorem Kept.step (h : Kept cfg mine s) (hq : Queued s) (hsound : Sound s)
    (hold : ∀ n ∈ mine, n < s.units.length) {l : PumpLabel} (hl : l.clean = true)
    (he : Effect s l s') : Kept cfg mine s' := by
  -- Nothing fails, and a unit that is taken is not one of the given ones.
  have hwire : ∀ n, OnWire cfg s n → OnWire cfg s' n := fun n hn => hn.step he
  have hfresh : s.units.length ∉ mine := fun hmem => Nat.lt_irrefl _ (hold _ hmem)
  cases he with
  | @dequeue i au now ln hlane hpc hown =>
    refine h.other hlane rfl hwire (by simp only [Lane.hand, hpc]) ?_
    intro n hn
    rw [mem_singleton.mp ((Lane.receive_hand ln now hown _).subset hn)]
    exact hfresh
  | @call i au now ln hlane hpc hbidi =>
    refine ⟨fun n hn => (h.kept n hn).imp (hwire n) ?_, forall_mem_snoc h.lanes ?_⟩
    · exact exists_snoc
    · intro n hn hmine
      rw [mem_singleton.mp hn] at hmine
      exact absurd hmine hfresh
  | @opened i now ln u hlane hpc =>
    have hserves := h.lanes ln (mem_of_getElem? hlane)
    have hhand : ln.hand = (u.map InHand.index).toList := by simp [Lane.hand, hpc]
    refine h.move hlane rfl hwire ?_ ?_
    · intro n hn hmine
      left
      obtain ⟨hcfg, hgood⟩ := hserves n hn hmine
      rw [hpc] at hgood
      cases u with
      | none =>
        rw [hhand] at hn
        cases hn
      | some x =>
        rw [hhand] at hn
        rw [Lane.opened_keeps (hcfg.symm ▸ hgood x rfl)]
        exact hn
    · refine hserves.of_hand ?_ (ln.opened_same _ now u).1 ?_
      · rw [hhand]
        exact Lane.opened_hand ln _ now u
      · rw [hpc]
        exact Lane.opened_good
  | openFailed => cases hl
  | @queue i ln bytes hlane _ _ _ _ | @refuse i ln bytes hlane _ _ _ _ =>
    have hserves := h.lanes ln (mem_of_getElem? hlane)
    exact h.move hlane rfl hwire (fun n hn _ => .inl hn) hserves
  | @write i now r ln bytes hlane hat _ =>
    cases r with
    | ok => exact h.perform hsound hlane hat now
    | failed n => cases hl
  | @done now r e ln hbusy hlane =>
    cases r with
    | ok =>
      have hkept : Kept cfg mine (s.finish e) := { h with }
      exact hkept.perform { hsound with } hlane (hq.busy hbusy hlane) now
    | failed n => cases hl
  | stop hlane hpc =>
    exact h.other hlane rfl hwire (by simp only [Lane.hand, hpc]) (fun _ h => by cases h)
  | sched => exact ⟨fun n hn => (h.kept n hn).imp (hwire n) id, h.lanes⟩

theorem Kept.take {m} (h : Kept cfg mine s) (hwire : ∀ n, OnWire cfg s n → OnWire cfg t n)
    (hm : m ∈ t.lanes) (hothers : ∀ x ∈ t.lanes, x ∈ s.lanes ∨ x = m)
    (hbusy : ∀ x ∈ s.lanes, x.hand ≠ [] → x ∈ t.lanes) (hnew : ∀ x ∈ s.lanes, n ∉ x.hand)
    (hhand : m.hand = [n]) (hgood : m.cfg = cfg ∧ m.pc.Good cfg) : Kept cfg (mine ++ [n]) t where
  kept := by
    apply forall_mem_snoc
    · intro j hj
      refine (h.kept j hj).imp (hwire j) ?_
      rintro ⟨x, hx, hmem⟩
      exact ⟨x, hbusy x hx (ne_nil_of_mem hmem), hmem⟩
    · exact .inr ⟨m, hm, hhand ▸ mem_singleton_self n⟩
  lanes := by
    intro x hx
    rcases hothers x hx with hold | rfl
    · intro j hj hmine
      rcases mem_snoc hmine with hmine | rfl
      · exact h.lanes x hold j hj hmine
      · exact absurd hj (hnew x hold)
    · exact fun _ _ _ => hgood

/-! ## A call is alone on its stream -/

end PumpSet

/-- A loop has no stream, and no frame is on the stream of a call yet. -/
def Lane.Alone (streams : List OutStream) (ln : Lane) : Prop :=
  ln.cfg.loop = .bidiPerCall →
    (ln.call = false → ln.Resting ∧ ln.current = none) ∧
    ∀ k ∈ ln.uses, ∀ st, streams[k]? = some st → st.begun = []

namespace Lane

variable {ln : Lane} {streams : List OutStream} {k : Nat} {now : WallClock}

theorem Alone.call (h : ln.Alone streams) (hbidi : ln.cfg.loop = .bidiPerCall)
    (hbusy : ¬ ln.Resting) : ln.call = true := by
  by_contra hcall
  exact hbusy ((h hbidi).1 (Bool.eq_false_iff.mpr hcall)).1

theorem not_uses_idle (hcall : ln.call = true) (k : Nat) : k ∉ ln.idle.uses := by
  simp [idle, uses, hcall]

theorem not_uses_giveUp (hcall : ln.call = true) (k : Nat) : k ∉ ln.giveUp.uses := by
  simp [giveUp, idle, uses, hcall]

theorem write_uses_of_call (hcall : ln.call = true) (u : InHand) :
    ∀ j ∈ (ln.write k now u).uses, j = k := by
  unfold write
  split
  · exact fun j hj => (some.inj hj).symm
  · exact fun j hj => absurd hj (not_uses_giveUp hcall j)

theorem ready_uses_of_call (hcall : ln.call = true) (u : Option InHand) :
    ∀ j ∈ (ln.ready k now u).uses, j = k := by
  cases u with
  | none =>
    intro j hj
    exact absurd hj (@not_uses_idle { ln with current := some k } hcall j)
  | some u => exact write_uses_of_call hcall u

theorem opened_uses_of_call (hcall : ln.call = true) (u : Option InHand) :
    ∀ j ∈ (ln.opened k now u).uses, j = k := by
  unfold opened
  split
  · split
    · exact fun j hj => (some.inj hj).symm
    · exact fun j hj => absurd hj (not_uses_giveUp hcall j)
  · exact ready_uses_of_call hcall u

end Lane

namespace PumpSet

structure Alone (s : PumpSet) : Prop where
  streams : ∀ st ∈ s.streams, st.cfg.loop = .bidiPerCall → st.begun.length ≤ 1
  lanes : ∀ ln ∈ s.lanes, ln.Alone s.streams

theorem alone_start (cfgs : List FeedConfig) : Alone (PumpSet.start cfgs) where
  streams := nofun
  lanes := by
    intro ln hln hbidi
    obtain ⟨cfg, -, rfl⟩ := mem_map.mp hln
    have hloop : cfg.loop = .bidiPerCall := hbidi
    have hpc : (Lane.start cfg).pc = .waiting := by simp [Lane.start, hloop]
    refine ⟨fun _ => ⟨.inl hpc, rfl⟩, ?_⟩
    intro k hk
    rw [Lane.uses, hpc] at hk
    cases hk

section alone

variable {s t : PumpSet} {i k : Nat} {ln m : Lane}

theorem Alone.wrote (h : Alone s) (hsound : Sound s) {st item w rest last}
    (hlane : s.lanes[i]? = some ln) (hbusy : ¬ ln.Resting) (hk : k ∈ ln.uses)
    (hst : s.streams[k]? = some st) (hwithin : Within ln.cfg st item (w :: rest))
    (hsame : Lane.Same ln m) (hlanes : t.lanes = s.lanes.set i m)
    (hstreams : t.streams = s.streams.modify k (·.write item w last .ok))
    (huses : ln.call = true → st.begun = [] →
      ∀ j ∈ m.uses, j = k ∧ (st.write item w last .ok).begun = []) : Alone t := by
  rw [modify_eq_set hst] at hstreams
  have hmine := h.lanes ln (mem_of_getElem? hlane)
  constructor
  · rw [hstreams]
    apply forall_mem_set h.streams
    intro hbidi
    have hcfg : st.cfg.loop = .bidiPerCall := hbidi
    rw [hwithin.owner] at hcfg
    have hnone := (hmine hcfg).2 k hk st hst
    cases last with
    | true =>
      rw [OutStream.begun_complete item w hwithin.cut, hnone]
      exact length_toList_le
    | false =>
      rw [OutStream.begun_more, hnone]
      exact Nat.zero_le _
  · rw [hlanes, hstreams]
    intro x hx hbidi
    obtain ⟨j, hj⟩ := mem_iff_getElem?.mp hx
    rcases getElem?_set_cases hj with ⟨-, rfl⟩ | ⟨hne, hj⟩
    · rw [hsame.1] at hbidi
      have hcall := hmine.call hbidi hbusy
      refine ⟨fun hno => absurd (hsame.2.1.trans hcall) (Bool.eq_false_iff.mp hno), ?_⟩
      intro j' hj' st₁ hst₁
      obtain ⟨rfl, hbegun⟩ := huses hcall ((hmine hbidi).2 k hk st hst) j' hj'
      rw [getElem?_set_some hst] at hst₁
      exact some.inj hst₁ ▸ hbegun
    · -- another lane is at another stream
      have hother := h.lanes x (mem_of_getElem? hj) hbidi
      refine ⟨hother.1, fun j' hj' st₁ hst₁ => hother.2 j' hj' st₁ ?_⟩
      have hkj : k ≠ j' := by
        rintro rfl
        exact hne (hsound.apart j i x ln k hj hlane hj' hk)
      rw [getElem?_set_ne hkj] at hst₁
      exact hst₁

theorem Alone.perform (h : Alone s) (hsound : Sound s) {bytes} (hlane : s.lanes[i]? = some ln)
    (hat : ln.bytes? = some bytes) (now : WallClock) : Alone (s.perform i ln now .ok) := by
  have hmem := mem_of_getElem? hlane
  have hbusy := Lane.not_resting_of_bytes hat
  have hsame := ln.resume_same now .ok
  have hresumed := Lane.resumed hat now .ok
  generalize hm : ln.resume now .ok = m at hsame hresumed
  have hlanes : (s.perform i ln now .ok).lanes = s.lanes.set i m := by rw [← hm]; rfl
  cases hresumed with
  | @headerDone k item w u hpc =>
    obtain ⟨st, hst, -, hwithin, -⟩ := hsound.within_header hmem hpc
    have hfits := hsound.lanes ln hmem
    rw [Lane.Fits, hpc] at hfits
    obtain ⟨-, -, ⟨hunit, -⟩, -⟩ := hfits
    refine h.wrote hsound hlane hbusy (by rw [Lane.uses, hpc]; rfl) hst hwithin hsame hlanes
      (by simp only [PumpSet.perform, written, hpc]; rfl) ?_
    intro hcall hnone j hj
    refine ⟨@Lane.ready_uses_of_call { ln with gate := .free } k now hcall u j hj, ?_⟩
    show (st.write item w true .ok).begun = []
    rw [OutStream.begun_complete item w hwithin.cut, hnone, hunit]
    rfl
  | @headerMore k item w w' rest u hpc =>
    obtain ⟨st, hst, -, hwithin, -⟩ := hsound.within_header hmem hpc
    refine h.wrote hsound hlane hbusy (by rw [Lane.uses, hpc]; rfl) hst hwithin hsame hlanes
      (by simp only [PumpSet.perform, written, hpc]; rfl) ?_
    exact fun _ hnone j hj => ⟨(some.inj hj).symm, hnone⟩
  | @frameDone k item w hpc =>
    obtain ⟨st, hst, -, hwithin, -⟩ := hsound.within_frame hmem hpc
    refine h.wrote hsound hlane hbusy (by rw [Lane.uses, hpc]; rfl) hst hwithin hsame hlanes
      (by simp only [PumpSet.perform, written, hpc]; rfl) ?_
    intro hcall _ j hj
    exact absurd hj (@Lane.not_uses_idle { ln with gate := .free } hcall j)
  | @frameMore k item w w' rest hpc =>
    obtain ⟨st, hst, -, hwithin, -⟩ := hsound.within_frame hmem hpc
    refine h.wrote hsound hlane hbusy (by rw [Lane.uses, hpc]; rfl) hst hwithin hsame hlanes
      (by simp only [PumpSet.perform, written, hpc]; rfl) ?_
    exact fun _ hnone j hj => ⟨(some.inj hj).symm, hnone⟩
  | @sent u datagram hpc =>
    have hstreams : (s.perform i ln now .ok).streams = s.streams := by
      simp only [PumpSet.perform, written, hpc]
    refine ⟨hstreams.symm ▸ h.streams, ?_⟩
    rw [hlanes, hstreams]
    apply forall_mem_set h.lanes
    intro hbidi
    have hcall := (h.lanes ln hmem).call hbidi hbusy
    refine ⟨fun hno => absurd hcall (Bool.eq_false_iff.mp hno), ?_⟩
    intro j hj
    exact absurd hj (@Lane.not_uses_idle { ln with gate := .free } hcall j)

theorem Alone.step (h : Alone s) (hq : Queued s) (hsound : Sound s) {l : PumpLabel}
    (hl : l.clean = true) (he : Effect s l t) : Alone t := by
  cases he with
  | @dequeue i au now ln hlane hpc hown =>
    refine ⟨h.streams, forall_mem_set h.lanes ?_⟩
    intro hbidi
    rw [(ln.receive_same now _).1] at hbidi
    exact absurd hbidi hown
  | call hlane _ _ =>
    refine ⟨h.streams, forall_mem_snoc h.lanes ?_⟩
    exact fun _ => ⟨nofun, nofun⟩
  | @opened i now ln u hlane hpc =>
    have hbusy := Lane.not_resting_of_opening hpc
    have hold := h.lanes ln (mem_of_getElem? hlane)
    refine ⟨forall_mem_snoc h.streams (fun _ => Nat.zero_le _), ?_⟩
    apply forall_mem_set
    · intro x hx hbidi
      refine ⟨(h.lanes x hx hbidi).1, fun k hk st hst => ?_⟩
      obtain ⟨st', hst', -⟩ := Lane.uses_open (hsound.lanes x hx) hk
      change (s.streams ++ [OutStream.fresh ln.cfg])[k]? = some st at hst
      rw [getElem?_append_left (lt_of_getElem? hst')] at hst
      exact (h.lanes x hx hbidi).2 k hk st hst
    · intro hbidi
      rw [(ln.opened_same _ now u).1] at hbidi
      have hcall := hold.call hbidi hbusy
      refine ⟨fun hno => absurd ((ln.opened_same _ now u).2.1.trans hcall)
        (Bool.eq_false_iff.mp hno), fun k hk st hst => ?_⟩
      change (s.streams ++ [OutStream.fresh ln.cfg])[k]? = some st at hst
      rw [Lane.opened_uses_of_call hcall u k hk, getElem?_concat_length] at hst
      exact some.inj hst ▸ rfl
  | openFailed => cases hl
  | queue hlane _ _ _ _ | refuse hlane _ _ _ _ =>
    have hold := h.lanes _ (mem_of_getElem? hlane)
    exact ⟨h.streams, forall_mem_set h.lanes hold⟩
  | @write i now r ln bytes hlane hat _ =>
    cases r with
    | ok => exact h.perform hsound hlane hat now
    | failed n => cases hl
  | @done now r e ln hbusy hlane =>
    cases r with
    | ok =>
      have halone : Alone (s.finish e) := { h with }
      exact halone.perform { hsound with } hlane (hq.busy hbusy hlane) now
    | failed n => cases hl
  | @stop i ln hlane hpc =>
    refine ⟨h.streams, forall_mem_set h.lanes ?_⟩
    intro hbidi
    have hold := (h.lanes ln (mem_of_getElem? hlane) hbidi).1
    exact ⟨fun hcall => ⟨.inr rfl, (hold hcall).2⟩, nofun⟩
  | sched => exact { h with }

end alone

/-- With no other unit begun on the stream. -/
def OwnStream (cfg : FeedConfig) (s : PumpSet) (n : Nat) : Prop :=
  ∃ st ∈ s.streams, st.cfg = cfg ∧ st.begun = [n] ∧ ∃ it ∈ st.items, it.unit = some n

theorem Alone.own {s} {cfg : FeedConfig} {n} (h : Alone s) (hbidi : cfg.loop = .bidiPerCall)
    (hn : OnWire cfg s n) : OwnStream cfg s n := by
  rcases hn with ⟨hloop, -⟩ | ⟨st, hst, rfl, it, hit, hunit⟩
  · rw [hbidi] at hloop
    cases hloop
  · refine ⟨st, hst, rfl, ?_, it, hit, hunit⟩
    have hmem : n ∈ st.begun :=
      mem_filterMap.mpr ⟨it, mem_append_left _ hit, hunit⟩
    have hone := h.streams st hst hbidi
    obtain ⟨a, ha⟩ := length_eq_one_iff.mp
      (Nat.le_antisymm hone (length_pos_of_mem hmem))
    rw [ha] at hmem ⊢
    rw [mem_singleton.mp hmem]

end PumpSet

end QuicRTC

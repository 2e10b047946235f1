import QuicRTC.Framework.System
import QuicRTC.Session.Handshake

/-! # One Pump for Each Track

`AttachTrackWithKind`, `DetachTrack` and the start section of `Run` in `session/session.go` are
sections under `trackMu`. The `go` statements and the `close(tp.stop)` come after the unlock:
`Session.pumps` has the pumps that a goroutine is to start, `Session.stopped` those whose channel
one is to close.
-/

namespace QuicRTC

open LTS List Option GoMap

inductive RunPhase where
  | handshaking
  | failed
  | accepted
  | started
deriving DecidableEq

/-- `launched` and `closed` are the positions dealt with in `pumps` and `stopped`, the last
    one first. -/
structure PumpStart where
  session : Session
  phase : RunPhase
  launched : List Nat
  closed : List Nat
  /-- History: in the table when the start section ran, or inserted after it. -/
  due : List Nat

namespace PumpStart

inductive Label where
  | attach (name : GoString) (kind : Kind) (recv : ReceiverId) (priority trackID : UInt8)
  | detach (name : GoString)
  | handshake (ok : Bool)
  | startSection
  | go (k : Nat)
  | closeStop (k : Nat)

def next (s : PumpStart) : Label → Option PumpStart
  | .attach name kind recv priority trackID =>
    some { s with
      session := s.session.attachTrackWithKind name kind recv priority trackID
      due := if s.session.runStarted ∧ s.session.tracks.lookup name = none
        then s.due ++ [s.session.nextPump] else s.due }
  | .detach name => some { s with session := s.session.detachTrack name }
  | .handshake ok =>
    if s.phase = .handshaking then some { s with phase := if ok then .accepted else .failed } else none
  | .startSection =>
    if s.phase = .accepted then
      some { s with
        session := s.session.startPumps
        phase := .started
        due := s.due ++ s.session.tracks.entries.map (fun e => e.2.id) }
    else none
  | .go k =>
    if k < s.session.pumps.length ∧ k ∉ s.launched then some { s with launched := k :: s.launched }
    else none
  | .closeStop k =>
    if k < s.session.stopped.length ∧ k ∉ s.closed then some { s with closed := k :: s.closed }
    else none

def start (cfg : SessionConfig) : PumpStart := ⟨.new cfg, .handshaking, [], [], []⟩

def pumpSystem (cfg : SessionConfig) : System PumpStart Label := ofFun (start cfg) next

/-- By their identities. -/
def started (s : PumpStart) : List Nat :=
  s.launched.filterMap (fun k => (s.session.pumps.map TrackPump.id)[k]?)

def stopped (s : PumpStart) : List Nat := s.closed.filterMap (fun k => s.session.stopped[k]?)

/-! ## The invariant -/

def ids (m : GoMap TrackPump) : List Nat := m.entries.map (fun e => e.2.id)

variable {m : GoMap TrackPump} {name : GoString} {tp : TrackPump}

theorem ids_insert (h : m.lookup name = none) : ids (m.insert name tp) = tp.id :: ids m := by
  rw [ids, AList.entries_insert_of_notMem (AList.lookup_eq_none.mp h), map_cons, ids]

theorem ids_erase (h : m.lookup name = some tp) : (tp.id :: ids (m.erase name)).Perm (ids m) := by
  have hall := (entries_perm_gone (sub_erase m name)).trans
    (Perm.append_left _ (gone_erase h))
  exact ((hall.trans perm_append_comm).map (fun e => e.2.id)).symm

/-- Each list has no duplicates. -/
structure Ok (s : PumpStart) : Prop where
  apart : (s.session.stopped ++ ids s.session.tracks).Nodup
  once : s.due.Nodup
  born : ∀ id ∈ s.session.stopped ++ ids s.session.tracks ++ s.due, id < s.session.nextPump
  due : s.due = s.session.pumps.map TrackPump.id
  before : s.session.runStarted = false → s.due = []
  phase : s.session.runStarted = true ↔ s.phase = .started
  launched : s.launched.Nodup
  closed : s.closed.Nodup

namespace Ok

variable {s s' : PumpStart} (h : s.Ok)
include h

theorem attach (kind : Kind) (recv : ReceiverId) (priority trackID : UInt8)
    (hstep : s.next (.attach name kind recv priority trackID) = some s') : s'.Ok := by
  cases hl : s.session.tracks.lookup name with
  | some tp =>
    simp only [next, Session.attachTrackWithKind, hl, reduceCtorEq, and_false, if_false] at hstep
    exact some.inj hstep ▸ h
  | none =>
    simp only [next, Session.attachTrackWithKind, hl, and_true] at hstep
    cases hstep
    have hnew : s.session.nextPump ∉ s.session.stopped ++ ids s.session.tracks ++ s.due :=
      fun hin => Nat.lt_irrefl _ (h.born _ hin)
    rw [mem_append, not_or] at hnew
    refine { h with apart := ?_, once := ?_, born := ?_, due := ?_, before := ?_ }
    · show (s.session.stopped ++ ids (s.session.tracks.insert name _)).Nodup
      rw [ids_insert hl, perm_middle.nodup_iff]
      exact nodup_cons.mpr ⟨hnew.1, h.apart⟩
    · show (if s.session.runStarted then s.due ++ [s.session.nextPump] else s.due).Nodup
      split
      · rw [perm_append_comm.nodup_iff]
        exact nodup_cons.mpr ⟨hnew.2, h.once⟩
      · exact h.once
    · intro id hid
      have hcases : id = s.session.nextPump ∨
          id ∈ s.session.stopped ++ ids s.session.tracks ++ s.due := by
        simp only [ids_insert hl, mem_append, mem_cons] at hid ⊢
        by_cases hr : s.session.runStarted = true
        · simp only [hr, if_true, mem_append, mem_singleton] at hid
          tauto
        · rw [if_neg hr] at hid
          tauto
      rcases hcases with rfl | hold
      · exact Nat.lt_succ_self _
      · exact Nat.lt_succ_of_lt (h.born id hold)
    · cases hr : s.session.runStarted <;> simp [h.due]
    · intro hr
      have hr : s.session.runStarted = false := hr
      simpa [hr] using h.before hr

theorem detach (hstep : s.next (.detach name) = some s') : s'.Ok := by
  cases hstep
  unfold Session.detachTrack
  cases hl : s.session.tracks.lookup name with
  | none => exact { h with }
  | some tp =>
    have hsame : (s.session.stopped ++ [tp.id] ++ ids (s.session.tracks.erase name)).Perm
        (s.session.stopped ++ ids s.session.tracks) := by
      rw [append_assoc]
      exact (ids_erase hl).append_left _
    refine { h with apart := hsame.nodup_iff.mpr h.apart, born := fun id hid => h.born id ?_ }
    exact (hsame.append_right _).mem_iff.mp hid

theorem startSection (hstep : s.next .startSection = some s') : s'.Ok := by
  obtain ⟨hphase, rfl⟩ := of_guard hstep
  have hnone : s.due = [] := h.before (by
    by_contra hr
    rw [h.phase.mp (by simpa using hr)] at hphase
    cases hphase)
  have hpumps : s.session.pumps = [] := map_eq_nil_iff.mp (h.due.symm.trans hnone)
  refine { h with once := ?_, born := ?_, due := ?_, before := nofun, phase := iff_of_true rfl rfl }
  · rw [hnone]
    exact (nodup_append.mp h.apart).2.1
  · intro id hid
    apply h.born
    rw [hnone] at hid ⊢
    simp only [Session.startPumps, ids, mem_append] at hid ⊢
    tauto
  · simp [Session.startPumps, hnone, hpumps, Function.comp_def]

theorem step {l} (hstep : s.next l = some s') : s'.Ok := by
  cases l with
  | attach name kind recv priority trackID => exact h.attach kind recv priority trackID hstep
  | detach name => exact h.detach hstep
  | handshake ok =>
    obtain ⟨hphase, rfl⟩ := of_guard hstep
    have hnot : s.session.runStarted ≠ true := fun hr => by simp [h.phase.mp hr] at hphase
    exact { h with phase := iff_of_false hnot (by cases ok <;> simp) }
  | startSection => exact h.startSection hstep
  | go k =>
    obtain ⟨hk, rfl⟩ := of_guard hstep
    exact { h with launched := nodup_cons.mpr ⟨hk.2, h.launched⟩ }
  | closeStop k =>
    obtain ⟨hk, rfl⟩ := of_guard hstep
    exact { h with closed := nodup_cons.mpr ⟨hk.2, h.closed⟩ }

end Ok

theorem nodup_at {l ks : List Nat} (hl : l.Nodup) (hks : ks.Nodup) :
    (ks.filterMap (fun k => l[k]?)).Nodup := by
  refine hks.filterMap ?_
  intro i j a hi hj
  exact (getElem?_inj (Slots.lt_of_getElem? hi) hl).mp (Eq.trans hi hj.symm)

/-- **One pump for each track.** No pump is started twice, and only those in the table at
    the start section or inserted after it; all of them when no `go` statement is
    outstanding. None is after a failed handshake, and no channel is closed twice. -/
theorem pumps_started_once {cfg : SessionConfig} {s : PumpStart}
    (hs : Reachable (pumpSystem cfg) s) :
    s.started.Nodup ∧ s.started ⊆ s.due ∧
    ((∀ k < s.session.pumps.length, k ∈ s.launched) → s.due ⊆ s.started) ∧
    (s.phase = .failed → s.started = []) ∧ s.stopped.Nodup := by
  have h : s.Ok := by
    refine invariant_ofFun Ok ?_ (fun _ _ _ _ h => h.step) s hs
    refine ⟨nodup_nil, nodup_nil, ?_, rfl, fun _ => rfl, ?_, nodup_nil, nodup_nil⟩
    · simp [start, Session.new, ids]
    · simp [start, Session.new]
  have hstarted : s.started = s.launched.filterMap (fun k => s.due[k]?) := by rw [started, h.due]
  have hsub : s.started ⊆ s.due := by
    intro id hid
    rw [hstarted] at hid
    obtain ⟨k, -, hk⟩ := mem_filterMap.mp hid
    exact mem_of_getElem? hk
  refine ⟨?_, hsub, ?_, ?_, nodup_at (nodup_append.mp h.apart).1 h.closed⟩
  · rw [hstarted]
    exact nodup_at h.once h.launched
  · intro hall id hid
    obtain ⟨k, hk⟩ := getElem?_of_mem hid
    have hlt : k < s.session.pumps.length := by
      have := Slots.lt_of_getElem? hk
      rwa [h.due, length_map] at this
    rw [hstarted]
    exact mem_filterMap.mpr ⟨k, hall k hlt, hk⟩
  · intro hfailed
    have hnone : s.due = [] := h.before (by
      by_contra hr
      rw [h.phase.mp (by simpa using hr)] at hfailed
      cases hfailed)
    exact subset_nil.mp (hnone ▸ hsub)

def bareConfig : SessionConfig := ⟨[], none, [], ⟨[], 0, 0, 0, 0, 0, [], [], []⟩, .zero⟩

theorem pumps_started_once_two : ∃ s, Reachable (pumpSystem bareConfig) s ∧
    s.started.Nodup ∧ s.started = [0, 1] ∧ s.stopped = [0] :=
  exists_run_imp [.attach (str "a") .video 0 4 0, .handshake true, .startSection,
    .attach (str "b") .audio 1 4 0, .detach (str "a"), .go 1, .closeStop 0, .go 0]
    (fun s hs (hrun : s.started = [0, 1] ∧ s.stopped = [0]) => ⟨(pumps_started_once hs).1, hrun⟩)
    (by decide +kernel)

end PumpStart

end QuicRTC

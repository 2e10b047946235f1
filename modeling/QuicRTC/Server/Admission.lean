import QuicRTC.Framework.Slots
import QuicRTC.Framework.System

/-! # The Session Cap

The `/wt` handlers of `server/server.go`. A handler looks at the draining flag, compares `current`
with `MaxSessions`, and upgrades the connection. Only then does it count itself in `current`; the
goroutine of its session counts it out.
-/

namespace QuicRTC.Admission

open LTS

/-! ## The system -/

/-- Then the goroutine it has started. -/
inductive Handler where
  /-- Not draining. -/
  | arrived
  /-- Below the cap, in `Upgrade`. -/
  | upgrading
  | upgraded
  /-- In `runSession`. -/
  | running
  /-- `runSession` has returned. -/
  | leaving
  | over
deriving DecidableEq

/-- Compared, and not yet counted. -/
def Handler.pending : Handler → Bool
  | .upgrading | .upgraded => true
  | _ => false

def Handler.counted : Handler → Bool
  | .running | .leaving => true
  | _ => false

structure Server where
  draining : Bool
  current : Int32
  handlers : List Handler

inductive Step where
  | request
  | check (i : Nat)
  | upgrade (i : Nat) (ok : Bool)
  /-- `current.Add(1)`; the goroutine starts. -/
  | count (i : Nat)
  | finish (i : Nat)
  /-- `current.Add(-1)`. -/
  | uncount (i : Nat)
  | shutdown

namespace Server

def start : Server := ⟨false, 0, []⟩

/-- As `New` takes it. -/
def maxSessions (configured : Int) : Int := if configured ≤ 0 then 16 else configured

def move (s : Server) (i : Nat) (a b : Handler) : Option Server :=
  if s.handlers[i]? = some a then some { s with handlers := s.handlers.set i b } else none

def next (configured : Int) (s : Server) : Step → Option Server
  | .request => if s.draining then some s else some { s with handlers := s.handlers ++ [.arrived] }
  | .check i =>
    s.move i .arrived (if maxSessions configured ≤ s.current.toInt then .over else .upgrading)
  | .upgrade i ok => s.move i .upgrading (if ok then .upgraded else .over)
  | .count i => { s with current := s.current + 1 }.move i .upgraded .running
  | .finish i => s.move i .running .leaving
  | .uncount i => { s with current := s.current - 1 }.move i .leaving .over
  | .shutdown => some { s with draining := true }

def admissionSystem (configured : Int) : System Server Step := ofFun start (next configured)

def running (s : Server) : Nat := s.handlers.countP (· = .running)

/-! ## One handler at a time -/

/-- No handler compares while another is pending. -/
def alone (s : Server) : Step → Bool
  | .check _ => s.handlers.all (fun h => !h.pending)
  | _ => true

def pending (s : Server) : Nat := s.handlers.countP Handler.pending

def counted (s : Server) : Nat := s.handlers.countP Handler.counted

/-- `current` counts the handlers, and with those on their way they are within the cap. -/
structure Capped (configured : Int) (s : Server) : Prop where
  current : s.current.toInt = s.counted
  cap : (s.counted + s.pending : Int) ≤ maxSessions configured

variable {configured : Int} {s s' : Server} {i : Nat} {a b : Handler}

theorem move_spec (h : s.move i a b = some s') :
    s'.current = s.current ∧
    s'.pending + (if a.pending then 1 else 0) = s.pending + (if b.pending then 1 else 0) ∧
    s'.counted + (if a.counted then 1 else 0) = s.counted + (if b.counted then 1 else 0) := by
  obtain ⟨ha, rfl⟩ := of_guard h
  exact ⟨rfl, Slots.countP_set_add ha _ b, Slots.countP_set_add ha _ b⟩

theorem Capped.move (h : Capped configured s) (hmove : s.move i a b = some s')
    (hcounted : b.counted = a.counted) (hpending : b.pending = true → a.pending = true) :
    Capped configured s' := by
  obtain ⟨hcur, hp, hc⟩ := move_spec hmove
  rw [hcounted] at hc
  have hsame : s'.counted = s.counted := by omega
  have hle : s'.pending ≤ s.pending := by
    split at hp <;> split at hp <;> first | omega | simp_all
  refine ⟨by rw [hcur, hsame, h.current], ?_⟩
  have hcap := h.cap
  omega

theorem Capped.step (h : Capped configured s) (hmax : maxSessions configured ≤ 2147483647) {l}
    (hok : s.alone l = true) (hstep : s.next configured l = some s') : Capped configured s' := by
  have hcur := h.current
  have hcap := h.cap
  cases l with
  | request =>
    simp only [next] at hstep
    split at hstep
    · cases hstep
      exact h
    · cases hstep
      exact ⟨by simpa [counted, Handler.counted] using hcur,
        by simpa [counted, pending, Handler.counted, Handler.pending] using hcap⟩
  | check i =>
    simp only [next] at hstep
    split at hstep
    · exact h.move hstep rfl nofun
    · have hnone : s.pending = 0 := by
        simp only [alone, List.all_eq_true, Bool.not_eq_true'] at hok
        exact List.countP_eq_zero.mpr (fun x hx => by simp [hok x hx])
      obtain ⟨hsame, hp, hc⟩ := move_spec hstep
      simp [Handler.pending, Handler.counted] at hp hc
      exact ⟨by rw [hsame]; omega, by omega⟩
  | upgrade i ok =>
    cases ok
    · exact h.move (b := .over) hstep rfl nofun
    · exact h.move (b := .upgraded) hstep rfl (fun _ => rfl)
  | count i =>
    obtain ⟨hsame, hp, hc⟩ := move_spec hstep
    simp [Handler.pending, Handler.counted] at hp hc
    have hp' : s'.pending + 1 = s.pending := hp
    have hc' : s'.counted = s.counted + 1 := hc
    refine ⟨?_, by omega⟩
    rw [hsame, Int32.toInt_add, Int.bmod_eq_of_le] <;> simp <;> omega
  | finish i => exact h.move hstep rfl nofun
  | uncount i =>
    obtain ⟨hsame, hp, hc⟩ := move_spec hstep
    simp [Handler.pending, Handler.counted] at hp hc
    have hp' : s'.pending = s.pending := hp
    have hc' : s'.counted + 1 = s.counted := hc
    refine ⟨?_, by omega⟩
    rw [hsame, Int32.toInt_sub, Int.bmod_eq_of_le] <;> simp <;> omega
  | shutdown =>
    cases hstep
    exact ⟨hcur, hcap⟩

theorem Capped.start (configured : Int) : Capped configured start := by
  refine ⟨rfl, ?_⟩
  show (0 : Int) ≤ maxSessions configured
  unfold maxSessions
  split <;> omega

theorem running_le_counted (s : Server) : s.running ≤ s.counted :=
  List.countP_mono_left (fun h _ hrun => by simp_all [Handler.counted])

/-- At most `MaxSessions` sessions run, if no handler compares while another is between its
    comparison and its count. -/
theorem sessions_capped (hmax : maxSessions configured ≤ 2147483647)
    (hs : Reachable ((admissionSystem configured).restrict (fun s l => s.alone l = true)) s) :
    (s.running : Int) ≤ maxSessions configured := by
  have h : Capped configured s :=
    invariant_restrict _ (.start configured) (fun _ _ _ _ h => h.step hmax) s hs
  have hrun := s.running_le_counted
  have hcap := h.cap
  omega

theorem sessions_capped_full : ∃ s : Server,
    Reachable ((admissionSystem 1).restrict (fun s l => s.alone l = true)) s ∧
    s.running = 1 ∧ (s.running : Int) ≤ maxSessions 1 :=
  exists_run_given_imp [.request, .check 0, .upgrade 0 true, .request, .count 0, .check 1]
    (fun s hs (hrun : s.running = 1) => ⟨hrun, sessions_capped (by decide) hs⟩) (by decide +kernel)

/-- Two requests compare before either has counted. -/
theorem cap_exceeded : ∃ s : Server,
    Reachable (admissionSystem 1) s ∧ maxSessions 1 < (s.running : Int) :=
  exists_run [.request, .request, .check 0, .check 1, .upgrade 0 true, .upgrade 1 true,
    .count 0, .count 1] (by decide +kernel)

end Server

end QuicRTC.Admission

import Mathlib.Data.List.Basic
import Mathlib.Logic.Relation

/-! # Labelled Transition Systems

A system is a set of initial states and a labelled step relation. The induction over runs is
packaged once, for all runs and for those whose steps meet a side condition. A system given by a
step function can be run, and can keep a record beside its state.
-/

namespace LTS

open Option

variable {State : Type} {Label : Type}

/-! ## Systems and runs -/

structure System (State : Type) (Label : Type) where
  init : State → Prop
  step : State → Label → State → Prop

inductive Reachable (sys : System State Label) : State → Prop where
  | init : ∀ {s}, sys.init s → Reachable sys s
  | step : ∀ {s s'} (l : Label), Reachable sys s → sys.step s l s' → Reachable sys s'

def System.restrict (sys : System State Label) (ok : State → Label → Prop) :
    System State Label where
  init := sys.init
  step := fun s l s' => ok s l ∧ sys.step s l s'

variable {s s' start : State} {sys : System State Label}

/-- A step of a function that tests its label first. -/
theorem of_guard {p : Prop} [Decidable p] (h : (if p then some s else none) = some s') : p ∧ s = s' :=
  (ite_none_right_eq_some.mp h).imp_right some.inj

/-- **Invariant rule**, given what holds in every reachable state. -/
theorem invariant_given (known inv : State → Prop)
    (hknown : ∀ s, Reachable sys s → known s) (hinit : ∀ s, sys.init s → inv s)
    (hstep : ∀ s l s', known s → inv s → sys.step s l s' → inv s') :
    ∀ s, Reachable sys s → inv s := by
  intro s h
  induction h with
  | init hs => exact hinit _ hs
  | step l hreach hst ih => exact hstep _ l _ (hknown _ hreach) ih hst

/-! ## Any number of steps -/

def System.Steps (sys : System State Label) : State → State → Prop :=
  Relation.ReflTransGen (fun s s' => ∃ l, sys.step s l s')

theorem System.Steps.of_restrict {ok : State → Label → Prop} (h : (sys.restrict ok).Steps s s') : sys.Steps s s' := by
  induction h with
  | refl => exact Relation.ReflTransGen.refl
  | tail _ hlast ih =>
    obtain ⟨l, hl⟩ := hlast
    exact ih.tail ⟨l, hl.2⟩

theorem Reachable.steps (h : Reachable sys s) (hs : sys.Steps s s') : Reachable sys s' := by
  induction hs with
  | refl => exact h
  | tail _ hlast ih =>
    obtain ⟨l, hl⟩ := hlast
    exact .step l ih hl

theorem Reachable.keeps (known P : State → Prop) (hknown : ∀ s, Reachable sys s → known s)
    (hstep : ∀ s l s', known s → P s → sys.step s l s' → P s')
    (h : Reachable sys s) (hP : P s) (hs : sys.Steps s s') : P s' := by
  induction hs with
  | refl => exact hP
  | tail hpre hlast ih =>
    obtain ⟨l, hl⟩ := hlast
    exact hstep _ l _ (hknown _ (h.steps hpre)) ih hl

/-! ## Systems given by a step function -/

/-- `none`: the label is not enabled. -/
def ofFun (start : State) (next : State → Label → Option State) : System State Label where
  init := fun s => s = start
  step := fun s l s' => next s l = some s'

/-- Up to the first label that is not enabled or does not meet `ok`. -/
def run (next : State → Label → Option State) (ok : State → Label → Bool) :
    State → List Label → Option State
  | s, [] => some s
  | s, l :: ls =>
    if ok s l then
      match next s l with
      | some s' => run next ok s' ls
      | none => none
    else none

variable {next : State → Label → Option State} {ok : State → Label → Bool}

theorem steps_of_run :
    ∀ {ls : List Label} {s s' : State}, run next ok s ls = some s' →
      ((ofFun start next).restrict (fun s l => ok s l = true)).Steps s s' := by
  intro ls
  induction ls with
  | nil =>
    intro s s' h
    simp only [run, some.injEq] at h
    exact h ▸ Relation.ReflTransGen.refl
  | cons l ls ih =>
    intro s s' h
    simp only [run] at h
    split at h
    · next hok =>
      split at h
      · next t ht => exact Relation.ReflTransGen.head ⟨l, hok, ht⟩ (ih h)
      · cases h
    · cases h

theorem reachable_of_run {ls} (h : run next ok start ls = some s') :
    Reachable ((ofFun start next).restrict (fun s l => ok s l = true)) s' :=
  Reachable.steps (Reachable.init rfl) (steps_of_run h)

theorem Reachable.of_restrict {ok : State → Label → Prop}
    (h : Reachable (sys.restrict ok) s) : Reachable sys s := by
  induction h with
  | init hs => exact Reachable.init hs
  | step l _ hst ih => exact Reachable.step l ih hst.2

theorem Reachable.mono {ok ok' : State → Label → Prop} (himp : ∀ s l, ok s l → ok' s l)
    (h : Reachable (sys.restrict ok) s) : Reachable (sys.restrict ok') s := by
  induction h with
  | init hs => exact Reachable.init hs
  | step l _ hst ih => exact Reachable.step l ih ⟨himp _ _ hst.1, hst.2⟩

theorem Reachable.restrict_and {p q : State → Label → Bool}
    (h : Reachable (sys.restrict (fun s l => (p s l && q s l) = true)) s) :
    Reachable ((sys.restrict (fun s l => p s l = true)).restrict (fun s l => q s l = true)) s := by
  induction h with
  | init hs => exact Reachable.init hs
  | step l _ hst ih =>
    obtain ⟨hp, hq⟩ := Bool.and_eq_true_iff.mp hst.1
    exact Reachable.step l ih ⟨hq, hp, hst.2⟩

/-- **Invariant rule** for steps that meet a side condition. -/
theorem invariant_restrict {ok : State → Label → Prop} (inv : State → Prop) (hstart : inv start)
    (hstep : ∀ s l s', Reachable ((ofFun start next).restrict ok) s → inv s → ok s l →
      next s l = some s' → inv s') :
    ∀ s, Reachable ((ofFun start next).restrict ok) s → inv s := by
  intro s h
  induction h with
  | init hs => exact hs ▸ hstart
  | step l hreach hst ih => exact hstep _ l _ hreach ih hst.1 hst.2

theorem invariant_ofFun (inv : State → Prop) (hstart : inv start)
    (hstep : ∀ s l s', Reachable (ofFun start next) s → inv s → next s l = some s' → inv s') :
    ∀ s, Reachable (ofFun start next) s → inv s := by
  intro s h
  induction h with
  | init hs => exact hs ▸ hstart
  | step l hreach hst ih => exact hstep _ l _ hreach ih hst

theorem exists_reachable (start : State) (next : State → Label → Option State)
    (ok : State → Label → Bool) (p : State → Bool) (ls : List Label)
    (h : (run next ok start ls).any p = true) :
    ∃ s, Reachable ((ofFun start next).restrict (fun s l => ok s l = true)) s ∧ p s = true := by
  obtain ⟨s, hs, hp⟩ := (any_eq_true _ _).mp h
  exact ⟨s, reachable_of_run hs, hp⟩

theorem exists_run_given {P : State → Prop} [DecidablePred P] (ls : List Label)
    (h : (run next ok start ls).any (fun s => decide (P s)) = true) :
    ∃ s, Reachable ((ofFun start next).restrict (fun s l => ok s l = true)) s ∧ P s := by
  obtain ⟨s, hs, hp⟩ := exists_reachable start next ok _ ls h
  exact ⟨s, hs, of_decide_eq_true hp⟩

theorem exists_run {P : State → Prop} [DecidablePred P] (ls : List Label)
    (h : (run next (fun _ _ => true) start ls).any (fun s => decide (P s)) = true) :
    ∃ s, Reachable (ofFun start next) s ∧ P s := by
  obtain ⟨s, hs, hp⟩ := exists_run_given ls h
  exact ⟨s, hs.of_restrict, hp⟩

theorem exists_run_given_imp {P Q : State → Prop} [DecidablePred P] (ls : List Label)
    (hpq : ∀ s, Reachable ((ofFun start next).restrict (fun s l => ok s l = true)) s → P s → Q s)
    (h : (run next ok start ls).any (fun s => decide (P s)) = true) :
    ∃ s, Reachable ((ofFun start next).restrict (fun s l => ok s l = true)) s ∧ Q s := by
  obtain ⟨s, hs, hp⟩ := exists_run_given ls h
  exact ⟨s, hs, hpq s hs hp⟩

theorem exists_run_imp {P Q : State → Prop} [DecidablePred P] (ls : List Label)
    (hpq : ∀ s, Reachable (ofFun start next) s → P s → Q s)
    (h : (run next (fun _ _ => true) start ls).any (fun s => decide (P s)) = true) :
    ∃ s, Reachable (ofFun start next) s ∧ Q s := by
  obtain ⟨s, hs, hp⟩ := exists_run ls h
  exact ⟨s, hs, hpq s hs hp⟩

theorem exists_steps (start : State) (next : State → Label → Option State) (ok : State → Label → Bool)
    (p : State → State → Bool) (ls ls' : List Label)
    (h : (run next ok start ls).any (fun s => (run next ok s ls').any (p s)) = true) :
    ∃ s s', Reachable ((ofFun start next).restrict (fun s l => ok s l = true)) s ∧
      ((ofFun start next).restrict (fun s l => ok s l = true)).Steps s s' ∧ p s s' = true := by
  obtain ⟨s, hs, h'⟩ := (any_eq_true _ _).mp h
  obtain ⟨s', hs', hp⟩ := (any_eq_true _ _).mp h'
  exact ⟨s, s', reachable_of_run hs, steps_of_run hs', hp⟩

/-- No step reads the record. -/
def withHistory {History : Type} (next : State → Label → Option State)
    (record : State → Label → State → History → History) :
    State × History → Label → Option (State × History) :=
  fun x l => (next x.1 l).map (fun s' => (s', record x.1 l s' x.2))

theorem withHistory_eq_some {History} {record : State → Label → State → History → History} {x x' l} :
    withHistory next record x l = some x' ↔
      next x.1 l = some x'.1 ∧ record x.1 l x'.1 x.2 = x'.2 := by
  obtain ⟨s', h'⟩ := x'
  simp only [withHistory, map_eq_some_iff, Prod.mk.injEq]
  constructor
  · rintro ⟨s, hnext, rfl, rfl⟩
    exact ⟨hnext, rfl⟩
  · intro ⟨hnext, hrec⟩
    exact ⟨s', hnext, rfl, hrec⟩

/-- The record restricts no run. -/
theorem exists_history {History} (record : State → Label → State → History → History) (h₀ : History)
    (h : Reachable (ofFun start next) s) :
    ∃ r, Reachable (ofFun (start, h₀) (withHistory next record)) (s, r) := by
  induction h with
  | init hs => exact ⟨h₀, .init (congrArg (·, h₀) hs)⟩
  | step l _ hst ih =>
    obtain ⟨r, hr⟩ := ih
    exact ⟨record _ l _ r, hr.step l (withHistory_eq_some.mpr ⟨hst, rfl⟩)⟩

end LTS

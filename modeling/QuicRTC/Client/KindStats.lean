import Mathlib.Order.Interval.Finset.Nat
import QuicRTC.Client.Client

/-! # Receive Statistics per Kind

`client/kindstats.go`, its twin `ts-sdk/src/kindstats.ts`, and how `client/client.go` chooses the
kind of a frame. Neither `last_seq` nor `dropped` depends on the latency window, which is left out.

`dropped` is kept from the running maximum alone. The Go side adds 1 to the largest `Seq` modulo
`2^32`, the TypeScript side does not. A stream keeps the kind it found when it was accepted.
-/

namespace QuicRTC

open LTS Function List

/-! ## The collectors -/

structure KindAccumulator where
  lastSeq : UInt32
  haveSeq : Bool
  dropped : UInt64
deriving DecidableEq

def KindAccumulator.observe (a : KindAccumulator) (seq : UInt32) : KindAccumulator :=
  let a :=
    if a.haveSeq && decide (a.lastSeq + 1 < seq) then
      { a with dropped := a.dropped + (seq - a.lastSeq - 1).toUInt64 }
    else a
  if !a.haveSeq || decide (a.lastSeq < seq) then { a with lastSeq := seq, haveSeq := true } else a

variable {a : KindAccumulator}

theorem KindAccumulator.observe_of_have (h : a.haveSeq = true) (seq : UInt32) :
    a.observe seq =
      { lastSeq := if a.lastSeq < seq then seq else a.lastSeq
        haveSeq := true
        dropped := if a.lastSeq + 1 < seq then a.dropped + (seq - a.lastSeq - 1).toUInt64
          else a.dropped } := by
  obtain ⟨last, _, dropped⟩ := a
  subst h
  by_cases hlt : last < seq <;> by_cases hgap : last + 1 < seq <;> simp [observe, hlt, hgap]

/-- The map `acc`. -/
abbrev KindStatsCollector (A : Type) := GoString → Option A

def observe (k : KindStatsCollector KindAccumulator) (o : GoString × UInt32) :
    KindStatsCollector KindAccumulator :=
  update k o.1 (some (((k o.1).getD ⟨0, false, 0⟩).observe o.2))

def collect (obs : List (GoString × UInt32)) : KindStatsCollector KindAccumulator :=
  obs.foldl observe (fun _ => none)

theorem collect_snoc (obs : List (GoString × UInt32)) (o : GoString × UInt32) :
    collect (obs ++ [o]) = observe (collect obs) o := foldl_concat ..

namespace Sdk

/-- Numbers are exact here. -/
structure KindAccumulator where
  lastSeq : Nat
  haveSeq : Bool
  dropped : Nat
deriving DecidableEq

def KindAccumulator.observe (a : KindAccumulator) (seq : Nat) : KindAccumulator :=
  let a :=
    if a.haveSeq && decide (a.lastSeq + 1 < seq) then
      { a with dropped := a.dropped + (seq - a.lastSeq - 1) }
    else a
  if !a.haveSeq || decide (a.lastSeq < seq) then { a with lastSeq := seq, haveSeq := true } else a

theorem KindAccumulator.observe_of_have {a : KindAccumulator} (h : a.haveSeq = true) (seq : Nat) :
    a.observe seq =
      { lastSeq := if a.lastSeq < seq then seq else a.lastSeq
        haveSeq := true
        dropped := if a.lastSeq + 1 < seq then a.dropped + (seq - a.lastSeq - 1) else a.dropped } := by
  obtain ⟨last, _, dropped⟩ := a
  subst h
  by_cases hlt : last < seq <;> by_cases hgap : last + 1 < seq <;> simp [observe, hlt, hgap]

def observe (k : KindStatsCollector KindAccumulator) (o : GoString × UInt32) :
    KindStatsCollector KindAccumulator :=
  update k o.1 (some (((k o.1).getD ⟨0, false, 0⟩).observe o.2.toNat))

def collect (obs : List (GoString × UInt32)) : KindStatsCollector KindAccumulator :=
  obs.foldl observe (fun _ => none)

theorem collect_snoc (obs : List (GoString × UInt32)) (o : GoString × UInt32) :
    collect (obs ++ [o]) = observe (collect obs) o := foldl_concat ..

end Sdk

/-! ## Gaps -/

variable {seq : UInt32}

/-- Exact but for a `Seq` after the largest of all. -/
theorem succ_lt_iff {last} (h : last = 0xFFFFFFFF → seq = 0) :
    last + 1 < seq ↔ last.toNat + 1 < seq.toNat := by
  by_cases hmax : last = 0xFFFFFFFF
  · rw [h hmax, hmax]
    decide
  · have hne : last.toNat ≠ 4294967295 := fun heq => hmax (UInt32.toNat_inj.mp heq)
    have := last.toNat_lt
    simp only [UInt32.lt_iff_toNat_lt, UInt32.toNat_add, UInt32.reduceToNat]
    omega

theorem toNat_gap {last : UInt32} (h : last.toNat < seq.toNat) :
    (seq - last - 1).toNat = seq.toNat - last.toNat - 1 := by
  have := seq.toNat_lt
  simp only [UInt32.toNat_sub, UInt32.reduceToNat]
  omega

namespace KindAccumulator

variable {a : KindAccumulator} {seq : UInt32}

theorem observe_of_lt (hhave : a.haveSeq = true) (hlt : a.lastSeq < seq)
    (hbound : a.dropped.toNat ≤ a.lastSeq.toNat) :
    (a.observe seq).haveSeq = true ∧ (a.observe seq).lastSeq = seq ∧
      (a.observe seq).dropped.toNat + a.lastSeq.toNat + 1 = a.dropped.toNat + seq.toNat := by
  have hnat := UInt32.lt_iff_toNat_lt.mp hlt
  have hseq := seq.toNat_lt
  rw [observe_of_have hhave, if_pos hlt]
  refine ⟨rfl, rfl, ?_⟩
  have hmax : a.lastSeq = 0xFFFFFFFF → seq = 0 := by
    intro heq
    simp only [heq, UInt32.reduceToNat] at hnat
    omega
  simp only [succ_lt_iff hmax]
  split
  · rw [UInt64.toNat_add, UInt32.toNat_toUInt64, toNat_gap hnat]
    omega
  · omega

theorem foldl_ascending (l : List UInt32) (hhave : a.haveSeq = true)
    (hasc : (a.lastSeq :: l).Pairwise (· < ·)) (hbound : a.dropped.toNat ≤ a.lastSeq.toNat) :
    (l.foldl observe a).lastSeq = (a.lastSeq :: l).getLast (cons_ne_nil _ _) ∧
      (l.foldl observe a).dropped.toNat + l.length + a.lastSeq.toNat =
        a.dropped.toNat + (l.foldl observe a).lastSeq.toNat := by
  induction l generalizing a with
  | nil => exact ⟨rfl, rfl⟩
  | cons seq l ih =>
    obtain ⟨hlt, hrest⟩ := pairwise_cons.mp hasc
    obtain ⟨hhave', hlast, hdropped⟩ := observe_of_lt hhave (hlt seq mem_cons_self) hbound
    have := UInt32.lt_iff_toNat_lt.mp (hlt seq mem_cons_self)
    obtain ⟨ihlast, ihdropped⟩ := ih (a := a.observe seq) hhave' (by rw [hlast]; exact hrest)
      (by rw [hlast]; omega)
    rw [hlast] at ihlast ihdropped
    refine ⟨ihlast, ?_⟩
    rw [foldl_cons, length_cons]
    omega

end KindAccumulator

theorem foldl_observe_kind (kind : GoString) (seqs : List UInt32) {k} (h : k kind = some a) :
    (seqs.map (Prod.mk kind)).foldl observe k kind = some (seqs.foldl .observe a) := by
  induction seqs generalizing k a with
  | nil => exact h
  | cons seq seqs ih => exact ih (by rw [observe, update_self, h]; rfl)

/-- **Drop counter.** In ascending order, `LastSeq` is the largest `Seq` of a kind and
    `Dropped` the number of values below it that are missing. -/
theorem dropped_counts_gaps (kind : GoString) {seqs : List UInt32} (hne : seqs ≠ [])
    (hasc : seqs.Pairwise (· < ·)) :
    ∃ a, collect (seqs.map (Prod.mk kind)) kind = some a ∧
      (a.lastSeq ∈ seqs ∧ ∀ seq ∈ seqs, seq ≤ a.lastSeq) ∧
      ∀ lo ∈ seqs, (∀ seq ∈ seqs, lo ≤ seq) → a.dropped.toNat =
        (Finset.Icc lo.toNat a.lastSeq.toNat \ (seqs.map UInt32.toNat).toFinset).card := by
  obtain ⟨first, rest, rfl⟩ := exists_cons_of_ne_nil hne
  obtain ⟨hlast, hcount⟩ := KindAccumulator.foldl_ascending rest
    (a := ⟨first, true, 0⟩) rfl hasc (Nat.zero_le _)
  generalize hfold : rest.foldl KindAccumulator.observe ⟨first, true, 0⟩ = a at hlast hcount
  have hmax : ∀ seq ∈ first :: rest, seq ≤ a.lastSeq := by
    intro seq hseq
    rw [hlast]
    exact (hasc.imp UInt32.le_of_lt).rel_getLast hseq
  refine ⟨a, ?_, ⟨hlast ▸ getLast_mem _, hmax⟩, fun lo hlo hmin => ?_⟩
  · rw [← hfold]
    exact foldl_observe_kind kind rest (update_self ..)
  · have hfirst : lo = first := by
      refine UInt32.le_antisymm (hmin first mem_cons_self) ?_
      rcases mem_cons.mp hlo with rfl | hin
      · exact UInt32.le_refl _
      · exact UInt32.le_of_lt ((pairwise_cons.mp hasc).1 lo hin)
    have hnodup : ((first :: rest).map UInt32.toNat).Nodup :=
      pairwise_map.mpr (hasc.imp (fun h => Nat.ne_of_lt (UInt32.lt_iff_toNat_lt.mp h)))
    have hsub : ((first :: rest).map UInt32.toNat).toFinset ⊆
        Finset.Icc lo.toNat a.lastSeq.toNat := by
      intro n hn
      obtain ⟨seq, hseq, rfl⟩ := mem_map.mp (mem_toFinset.mp hn)
      exact Finset.mem_Icc.mpr ⟨UInt32.le_iff_toNat_le.mp (hmin seq hseq),
        UInt32.le_iff_toNat_le.mp (hmax seq hseq)⟩
    rw [Finset.card_sdiff_of_subset hsub, toFinset_card_of_nodup hnodup, Nat.card_Icc, length_map,
      length_cons, hfirst]
    have : first.toNat ≤ a.lastSeq.toNat := UInt32.le_iff_toNat_le.mp (hmax first mem_cons_self)
    simp only [UInt64.reduceToNat] at hcount
    omega

theorem dropped_counts_gaps_one :
    ∃ a, collect ([2, 3, 6].map (Prod.mk (str "video"))) (str "video") = some a ∧
      (a.lastSeq ∈ ([2, 3, 6] : List UInt32) ∧ ∀ seq ∈ ([2, 3, 6] : List UInt32), seq ≤ a.lastSeq) ∧
      ∀ lo ∈ ([2, 3, 6] : List UInt32), (∀ seq ∈ ([2, 3, 6] : List UInt32), lo ≤ seq) →
        a.dropped.toNat = (Finset.Icc lo.toNat a.lastSeq.toNat \
          (([2, 3, 6] : List UInt32).map UInt32.toNat).toFinset).card :=
  dropped_counts_gaps (str "video") (by decide) (by decide)

/-- Nothing is missing, but the late unit stays counted. -/
theorem late_stays_dropped :
    collect ([1, 3, 2].map (Prod.mk (str "video"))) (str "video") = some ⟨3, true, 1⟩ ∧
      (Finset.Icc 1 3 \ (([1, 3, 2] : List UInt32).map UInt32.toNat).toFinset).card = 0 := by
  decide

/-! ## The two collectors -/

structure Agrees (a : KindAccumulator) (b : Sdk.KindAccumulator) : Prop where
  seen : a.haveSeq = b.haveSeq
  last : a.lastSeq.toNat = b.lastSeq
  dropped : a.dropped.toNat = b.dropped
  bound : b.dropped ≤ b.lastSeq
  fresh : b.haveSeq = false → b.dropped = 0

theorem Agrees.observe {b} (h : Agrees a b) (hmax : a.lastSeq = 0xFFFFFFFF → seq = 0) :
    Agrees (a.observe seq) (b.observe seq.toNat) := by
  have hseq := seq.toNat_lt
  cases hhave : a.haveSeq with
  | false =>
    have hhave' := h.seen.symm.trans hhave
    simp only [KindAccumulator.observe, Sdk.KindAccumulator.observe, hhave, hhave', Bool.false_and,
      Bool.not_false, Bool.true_or, if_true, Bool.false_eq_true, if_false]
    exact ⟨rfl, rfl, h.dropped, h.fresh hhave' ▸ Nat.zero_le _, nofun⟩
  | true =>
    rw [KindAccumulator.observe_of_have hhave, Sdk.KindAccumulator.observe_of_have (h.seen ▸ hhave)]
    simp only [succ_lt_iff hmax, UInt32.lt_iff_toNat_lt, h.last]
    have hbound := h.bound
    refine ⟨rfl, by simp only; split <;> simp [h.last], ?_, ?_, nofun⟩
    · simp only
      split
      · next hgap =>
        rw [UInt64.toNat_add, UInt32.toNat_toUInt64, toNat_gap (by rw [h.last]; omega), h.dropped, h.last]
        omega
      · exact h.dropped
    · simp only
      split <;> split <;> omega

/-- No kind has another `Seq` after the largest of all, 0 excepted. -/
def NoneAfterMax (obs : List (GoString × UInt32)) : Prop :=
  ∀ n kind seq a, obs[n]? = some (kind, seq) → collect (obs.take n) kind = some a →
    a.lastSeq = 0xFFFFFFFF → seq = 0

theorem NoneAfterMax.take {obs} (h : NoneAfterMax obs) (n : Nat) : NoneAfterMax (obs.take n) := by
  intro m kind seq a hm ha
  have hlt : m < n := by
    have := (List.getElem?_eq_some_iff.mp hm).1
    rw [length_take] at this
    omega
  rw [getElem?_take_of_lt hlt] at hm
  rw [take_take, Nat.min_eq_left (Nat.le_of_lt hlt)] at ha
  exact h m kind seq a hm ha

theorem agrees_of_noneAfterMax {obs} (h : NoneAfterMax obs) (kind : GoString) :
    Option.Rel Agrees (collect obs kind) (Sdk.collect obs kind) := by
  induction obs using reverseRecOn with
  | nil => exact .none
  | append_singleton obs o ih =>
    have hobs : NoneAfterMax obs := by
      have := h.take obs.length
      rwa [take_left] at this
    have hlast : ∀ a, collect obs o.1 = some a → a.lastSeq = 0xFFFFFFFF → o.2 = 0 := by
      intro a ha
      exact h obs.length o.1 o.2 a (by simp) (by rwa [take_left])
    rw [collect_snoc, Sdk.collect_snoc, QuicRTC.observe, Sdk.observe]
    by_cases hkind : kind = o.1
    · subst hkind
      have ih := ih hobs
      rw [update_self, update_self]
      refine .some (Agrees.observe ?_ ?_)
      · cases ha : collect obs o.1 <;> cases hb : Sdk.collect obs o.1 <;> rw [ha, hb] at ih
        · exact ⟨rfl, rfl, rfl, Nat.le_refl _, fun _ => rfl⟩
        · cases ih
        · cases ih
        · cases ih with | some h => exact h
      · cases ha : collect obs o.1 with
        | none => exact fun hmax => absurd hmax (by decide)
        | some a => exact hlast a ha
    · rw [update_of_ne hkind, update_of_ne hkind]
      exact ih hobs

/-- **The collectors agree** after every prefix. -/
theorem collectors_agree {obs : List (GoString × UInt32)} (h : NoneAfterMax obs) (n : Nat)
    (kind : GoString) :
    (collect (obs.take n) kind).map (fun a => (a.lastSeq.toNat, a.dropped.toNat)) =
      (Sdk.collect (obs.take n) kind).map (fun b => (b.lastSeq, b.dropped)) := by
  have hrel := agrees_of_noneAfterMax (h.take n) kind
  generalize collect (obs.take n) kind = x, Sdk.collect (obs.take n) kind = y at hrel ⊢
  cases hrel with
  | none => rfl
  | some hab => rw [Option.map_some, Option.map_some, hab.last, hab.dropped]

theorem collectors_agree_gap :
    (collect ([(str "video", 1), (str "video", 4)].take 2) (str "video")).map
        (fun a => (a.lastSeq.toNat, a.dropped.toNat)) =
      (Sdk.collect ([(str "video", 1), (str "video", 4)].take 2) (str "video")).map
        (fun b => (b.lastSeq, b.dropped)) := by
  refine collectors_agree ?_ 2 (str "video")
  rintro (_ | _ | n) kind seq a hn ha hmax
  · cases ha
  · cases hn
    have ha : some (⟨1, true, 0⟩ : KindAccumulator) = some a := ha
    rw [← Option.some.inj ha] at hmax
    exact absurd hmax (by decide)
  · cases hn

/-- After `Seq` `2^32 - 1` the Go side takes any other `Seq` for a gap. -/
theorem collectors_differ :
    collect [(str "video", 0xFFFFFFFF), (str "video", 5)] (str "video") =
        some ⟨0xFFFFFFFF, true, 5⟩ ∧
      Sdk.collect [(str "video", 0xFFFFFFFF), (str "video", 5)] (str "video") =
        some ⟨0xFFFFFFFF, true, 0⟩ := by
  decide

/-! ## The kind of a frame -/

/-- With the kind announced for the track at that moment. -/
structure Observation where
  track : GoString
  kind : GoString
  seq : UInt32
  announced : Option GoString
deriving DecidableEq

/-- Every accepted stream has its track and the `kind` its goroutine looked up. -/
structure Attribution where
  remoteTracks : GoString → Option GoString
  streams : List (GoString × GoString)
  observed : List Observation

namespace Attribution

def start : Attribution := ⟨fun _ => none, [], []⟩

def kindForTrack (s : Attribution) (name : GoString) : GoString := (s.remoteTracks name).getD []

inductive Label where
  | announce (name kind : GoString)
  | unannounce (name : GoString)
  /-- Up to the loop; a stream without a header has the empty name. -/
  | accept (header : GoString)
  /-- A frame of the `i`-th stream is read. -/
  | frame (i : Nat) (seq : UInt32)

def next (s : Attribution) : Label → Option Attribution
  | .announce name kind => some { s with remoteTracks := update s.remoteTracks name (some kind) }
  | .unannounce name => some { s with remoteTracks := update s.remoteTracks name none }
  | .accept header =>
    some { s with streams := s.streams ++ [(Client.streamTrack header, s.kindForTrack (Client.streamTrack header))] }
  | .frame i seq =>
    (s.streams[i]?).map (fun st =>
      { s with observed := s.observed ++ [⟨st.1, st.2, seq, s.remoteTracks st.1⟩] })

def kindStats (s : Attribution) : KindStatsCollector KindAccumulator :=
  collect (s.observed.map (fun o => (o.kind, o.seq)))

/-- `n` has the kind `k` only, and is announced before a stream of it is accepted. -/
def Ordered (n k : GoString) (s : Attribution) : Label → Prop
  | .announce name kind => name = n → kind = k
  | .accept header => Client.streamTrack header = n → s.remoteTracks n ≠ none
  | _ => True

theorem kind_update {n k name} {m : GoString → Option GoString} {o} (h : ∀ kind ∈ m n, kind = k)
    (ho : name = n → ∀ kind ∈ o, kind = k) : ∀ kind ∈ update m name o n, kind = k := by
  by_cases hname : name = n
  · subst hname
    rw [update_self]
    exact ho rfl
  · rw [update_of_ne (Ne.symm hname)]
    exact h

/-- **Attribution.** Every frame of the track is recorded under its kind. -/
theorem recorded_under_kind (n k : GoString) :
    ∀ s, Reachable ((ofFun start next).restrict (Ordered n k)) s →
      ∀ o ∈ s.observed, o.track = n → o.kind = k := by
  have hinv : ∀ s, Reachable ((ofFun start next).restrict (Ordered n k)) s →
      (∀ kind ∈ s.remoteTracks n, kind = k) ∧
      (∀ st ∈ s.streams, st.1 = n → st.2 = k) ∧ ∀ o ∈ s.observed, o.track = n → o.kind = k := by
    refine invariant_restrict _ ⟨nofun, nofun, nofun⟩ ?_
    intro s l s' _ ⟨hkind, hstreams, hobs⟩ hok hstep
    cases l with
    | announce name kind =>
      cases hstep
      refine ⟨kind_update hkind (fun heq kind' h => ?_), hstreams, hobs⟩
      cases h
      exact hok heq
    | unannounce name =>
      cases hstep
      exact ⟨kind_update hkind (fun _ => nofun), hstreams, hobs⟩
    | accept header =>
      cases hstep
      refine ⟨hkind, Slots.forall_mem_snoc hstreams (fun heq => ?_), hobs⟩
      obtain ⟨kind, h⟩ := Option.ne_none_iff_exists'.mp (hok heq)
      show (s.remoteTracks (Client.streamTrack header)).getD [] = k
      rw [show Client.streamTrack header = n from heq, h]
      exact hkind kind h
    | frame i seq =>
      obtain ⟨st, hst, rfl⟩ := Option.map_eq_some_iff.mp hstep
      exact ⟨hkind, hstreams,
        Slots.forall_mem_snoc hobs (hstreams st (mem_of_getElem? hst))⟩
  exact fun s hs => (hinv s hs).2.2

theorem recorded_under_kind_video :
    ∃ s : Attribution, s.observed = [⟨str "cam", str "video", 1, some (str "video")⟩] ∧
      ∀ o ∈ s.observed, o.track = str "cam" → o.kind = str "video" := by
  refine ⟨_, ?_, recorded_under_kind (str "cam") (str "video") _
    (.step (.frame 0 1) (.step (.accept (str "cam")) (.step (.announce (str "cam") (str "video"))
      (.init rfl) ⟨fun _ => rfl, rfl⟩) ⟨fun _ => by decide, rfl⟩) ⟨trivial, rfl⟩)⟩
  decide

/-- The stream is accepted before the announce is processed. -/
theorem stale_kind : ∃ s, Reachable (ofFun start next) s ∧
    s.observed = [⟨str "cam", [], 1, some (str "video")⟩] ∧ s.kindStats (str "video") = none :=
  exists_run [.accept (str "cam"), .announce (str "cam") (str "video"), .frame 0 1]
    (by decide +kernel)

end Attribution

end QuicRTC

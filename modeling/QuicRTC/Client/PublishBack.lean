import QuicRTC.Framework.System
import QuicRTC.Pubsub.Receiver

/-! # Publishing Back

`Publish`, `Send` and `Close` of `client/client.go` for one track name of a connected client. A
handle keeps the broadcaster it was made with, and every broadcaster that was announced has a pump.
`Close` takes the name out of the map, whatever broadcaster is there, and leaves the pump running.
-/

namespace QuicRTC.PublishBack

open LTS

/-! ## The system -/

/-- A `feed.Pump` with the units its receiver has for it. -/
structure PubPump where
  bc : Nat
  queue : List AccessUnit

structure PubName where
  /-- The broadcaster in `pubTracks`. -/
  pubTrack : Option Nat
  /-- How many broadcasters were made. -/
  created : Nat
  /-- The broadcaster of each `clientSender` returned. -/
  senders : List Nat
  pumps : List PubPump
  /-- The last frame for the name is an ANNOUNCE. -/
  announced : Bool

inductive Step where
  /-- With the ANNOUNCE written or not. -/
  | publish (written : Bool)
  /-- The receiver may drop the unit. -/
  | send (h : Nat) (au : AccessUnit) (queued : Bool)
  /-- With the UNANNOUNCE written or not. -/
  | close (h : Nat) (written : Bool)
  | take (i : Nat)
  /-- A pump returns with an error. -/
  | exit (i : Nat)

namespace PubName

def start : PubName := ⟨none, 0, [], [], false⟩

def publish (s : PubName) (written : Bool) : PubName :=
  match s.pubTrack with
  | some bc => { s with senders := s.senders ++ [bc] }
  | none =>
    -- `removePubTrack` undoes the insertion when the write fails.
    if !written then { s with created := s.created + 1 }
    else
      { pubTrack := some s.created
        created := s.created + 1
        senders := s.senders ++ [s.created]
        pumps := s.pumps ++ [⟨s.created, []⟩]
        announced := true }

def send (s : PubName) (bc : Nat) (au : AccessUnit) (queued : Bool) : PubName :=
  { s with
    pumps := s.pumps.map (fun p =>
      if p.bc = bc ∧ queued = true then { p with queue := p.queue ++ [au] } else p) }

/-- By name; the handle's broadcaster is not read. -/
def close (s : PubName) (written : Bool) : PubName :=
  { s with pubTrack := none, announced := s.announced && !written }

def next (s : PubName) : Step → Option PubName
  | .publish written => some (s.publish written)
  | .send h au queued => s.senders[h]?.map (fun bc => s.send bc au queued)
  | .close h written => s.senders[h]?.map (fun _ => s.close written)
  | .take i =>
    match s.pumps[i]? with
    | some ⟨bc, _ :: rest⟩ => some { s with pumps := s.pumps.set i ⟨bc, rest⟩ }
    | _ => none
  | .exit i => if i < s.pumps.length then some { s with pumps := s.pumps.eraseIdx i } else none

def publishSystem : System PubName Step := ofFun start next

/-! ## Names that are published once -/

/-- A broadcaster is made only before the first handle, units are sent only while the name
    is announced, and a handle is closed when its pump has nothing left. -/
def once (s : PubName) : Step → Bool
  | .publish _ => s.pubTrack.isSome || s.senders.isEmpty
  | .send _ _ queued => s.announced || !queued
  | .close _ written => !written || s.pumps.all (·.queue.isEmpty)
  | _ => true

structure Once (s : PubName) : Prop where
  current : ∀ bc ∈ s.senders, ∀ bc', s.pubTrack = some bc' → bc = bc'
  unused : s.senders = [] → s.pumps = []
  alone : s.pumps.length ≤ 1
  queued : s.announced = false → ∀ p ∈ s.pumps, p.queue = []

variable {s s' : PubName}

theorem Once.publish (h : s.Once) {written} (hok : s.once (.publish written) = true) :
    (s.publish written).Once := by
  unfold PubName.publish
  split
  · next bc hbc =>
    refine ⟨?_, fun hnil => absurd hnil (by simp), h.alone, h.queued⟩
    intro b hb bc' hbc'
    rcases Slots.mem_snoc hb with hold | rfl
    · exact h.current b hold bc' hbc'
    · exact Option.mem_unique hbc hbc'
  · next hnone =>
    simp only [once, hnone, Option.isSome_none, Bool.false_or, List.isEmpty_iff] at hok
    split
    · exact { h with }
    · rw [hok, h.unused hok]
      refine ⟨?_, fun hnil => absurd hnil (by simp), Nat.le_refl 1, nofun⟩
      intro b hb bc' hbc'
      exact (List.mem_singleton.mp hb).trans (Option.some.inj hbc')

theorem Once.step (h : s.Once) {l} (hok : s.once l = true) : s.next l = some s' → s'.Once := by
  fun_cases s.next l <;> intro hstep
  all_goals try cases hstep
  · exact h.publish hok
  · obtain ⟨bc, -, rfl⟩ := Option.map_eq_some_iff.mp hstep
    refine ⟨h.current, fun hnil => ?_, ?_, fun hno p hp => ?_⟩
    · show List.map _ s.pumps = []
      rw [h.unused hnil, List.map_nil]
    · exact (List.length_map _).trans_le h.alone
    · obtain ⟨q, hq, rfl⟩ := List.mem_map.mp hp
      simp only [once, (show s.announced = false from hno), Bool.false_or] at hok
      rw [if_neg (fun hboth => by simp [hboth.2] at hok)]
      exact h.queued hno q hq
  · obtain ⟨bc, -, rfl⟩ := Option.map_eq_some_iff.mp hstep
    refine ⟨fun b _ bc' hbc' => (by cases hbc'), h.unused, h.alone, fun hno p hp => ?_⟩
    rcases Bool.and_eq_false_iff.mp hno with hwas | hwritten
    · exact h.queued hwas p hp
    · simp only [once, hwritten, Bool.false_or, List.all_eq_true, List.isEmpty_iff] at hok
      exact hok p hp
  · next bc au rest hget =>
    refine ⟨h.current, fun hnil => ?_, (List.length_set).trans_le h.alone, fun hno p hp => ?_⟩
    · rw [h.unused hnil, List.set_nil]
    · exact absurd (h.queued hno _ (List.mem_of_getElem? hget)) (List.cons_ne_nil au rest)
  · next i _ =>
    refine ⟨h.current, fun hnil => ?_, (List.length_eraseIdx_le s.pumps i).trans h.alone,
      fun hno p hp => h.queued hno p (List.mem_of_mem_eraseIdx hp)⟩
    rw [h.unused hnil, List.eraseIdx_nil]

/-- **Publishing back.** A pump is handed units only while the name is announced, there is
    one pump at most, and an old handle leaves a newer track alone. -/
theorem published_once (h : Reachable (publishSystem.restrict (fun s l => s.once l = true)) s) :
    (∀ i, (s.next (.take i)).isSome → s.announced = true) ∧ s.pumps.length ≤ 1 ∧
    ∀ i written bc bc' s', s.senders[i]? = some bc → s.pubTrack = some bc' → bc ≠ bc' →
      s.next (.close i written) = some s' → s'.pubTrack = s.pubTrack ∧ s'.announced = s.announced := by
  have honce : s.Once := by
    refine invariant_restrict Once ?_ (fun _ _ _ _ h => h.step) s h
    exact ⟨nofun, fun _ => rfl, Nat.zero_le 1, nofun⟩
  refine ⟨fun i htake => ?_, honce.alone, ?_⟩
  · by_contra hno
    obtain ⟨s', hs'⟩ := Option.isSome_iff_exists.mp htake
    simp only [next] at hs'
    split at hs'
    · next bc au rest hget =>
      have hempty := honce.queued (Bool.eq_false_iff.mpr hno) _ (List.mem_of_getElem? hget)
      exact absurd hempty (List.cons_ne_nil au rest)
    · cases hs'
  · intro i written bc bc' s' hbc hbc' hne hclose
    exact absurd (honce.current bc (List.mem_of_getElem? hbc) bc' hbc') hne

theorem published_once_sent : ∃ s : PubName, s.announced = true ∧ s.pumps.length = 1 ∧
    (s.next (.take 0)).isSome ∧ s.pumps.length ≤ 1 := by
  obtain ⟨s, hs, hp⟩ := exists_reachable start next once
    (fun s => s.announced && (s.pumps.length == 1 && (s.next (.take 0)).isSome))
    [.publish true, .send 0 (.bare true 1) true] (by decide +kernel)
  simp only [Bool.and_eq_true, beq_iff_eq] at hp
  exact ⟨s, hp.1, hp.2.1, hp.2.2, (published_once hs).2.1⟩

/-- A closed handle still feeds its pump, a name published again has two
    pumps, and closing the first handle again removes the second track. -/
theorem published_again :
    (∃ s, Reachable publishSystem s ∧ s.announced = false ∧ (s.next (.take 0)).isSome = true) ∧
    (∃ s, Reachable publishSystem s ∧ s.pumps.length = 2) ∧
    ∃ s s', Reachable publishSystem s ∧ s.senders = [0, 1] ∧ s.pubTrack = some 1 ∧
      s.announced = true ∧ s.next (.close 0 true) = some s' ∧ s'.pubTrack = none ∧
      s'.announced = false := by
  refine ⟨?_, ?_, ?_⟩
  · exact exists_run [.publish true, .close 0 true, .send 0 (.bare true 1) true] (by decide +kernel)
  · exact exists_run [.publish true, .close 0 true, .publish true] (by decide +kernel)
  · obtain ⟨s, hs, hp⟩ := exists_reachable start next (fun _ _ => true)
      (fun s => decide (s.senders = [0, 1] ∧ s.pubTrack = some 1 ∧ s.announced = true))
      [.publish true, .close 0 true, .publish true] (by decide +kernel)
    obtain ⟨hsenders, htrack, hann⟩ := of_decide_eq_true hp
    refine ⟨s, s.close true, hs.of_restrict, hsenders, htrack, hann, ?_, rfl, ?_⟩
    · simp [next, hsenders]
    · simp [close]

end PubName

end QuicRTC.PublishBack

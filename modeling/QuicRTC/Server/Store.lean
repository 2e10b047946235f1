import QuicRTC.Pubsub.Broadcaster
import QuicRTC.Framework.GoMap

/-! # The Session Store

`memorySessionStore` of `server/session_store.go`: parked sessions by tenant and session identifier,
each with its receivers and a time of expiry in nanoseconds. An `onEvict` callback is given by the
pairs it unsubscribes; an operation that evicts returns the callbacks it runs.
-/

namespace QuicRTC

open List Option Slots GoMap

/-! ## State -/

abbrev BroadcasterId := Nat

/-- What it unsubscribes. -/
abbrev OnEvict := List (BroadcasterId × ReceiverId)

structure PersistedSession where
  id : GoString
  receivers : GoMap ReceiverId
  expiresAt : Int
  onEvict : OnEvict

structure MemorySessionStore where
  byID : GoMap PersistedSession
  resumeTTL : Int
  maxParked : Int

def defaultResumeWindow : Int := 60 * 1000000000

def defaultMaxParked : Int := 1024

def newMemorySessionStoreWithCap (ttl maxParked : Int) : MemorySessionStore where
  byID := ∅
  resumeTTL := if ttl ≤ 0 then defaultResumeWindow else ttl
  maxParked := if maxParked ≤ 0 then defaultMaxParked else maxParked

def newMemorySessionStore (ttl : Int) : MemorySessionStore :=
  newMemorySessionStoreWithCap ttl defaultMaxParked

def scopedKey (tenant sessionID : GoString) : GoString := tenant ++ [0] ++ sessionID

namespace MemorySessionStore

/-! ## Operations -/

/-- `now.After(p.expiresAt)`. -/
def expired (now : Int) (p : PersistedSession) : Bool := p.expiresAt < now

def evictExpiredLocked (s : MemorySessionStore) (now : Int) : MemorySessionStore × List OnEvict :=
  ({ s with byID := s.byID.filter (fun _ p => !expired now p) },
   (s.byID.entries.filter (fun e => expired now e.2)).map (fun e => e.2.onEvict))

/-- The first of several. -/
def oldest (m : GoMap PersistedSession) : Option (GoString × PersistedSession) :=
  m.fold (fun o k p =>
    match o with
    | none => some (k, p)
    | some x => if p.expiresAt < x.2.expiresAt then some (k, p) else some x) none

/-- Each turn deletes one entry, so `fuel` is their number. -/
def makeRoom (maxParked : Int) : Nat → GoMap PersistedSession → GoMap PersistedSession × List OnEvict
  | 0, m => (m, [])
  | fuel + 1, m =>
    if 0 < maxParked ∧ maxParked ≤ m.entries.length then
      match oldest m with
      | none => (m, [])
      | some (k, p) =>
        let (m, evicted) := makeRoom maxParked fuel (m.erase k)
        (m, p.onEvict :: evicted)
    else (m, [])

/-- The clock is read for the eviction and again for the new entry. -/
def park (s : MemorySessionStore) (now later : Int) (tenant sessionID : GoString)
    (receivers : GoMap ReceiverId) (onEvict : OnEvict) : MemorySessionStore × List OnEvict :=
  let (s, evicted) := s.evictExpiredLocked now
  let (byID, evicted') := makeRoom s.maxParked s.byID.entries.length s.byID
  ({ s with
      byID := byID.insert (scopedKey tenant sessionID)
        { id := sessionID
          receivers := receivers
          expiresAt := later + s.resumeTTL
          onEvict := onEvict } }, evicted ++ evicted')

def resume (s : MemorySessionStore) (now : Int) (tenant sessionID : GoString) :
    Option (GoMap ReceiverId) × MemorySessionStore × List OnEvict :=
  let (s, evicted) := s.evictExpiredLocked now
  let key := scopedKey tenant sessionID
  match s.byID.lookup key with
  | none => (none, s, evicted)
  | some p => (some p.receivers, { s with byID := s.byID.erase key }, evicted)

def evictExpired (s : MemorySessionStore) (now : Int) : Nat × MemorySessionStore × List OnEvict :=
  let (s, evicted) := s.evictExpiredLocked now
  (evicted.length, s, evicted)

/-! ## What is evicted -/

variable {m m' : GoMap PersistedSession} {k sessionID tenant : GoString} {now : Int}
  {ran : List OnEvict} {s : MemorySessionStore} {p : PersistedSession}

theorem oldest_spec (h : oldest m = some (k, p)) :
    m.lookup k = some p ∧ ∀ k' q, m.lookup k' = some q → p.expiresAt ≤ q.expiresAt := by
  -- The candidate is one of the entries met so far and the first of
  -- them to expire.
  have hfold : ∀ x, oldest m = some x →
      { x with } ∈ m.entries ∧ ∀ e ∈ m.entries, x.2.expiresAt ≤ e.2.expiresAt := by
    refine (fold_entries_induction (m := m)
      (P := fun seen (o : Option (GoString × PersistedSession)) => (o = none → seen = []) ∧
        ∀ x, o = some x → { x with } ∈ seen ∧ ∀ e ∈ seen, x.2.expiresAt ≤ e.2.expiresAt)
      ?_ ?_).2
    · exact ⟨fun _ => rfl, nofun⟩
    intro seen o k a ⟨hnone, hmin⟩
    cases o with
    | none =>
      refine ⟨fun hx => absurd hx (some_ne_none _), fun x hx => ?_⟩
      cases hx
      rw [hnone rfl]
      simp
    | some y =>
      obtain ⟨hy, hle⟩ := hmin y rfl
      simp only
      split
      · next hlt =>
        refine ⟨fun hx => absurd hx (some_ne_none _), fun x hx => ?_⟩
        cases hx
        refine ⟨by simp, forall_mem_snoc (fun e he => ?_) le_rfl⟩
        exact le_of_lt (lt_of_lt_of_le hlt (hle e he))
      · next hlt =>
        refine ⟨fun hx => absurd hx (some_ne_none _), fun x hx => ?_⟩
        cases hx
        exact ⟨mem_append_left _ hy, forall_mem_snoc hle (not_lt.mp hlt)⟩
  obtain ⟨hmem, hle⟩ := hfold (k, p) h
  exact ⟨mem_entries_iff.mp hmem, fun k' q hq => hle ⟨k', q⟩ (mem_entries_iff.mpr hq)⟩

theorem oldest_eq_none (h : oldest m = none) : m.entries = [] := by
  refine fold_entries_induction (m := m)
    (P := fun seen o => (o : Option (GoString × PersistedSession)) = none → seen = [])
    (fun _ => rfl) ?_ h
  intro seen o k a _ hnone
  cases o with
  | none => cases hnone
  | some x =>
    simp only at hnone
    split at hnone <;> cases hnone

/-- The deleted entries' callbacks ran, one each. -/
structure Evicts (m m' : GoMap PersistedSession) (ran : List OnEvict) : Prop where
  sub : GoMap.Sub m' m
  ran : ran.Perm ((GoMap.gone m m').map (fun e => e.2.onEvict))

theorem Evicts.refl (m : GoMap PersistedSession) : Evicts m m [] where
  sub := Sub.refl m
  ran := by rw [gone_self, map_nil]

theorem Evicts.trans {m'' ran'} (h : Evicts m m' ran) (h' : Evicts m' m'' ran') :
    Evicts m m'' (ran ++ ran') where
  sub := h'.sub.trans h.sub
  ran := by
    have hgone := (gone_trans h.sub h'.sub).map (fun e => e.2.onEvict)
    rw [map_append] at hgone
    exact (h.ran.append h'.ran).trans hgone.symm

theorem Evicts.mem_ran (h : Evicts m m' ran) {ev} (hev : ev ∈ ran) :
    ∃ k p, m.lookup k = some p ∧ m'.lookup k = none ∧ p.onEvict = ev := by
  obtain ⟨e, he, rfl⟩ := mem_map.mp (h.ran.mem_iff.mp hev)
  obtain ⟨hsome, hnone⟩ := mem_gone.mp he
  exact ⟨e.1, e.2, hsome, hnone, rfl⟩

theorem Evicts.kept (h : Evicts m m' ran) (hp : m.lookup k = some p) (hran : p.onEvict ∉ ran) :
    m'.lookup k = some p := by
  cases hl : m'.lookup k with
  | none =>
    have hgone : ⟨k, p⟩ ∈ gone m m' := mem_gone.mpr ⟨hp, hl⟩
    exact absurd (h.ran.mem_iff.mpr (mem_map.mpr ⟨_, hgone, rfl⟩)) hran
  | some q => rw [← hp, h.sub k q hl]

theorem evicts_evictExpiredLocked (s : MemorySessionStore) (now : Int) :
    Evicts s.byID (s.evictExpiredLocked now).1.byID (s.evictExpiredLocked now).2 where
  sub := sub_filter _ _
  ran := by
    unfold evictExpiredLocked
    simp only [gone_filter, Bool.not_not]
    exact Perm.refl _

theorem evicts_erase (h : m.lookup k = some p) : Evicts m (m.erase k) [p.onEvict] where
  sub := sub_erase m k
  ran := ((gone_erase h).map
    (fun e : (_ : GoString) × PersistedSession => e.2.onEvict)).symm

theorem evicts_makeRoom (maxParked : Int) (fuel : Nat) (m : GoMap PersistedSession) :
    Evicts m (makeRoom maxParked fuel m).1 (makeRoom maxParked fuel m).2 := by
  induction fuel generalizing m with
  | zero => exact Evicts.refl m
  | succ fuel ih =>
    simp only [makeRoom]
    split
    · cases hold : oldest m with
      | none => exact Evicts.refl m
      | some kp => exact (evicts_erase (oldest_spec hold).1).trans (ih _)
    · exact Evicts.refl m

theorem makeRoom_oldest (maxParked : Int) (fuel : Nat) (m : GoMap PersistedSession) {e}
    (he : e ∈ GoMap.gone m (makeRoom maxParked fuel m).1) {q}
    (hq : (makeRoom maxParked fuel m).1.lookup k = some q) : e.2.expiresAt ≤ q.expiresAt := by
  induction fuel generalizing m with
  | zero =>
    rw [makeRoom, gone_self] at he
    cases he
  | succ fuel ih =>
    simp only [makeRoom] at he hq
    split at he
    · next hfull =>
      rw [if_pos hfull] at hq
      cases hold : oldest m with
      | none =>
        simp only [hold, gone_self] at he
        cases he
      | some kp =>
        simp only [hold] at he hq
        obtain ⟨hk, hmin⟩ := oldest_spec hold
        have hsub := (evicts_makeRoom maxParked fuel (m.erase kp.1)).sub
        -- The entry was deleted in this turn or in a later one.
        rcases mem_append.mp ((gone_trans (sub_erase m kp.1) hsub).mem_iff.mp he)
          with he | he
        · rw [mem_singleton.mp ((gone_erase hk).mem_iff.mp he)]
          exact hmin k q (sub_erase m kp.1 k q (hsub k q hq))
        · exact ih (m.erase kp.1) he hq
    · rw [gone_self] at he
      cases he

theorem makeRoom_length {maxParked} (hpos : 0 < maxParked) (fuel : Nat) (m : GoMap PersistedSession)
    (hfuel : m.entries.length ≤ fuel) :
    ((makeRoom maxParked fuel m).1.entries.length : Int) < maxParked := by
  induction fuel generalizing m with
  | zero =>
    simp only [makeRoom]
    omega
  | succ fuel ih =>
    simp only [makeRoom]
    split
    · cases hold : oldest m with
      | none =>
        simp only [oldest_eq_none hold, length_nil]
        omega
      | some kp =>
        apply ih
        have hlen := (entries_perm_gone (sub_erase m kp.1)).length_eq
        rw [length_append, (gone_erase (oldest_spec hold).1).length_eq,
          length_singleton] at hlen
        omega
    · next hroom =>
      simp only [hpos, true_and, not_le] at hroom
      exact hroom

/-! ## What is found -/

theorem lookup_evictExpiredLocked :
    (s.evictExpiredLocked now).1.byID.lookup k = some p ↔
      s.byID.lookup k = some p ∧ expired now p = false := by
  show (s.byID.filter _).lookup k = some p ↔ _
  rw [lookup_filter, filter_eq_some_iff]
  simp

def roomFor (s : MemorySessionStore) (now : Int) : GoMap PersistedSession :=
  (makeRoom s.maxParked (s.evictExpiredLocked now).1.byID.entries.length
    (s.evictExpiredLocked now).1.byID).1

theorem roomFor_live (h : (s.roomFor now).lookup k = some p) : expired now p = false :=
  (lookup_evictExpiredLocked.mp ((evicts_makeRoom _ _ _).sub k p h)).2

section park

variable (s : MemorySessionStore) (now later : Int) (tenant sessionID : GoString)
  (receivers : GoMap ReceiverId) (onEvict : OnEvict)

theorem lookup_park :
    (s.park now later tenant sessionID receivers onEvict).1.byID.lookup (scopedKey tenant sessionID) =
      some { id := sessionID, receivers := receivers, expiresAt := later + s.resumeTTL,
             onEvict := onEvict } :=
  AList.lookup_insert _

theorem evicts_park :
    (s.park now later tenant sessionID receivers onEvict).1.byID =
        (s.roomFor now).insert (scopedKey tenant sessionID)
          { id := sessionID, receivers := receivers, expiresAt := later + s.resumeTTL,
            onEvict := onEvict } ∧
      Evicts s.byID (s.roomFor now) (s.park now later tenant sessionID receivers onEvict).2 :=
  ⟨rfl, (evicts_evictExpiredLocked s now).trans (evicts_makeRoom _ _ _)⟩

theorem park_spec :
    (∀ k p, k ≠ scopedKey tenant sessionID →
      (s.park now later tenant sessionID receivers onEvict).1.byID.lookup k = some p →
      s.byID.lookup k = some p) ∧
    ∀ ev ∈ (s.park now later tenant sessionID receivers onEvict).2,
      ∃ k p, s.byID.lookup k = some p ∧ p.onEvict = ev := by
  obtain ⟨hbyID, hev⟩ := s.evicts_park now later tenant sessionID receivers onEvict
  refine ⟨?_, ?_⟩
  · intro k p hne hp
    rw [hbyID, AList.lookup_insert_ne hne] at hp
    exact hev.sub k p hp
  · intro ev hmem
    obtain ⟨k, p, hp, -, heq⟩ := hev.mem_ran hmem
    exact ⟨k, p, hp, heq⟩

end park

theorem resume_of_none
    (h : (s.evictExpiredLocked now).1.byID.lookup (scopedKey tenant sessionID) = none) :
    s.resume now tenant sessionID =
      (none, (s.evictExpiredLocked now).1, (s.evictExpiredLocked now).2) := by
  unfold resume
  simp only [h]

theorem resume_of_some
    (h : (s.evictExpiredLocked now).1.byID.lookup (scopedKey tenant sessionID) = some p) :
    s.resume now tenant sessionID =
      (some p.receivers, { (s.evictExpiredLocked now).1 with
        byID := (s.evictExpiredLocked now).1.byID.erase (scopedKey tenant sessionID) },
        (s.evictExpiredLocked now).2) := by
  unfold resume
  simp only [h]

theorem resume_sub
    (h : (s.resume now tenant sessionID).2.1.byID.lookup k = some p) : s.byID.lookup k = some p := by
  cases hl : (s.evictExpiredLocked now).1.byID.lookup (scopedKey tenant sessionID) with
  | none =>
    rw [resume_of_none hl] at h
    exact (lookup_evictExpiredLocked.mp h).1
  | some q =>
    rw [resume_of_some hl] at h
    exact (lookup_evictExpiredLocked.mp (sub_erase _ _ k p h)).1

theorem resume_found {receivers} (h : (s.resume now tenant sessionID).1 = some receivers) :
    ∃ p, s.byID.lookup (scopedKey tenant sessionID) = some p ∧ expired now p = false ∧
      p.receivers = receivers := by
  cases hl : (s.evictExpiredLocked now).1.byID.lookup (scopedKey tenant sessionID) with
  | none =>
    rw [resume_of_none hl] at h
    cases h
  | some q =>
    rw [resume_of_some hl] at h
    obtain ⟨hq, hexp⟩ := lookup_evictExpiredLocked.mp hl
    exact ⟨q, hq, hexp, some.inj h⟩

theorem resume_spec (hp : s.byID.lookup (scopedKey tenant sessionID) = some p)
    (hnow : now ≤ p.expiresAt) :
    (s.resume now tenant sessionID).1 = some p.receivers ∧
      ∀ ev ∈ (s.resume now tenant sessionID).2.2,
        ∃ k p', k ≠ scopedKey tenant sessionID ∧ s.byID.lookup k = some p' ∧ p'.onEvict = ev := by
  have hexp : expired now p = false := decide_eq_false (not_lt.mpr hnow)
  have hfound := lookup_evictExpiredLocked.mpr ⟨hp, hexp⟩
  rw [resume_of_some hfound]
  refine ⟨rfl, ?_⟩
  intro ev hev
  obtain ⟨k, p', hp', hnone, hcb⟩ := (evicts_evictExpiredLocked s now).mem_ran hev
  refine ⟨k, p', ?_, hp', hcb⟩
  rintro rfl
  rw [hfound] at hnone
  cases hnone

end MemorySessionStore

end QuicRTC

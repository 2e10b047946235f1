import QuicRTC.Framework.System
import QuicRTC.Server.Store

/-! # The Life of a Parked Session

The session store under any sequence of `Park`, `Resume` and `EvictExpired`. Every call of `Park` is
numbered, and an account says what became of its entry.
-/

namespace QuicRTC

open LTS Function List Option GoMap AList

/-! ## State -/

structure ParkCall where
  tenant : GoString
  entry : PersistedSession

/-- With the account of its entries. -/
structure Parking where
  store : MemorySessionStore
  /-- The last clock reading. -/
  clock : Int
  calls : List ParkCall
  /-- The last call of `Park` under a key. -/
  latest : GoString → Nat
  /-- By a `Resume`. -/
  returned : List Nat
  /-- They left the store in another way. -/
  evicted : List Nat
  ran : List OnEvict

/-- Or a new order of iteration over the map. -/
inductive StoreOp where
  | park (now later : Int) (tenant sessionID : GoString) (receivers : GoMap ReceiverId)
      (onEvict : OnEvict)
  | resume (now : Int) (tenant sessionID : GoString)
  | evictExpired (now : Int)
  | reorder (rank : GoString → Nat)

namespace Parking

def start (ttl maxParked : Int) : Parking where
  store := newMemorySessionStoreWithCap ttl maxParked
  clock := 0
  calls := []
  latest := fun _ => 0
  returned := []
  evicted := []
  ran := []

def numbers (c : Parking) (es : List ((_ : GoString) × PersistedSession)) : List Nat :=
  es.map (fun e => c.latest e.1)

def stored (c : Parking) : List Nat := c.numbers c.store.byID.entries

def entryOf (c : Parking) (later : Int) (sessionID : GoString) (receivers : GoMap ReceiverId)
    (onEvict : OnEvict) : PersistedSession where
  id := sessionID
  receivers := receivers
  expiresAt := later + c.store.resumeTTL
  onEvict := onEvict

def afterPark (c : Parking) (now later : Int) (tenant sessionID : GoString)
    (receivers : GoMap ReceiverId) (onEvict : OnEvict) : Parking :=
  let result := c.store.park now later tenant sessionID receivers onEvict
  { c with
    store := result.1
    clock := later
    calls := c.calls ++ [⟨tenant, c.entryOf later sessionID receivers onEvict⟩]
    latest := update c.latest (scopedKey tenant sessionID) c.calls.length
    evicted := c.evicted ++ c.numbers (GoMap.gone c.store.byID result.1.byID)
    ran := c.ran ++ result.2 }

/-- What leaves the map is evicted, unless it is returned. -/
def afterResume (c : Parking) (now : Int) (tenant sessionID : GoString) : Parking :=
  let result := c.store.resume now tenant sessionID
  let key := scopedKey tenant sessionID
  let gone := GoMap.gone c.store.byID result.2.1.byID
  { c with
    store := result.2.1
    clock := now
    returned := if result.1.isSome then c.returned ++ [c.latest key] else c.returned
    evicted := c.evicted ++
      c.numbers (if result.1.isSome then gone.filter (fun e => e.1 ≠ key) else gone)
    ran := c.ran ++ result.2.2 }

def afterEvictExpired (c : Parking) (now : Int) : Parking :=
  let result := c.store.evictExpired now
  { c with
    store := result.2.1
    clock := now
    evicted := c.evicted ++ c.numbers (GoMap.gone c.store.byID result.2.1.byID)
    ran := c.ran ++ result.2.2 }

def next (c : Parking) : StoreOp → Option Parking
  | .park now later tenant sessionID receivers onEvict =>
    some (c.afterPark now later tenant sessionID receivers onEvict)
  | .resume now tenant sessionID => some (c.afterResume now tenant sessionID)
  | .evictExpired now => some (c.afterEvictExpired now)
  | .reorder rank =>
    some { c with store := { c.store with byID := c.store.byID.reorder rank } }

/-- The clock does not run backwards, and no entry is overwritten. -/
def orderly (c : Parking) : StoreOp → Bool
  | .park now later tenant sessionID _ _ =>
    c.clock ≤ now && now ≤ later && (c.store.byID.lookup (scopedKey tenant sessionID)).isNone
  | .resume now _ _ => c.clock ≤ now
  | .evictExpired now => c.clock ≤ now
  | .reorder _ => true

end Parking

def parkingSystem (ttl maxParked : Int) : System Parking StoreOp :=
  ofFun (Parking.start ttl maxParked) Parking.next

namespace Parking

/-- Each is that of the last `Park` under its key. -/
def Held (c : Parking) : Prop :=
  ∀ k p, c.store.byID.lookup k = some p →
    ∃ call, c.calls[c.latest k]? = some call ∧ call.entry = p ∧ scopedKey call.tenant p.id = k

variable {c : Parking}

variable {maxParked ttl : Int}

theorem held_of_reachable : ∀ c, Reachable (parkingSystem ttl maxParked) c → c.Held := by
  refine invariant_ofFun _ ?_ ?_
  · intro k p hk
    cases hk
  · intro c op c' _ h hstep
    cases op with
    | park now later tenant sessionID receivers onEvict =>
      cases hstep
      intro k p hk
      by_cases hkey : k = scopedKey tenant sessionID
      · subst hkey
        obtain rfl := some.inj ((MemorySessionStore.lookup_park ..).symm.trans hk)
        exact ⟨⟨tenant, c.entryOf later sessionID receivers onEvict⟩, by simp [afterPark], rfl, rfl⟩
      · obtain ⟨call, hcall, hentry⟩ := h k p
          ((c.store.park_spec now later tenant sessionID receivers onEvict).1 k p hkey hk)
        refine ⟨call, ?_, hentry⟩
        simp only [afterPark, update_of_ne hkey]
        rw [List.getElem?_append_left (List.getElem?_eq_some_iff.mp hcall).1]
        exact hcall
    | resume now tenant sessionID =>
      cases hstep
      exact fun k p hk => h k p (MemorySessionStore.resume_sub hk)
    | evictExpired now =>
      cases hstep
      exact fun k p hk =>
        h k p ((MemorySessionStore.evicts_evictExpiredLocked c.store now).sub k p hk)
    | reorder rank =>
      cases hstep
      exact fun k p hk => h k p ((lookup_reorder rank _ k).symm.trans hk)

/-! ## The account -/

def callbackOf (c : Parking) (k : Nat) : OnEvict :=
  ((c.calls[k]?).map (fun call => call.entry.onEvict)).getD []

/-- Each call stands in one place, the callbacks run are those of the evicted, and no entry
    outlives the time to live. -/
structure Accounted (ttl maxParked : Int) (c : Parking) : Prop where
  held : c.Held
  life : c.store.resumeTTL = ttl
  cap : c.store.maxParked = maxParked
  once : (c.stored ++ c.returned ++ c.evicted).Perm (List.range c.calls.length)
  ran : c.ran.Perm (c.evicted.map c.callbackOf)
  due : ∀ k p, c.store.byID.lookup k = some p → p.expiresAt ≤ c.clock + ttl
  room : (c.store.byID.entries.length : Int) ≤ maxParked

section Steps

variable {ttl maxParked : Int} {c : Parking}

theorem Held.map_callbackOf (h : c.Held) {es} (hes : ∀ e ∈ es, c.store.byID.lookup e.1 = some e.2) :
    (c.numbers es).map c.callbackOf = es.map (fun e => e.2.onEvict) := by
  unfold numbers
  rw [List.map_map]
  apply List.map_congr_left
  intro e he
  obtain ⟨call, hcall, hentry, -⟩ := h e.1 e.2 (hes e he)
  simp [callbackOf, hcall, hentry]

variable {m : GoMap PersistedSession} {now : Int}

section

variable (h : c.Accounted ttl maxParked)
include h

theorem Accounted.once_of_evicts (hsub : GoMap.Sub m c.store.byID) :
    (c.numbers m.entries ++ c.returned ++
      (c.evicted ++ c.numbers (GoMap.gone c.store.byID m))).Perm (List.range c.calls.length) := by
  have hsplit : c.stored.Perm (c.numbers m.entries ++ c.numbers (gone c.store.byID m)) := by
    have := (entries_perm_gone hsub).map (fun e => c.latest e.1)
    rwa [map_append] at this
  refine Perm.trans ?_ h.once
  rw [perm_iff_count] at hsplit ⊢
  intro k
  have := hsplit k
  simp only [count_append] at this ⊢
  omega

theorem Accounted.ran_of_evicts {ran} (hev : MemorySessionStore.Evicts c.store.byID m ran) :
    (c.ran ++ ran).Perm
      ((c.evicted ++ c.numbers (GoMap.gone c.store.byID m)).map c.callbackOf) := by
  rw [map_append, h.held.map_callbackOf (fun e he => (mem_gone.mp he).1)]
  exact h.ran.append hev.ran

theorem Accounted.due_of_sub (hsub : GoMap.Sub m c.store.byID) (hnow : c.clock ≤ now) :
    ∀ k p, m.lookup k = some p → p.expiresAt ≤ now + ttl := by
  intro k p hk
  have := h.due k p (hsub k p hk)
  omega

theorem Accounted.room_of_sub (hsub : GoMap.Sub m c.store.byID) :
    (m.entries.length : Int) ≤ maxParked := by
  have := h.room
  have := hsub.length_le
  omega

theorem Accounted.evictExpired (hnow : c.clock ≤ now) (hheld : (c.afterEvictExpired now).Held) :
    (c.afterEvictExpired now).Accounted ttl maxParked := by
  have hev := MemorySessionStore.evicts_evictExpiredLocked c.store now
  exact ⟨hheld, h.life, h.cap, h.once_of_evicts hev.sub, h.ran_of_evicts hev,
    h.due_of_sub hev.sub hnow, h.room_of_sub hev.sub⟩

theorem Accounted.resume (hnow : c.clock ≤ now) {tenant sessionID}
    (hheld : (c.afterResume now tenant sessionID).Held) :
    (c.afterResume now tenant sessionID).Accounted ttl maxParked := by
  have hev := MemorySessionStore.evicts_evictExpiredLocked c.store now
  unfold afterResume at hheld ⊢
  cases hl : (c.store.evictExpiredLocked now).1.byID.lookup (scopedKey tenant sessionID) with
  | none =>
    rw [MemorySessionStore.resume_of_none hl] at hheld ⊢
    exact ⟨hheld, h.life, h.cap, h.once_of_evicts hev.sub, h.ran_of_evicts hev,
      h.due_of_sub hev.sub hnow, h.room_of_sub hev.sub⟩
  | some p =>
    rw [MemorySessionStore.resume_of_some hl] at hheld ⊢
    have hsub := (sub_erase _ (scopedKey tenant sessionID)).trans hev.sub
    have hgone := (gone_erase_filter hev.sub hl).map (fun e => c.latest e.1)
    have hleft := ((entries_perm_gone (sub_erase _ _)).trans
      ((gone_erase hl).append_left _)).map (fun e => c.latest e.1)
    refine ⟨hheld, h.life, h.cap, ?_, ?_, h.due_of_sub hsub hnow, h.room_of_sub hsub⟩
    · refine Perm.trans ?_ (h.once_of_evicts hev.sub)
      rw [perm_iff_count] at hgone hleft ⊢
      intro k
      have hg := hgone k
      have hs := hleft k
      simp only [stored, numbers, isSome_some, if_true, map_append, map_cons,
        map_nil, count_append] at hg hs ⊢
      omega
    · refine (h.ran_of_evicts hev).trans (Perm.map _ ?_)
      exact (hgone.symm).append_left _

theorem Accounted.park (hpos : 1 ≤ maxParked) {later} (hnow : c.clock ≤ now) (hlater : now ≤ later)
    {tenant sessionID} (hnew : c.store.byID.lookup (scopedKey tenant sessionID) = none)
    {receivers onEvict} (hheld : (c.afterPark now later tenant sessionID receivers onEvict).Held) :
    (c.afterPark now later tenant sessionID receivers onEvict).Accounted ttl maxParked := by
  obtain ⟨hbyID, hev⟩ := c.store.evicts_park now later tenant sessionID receivers onEvict
  have hroom : (c.store.roomFor now).lookup (scopedKey tenant sessionID) = none := by
    by_contra hne
    obtain ⟨q, hq⟩ := ne_none_iff_exists'.mp hne
    rw [hev.sub _ _ hq] at hnew
    cases hnew
  have hentries : (c.store.park now later tenant sessionID receivers onEvict).1.byID.entries =
      ⟨scopedKey tenant sessionID, c.entryOf later sessionID receivers onEvict⟩ ::
        (c.store.roomFor now).entries := by
    exact entries_insert_of_notMem (lookup_eq_none.mp hroom)
  have hgone : gone c.store.byID
      (c.store.park now later tenant sessionID receivers onEvict).1.byID =
        gone c.store.byID (c.store.roomFor now) := by
    exact gone_insert _ _ hnew
  have honce := h.once_of_evicts hev.sub
  refine ⟨hheld, h.life, h.cap, ?_, ?_, ?_, ?_⟩
  · have hstored : (c.afterPark now later tenant sessionID receivers onEvict).stored =
        c.calls.length :: c.numbers (c.store.roomFor now).entries := by
      simp only [stored, numbers, afterPark, hentries, map_cons, update_self]
      congr 1
      apply map_congr_left
      intro e he
      apply update_of_ne
      intro heq
      rw [← heq, mem_entries_iff.mp he] at hroom
      cases hroom
    rw [hstored]
    simp only [afterPark, hgone, length_append, length_singleton, range_succ]
    exact (honce.cons _).trans (perm_append_singleton _ _).symm
  · -- The new call is not among the evicted, and the numbers of the others stay.
    have hold : ∀ k ∈ c.evicted ++ c.numbers (gone c.store.byID (c.store.roomFor now)),
        (c.afterPark now later tenant sessionID receivers onEvict).callbackOf k =
          c.callbackOf k := by
      intro k hk
      have hlt := mem_range.mp (honce.mem_iff.mp (mem_append_right _ hk))
      simp only [callbackOf, afterPark, getElem?_append_left hlt]
    simp only [afterPark, hgone] at hold ⊢
    rw [map_congr_left hold]
    exact h.ran_of_evicts hev
  · intro k p hk
    by_cases hkey : k = scopedKey tenant sessionID
    · subst hkey
      obtain rfl := some.inj ((MemorySessionStore.lookup_park ..).symm.trans hk)
      exact le_of_eq (congrArg (later + ·) h.life)
    · simp only [afterPark, hbyID, lookup_insert_ne hkey] at hk
      exact h.due_of_sub hev.sub (hnow.trans hlater) k p hk
  · simp only [afterPark, hentries, length_cons]
    have := MemorySessionStore.makeRoom_length (m := (c.store.evictExpiredLocked now).1.byID)
      (by rw [h.cap]; omega : 0 < c.store.maxParked) _ le_rfl
    rw [← h.cap]
    exact_mod_cast this

end

theorem accounted_start (hpos : 0 < ttl) (hcap : 1 ≤ maxParked) :
    (start ttl maxParked).Accounted ttl maxParked := by
  have hlife : (newMemorySessionStoreWithCap ttl maxParked).resumeTTL = ttl :=
    if_neg (not_le.mpr hpos)
  have hmax : (newMemorySessionStoreWithCap ttl maxParked).maxParked = maxParked :=
    if_neg (not_le.mpr (lt_of_lt_of_le Int.zero_lt_one hcap))
  refine ⟨?_, hlife, hmax, Perm.refl _, Perm.refl _, ?_, ?_⟩
  · nofun
  · nofun
  · exact le_trans (show (0 : Int) ≤ 1 by decide) hcap

theorem Accounted.reorder (h : c.Accounted ttl maxParked) (rank : GoString → Nat)
    (hheld : ({ c with store := { c.store with byID := c.store.byID.reorder rank } } : Parking).Held) :
    ({ c with store := { c.store with byID := c.store.byID.reorder rank } } :
      Parking).Accounted ttl maxParked := by
  have hperm := reorder_perm rank c.store.byID
  refine ⟨hheld, h.life, h.cap, ?_, h.ran, ?_, ?_⟩
  · exact Perm.trans (((hperm.map _).append_right _).append_right _) h.once
  · intro k p hk
    exact h.due k p ((lookup_reorder rank _ k).symm.trans hk)
  · exact le_of_eq_of_le (congrArg _ hperm.length_eq) h.room

end Steps

theorem accounted_of_reachable (httl : 0 < ttl) (hcap : 1 ≤ maxParked) :
    ∀ c, Reachable ((parkingSystem ttl maxParked).restrict (fun c op => c.orderly op = true)) c →
      c.Accounted ttl maxParked := by
  intro c hc
  induction hc with
  | init hs => exact hs ▸ accounted_start httl hcap
  | step op hreach hstep ih =>
    have hheld := held_of_reachable _ (Reachable.step op hreach hstep).of_restrict
    obtain ⟨hok, hnext⟩ := hstep
    cases op with
    | park now later tenant sessionID receivers onEvict =>
      cases hnext
      simp only [orderly, Bool.and_eq_true, decide_eq_true_eq, isNone_iff_eq_none] at hok
      exact ih.park hcap hok.1.1 hok.1.2 hok.2 hheld
    | resume now tenant sessionID =>
      cases hnext
      exact ih.resume (of_decide_eq_true hok) hheld
    | evictExpired now =>
      cases hnext
      exact ih.evictExpired (of_decide_eq_true hok) hheld
    | reorder rank =>
      cases hnext
      exact ih.reorder rank hheld

/-! ## The life of an entry -/

def Stored (c : Parking) (k : Nat) : Prop :=
  ∃ key call, c.calls[k]? = some call ∧ c.latest key = k ∧
    c.store.byID.lookup key = some call.entry

/-- Stored, returned or evicted, once. -/
def InOneState (c : Parking) (k : Nat) : Prop :=
  (c.Stored k ∧ k ∉ c.returned ∧ k ∉ c.evicted) ∨
  (¬ c.Stored k ∧ c.returned.count k = 1 ∧ k ∉ c.evicted) ∨
  (¬ c.Stored k ∧ k ∉ c.returned ∧ c.evicted.count k = 1)

theorem stored_iff (h : c.Held) {k} : c.Stored k ↔ k ∈ c.stored := by
  constructor
  · rintro ⟨key, call, -, rfl, hlookup⟩
    exact mem_map.mpr ⟨⟨key, call.entry⟩, mem_entries_iff.mpr hlookup, rfl⟩
  · intro hk
    obtain ⟨e, he, rfl⟩ := mem_map.mp hk
    have hlookup := mem_entries_iff.mp he
    obtain ⟨call, hcall, hentry, -⟩ := h e.1 e.2 hlookup
    exact ⟨e.1, call, hcall, rfl, hentry ▸ hlookup⟩

theorem Accounted.inOneState (h : c.Accounted ttl maxParked) {k} (hk : k < c.calls.length) :
    c.InOneState k := by
  have hcount := h.once.count_eq k
  rw [count_append, count_append,
    count_eq_one_of_mem nodup_range (mem_range.mpr hk)] at hcount
  unfold InOneState
  rw [stored_iff h.held, ← count_pos_iff, ← count_eq_zero, ← count_eq_zero]
  omega

theorem Held.resume (h : c.Held) {now tenant sessionID receivers}
    (hres : (c.store.resume now tenant sessionID).1 = some receivers) :
    ∃ call, c.calls[c.latest (scopedKey tenant sessionID)]? = some call ∧
      call.entry.receivers = receivers ∧ now ≤ call.entry.expiresAt ∧
      scopedKey call.tenant call.entry.id = scopedKey tenant sessionID := by
  obtain ⟨p, hp, hexp, rfl⟩ := MemorySessionStore.resume_found hres
  obtain ⟨call, hcall, rfl, hkey⟩ := h _ p hp
  exact ⟨call, hcall, rfl, not_lt.mp (of_decide_eq_false hexp), hkey⟩

theorem Accounted.evicted_for_room (h : c.Accounted ttl maxParked) {now later}
    (hnow : c.clock ≤ now) (hlater : now ≤ later) {tenant sessionID receivers onEvict k p}
    (hp : c.store.byID.lookup k = some p) (hexp : MemorySessionStore.expired now p = false)
    (hgone : (c.store.park now later tenant sessionID receivers onEvict).1.byID.lookup k = none)
    {k' q}
    (hq : (c.store.park now later tenant sessionID receivers onEvict).1.byID.lookup k' = some q) :
    p.expiresAt ≤ q.expiresAt := by
  obtain ⟨hbyID, -⟩ := c.store.evicts_park now later tenant sessionID receivers onEvict
  rw [hbyID] at hgone hq
  by_cases hk' : k' = scopedKey tenant sessionID
  · subst hk'
    obtain rfl := some.inj ((lookup_insert _).symm.trans hq)
    have := h.due k p hp
    simp only [h.life]
    omega
  · have hk : k ≠ scopedKey tenant sessionID := by
      rintro rfl
      rw [lookup_insert] at hgone
      cases hgone
    rw [lookup_insert_ne hk] at hgone
    rw [lookup_insert_ne hk'] at hq
    exact MemorySessionStore.makeRoom_oldest _ _ _ (e := ⟨k, p⟩)
      (mem_gone.mpr ⟨MemorySessionStore.lookup_evictExpiredLocked.mpr ⟨hp, hexp⟩, hgone⟩) hq

/-- Every call of `Park` is stored, returned by one `Resume`, or evicted with its callback
    run once; nothing expired is returned; the store stays within its cap, and what is
    evicted for that expires first. -/
theorem parked_lifecycle {ttl maxParked : Int} (httl : 0 < ttl) (hcap : 1 ≤ maxParked) {c : Parking}
    (hc : Reachable
      ((parkingSystem ttl maxParked).restrict (fun c op => c.orderly op = true)) c) :
    (∀ k < c.calls.length, c.InOneState k) ∧ c.ran.Perm (c.evicted.map c.callbackOf) ∧
      (∀ now tenant sessionID receivers,
        (c.store.resume now tenant sessionID).1 = some receivers →
        ∃ call, c.calls[c.latest (scopedKey tenant sessionID)]? = some call ∧
          call.entry.receivers = receivers ∧ now ≤ call.entry.expiresAt) ∧
      (c.store.byID.entries.length : Int) ≤ maxParked ∧
      ∀ now later tenant sessionID receivers onEvict,
        c.orderly (.park now later tenant sessionID receivers onEvict) = true →
        ∀ k p, c.store.byID.lookup k = some p → MemorySessionStore.expired now p = false →
          (c.store.park now later tenant sessionID receivers onEvict).1.byID.lookup k = none →
          ∀ k' q, (c.store.park now later tenant sessionID receivers onEvict).1.byID.lookup k' =
            some q → p.expiresAt ≤ q.expiresAt := by
  have h := accounted_of_reachable httl hcap c hc
  refine ⟨fun k hk => h.inOneState hk, h.ran, ?_, h.room, ?_⟩
  · intro now tenant sessionID receivers hres
    obtain ⟨call, hcall, hrecv, hexp, -⟩ := h.held.resume hres
    exact ⟨call, hcall, hrecv, hexp⟩
  · intro now later tenant sessionID receivers onEvict hok k p hp hexp hgone k' q hq
    simp only [orderly, Bool.and_eq_true, decide_eq_true_eq] at hok
    exact h.evicted_for_room hok.1.1 hok.1.2 hp hexp hgone hq

theorem parked_lifecycle_cap_one :
    ∃ c, Reachable ((parkingSystem 10 1).restrict (fun c op => c.orderly op = true)) c ∧
      c.calls.length = 2 ∧ c.evicted = [0] ∧ c.returned = [1] ∧
      c.ran.Perm (c.evicted.map c.callbackOf) ∧ c.InOneState 0 ∧ c.InOneState 1 := by
  refine exists_run_given_imp [.park 0 0 (str "t") (str "a") ∅ [(0, 0)],
    .park 1 1 (str "t") (str "b") ∅ [(0, 1)], .resume 2 (str "t") (str "b")]
    (fun c hc (hp : c.calls.length = 2 ∧ c.evicted = [0] ∧ c.returned = [1]) => ?_) (by decide)
  obtain ⟨hlen, hevicted, hreturned⟩ := hp
  obtain ⟨hone, hran, -⟩ := parked_lifecycle (by decide) (by decide) hc
  exact ⟨hlen, hevicted, hreturned, hran, hone 0 (by omega), hone 1 (by omega)⟩

end Parking

end QuicRTC

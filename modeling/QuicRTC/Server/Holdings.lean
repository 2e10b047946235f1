import QuicRTC.Server.Concurrent

/-! # Where Receivers Are Kept

A receiver is in the receiver set of its broadcaster (`Server.listed`) and in the track table of the
session it is attached to (`Server.attached`). Each part of the server changes the two in a way that
one equivalence says.
-/

namespace QuicRTC

open Wire Function List GoMap AList

namespace Server

/-! ## The two tables -/

def listed (s : Server) (b : BroadcasterId) : List ReceiverId := (s.broadcasters b).receivers

def attached (s : Server) (ref : SessionRef) (n : GoString) : Option ReceiverId :=
  ((s.sessionAt ref).tracks.lookup n).map TrackPump.recv

def parkKey (s : Server) (ref : SessionRef) : GoString :=
  scopedKey (s.sessionAt ref).tenant (s.sessionAt ref).sessionID

/-- Nothing that refers to a receiver changes. -/
structure SameHoldings (s s' : Server) : Prop where
  tracks : s'.tracks = s.tracks
  sessions : s'.sessions = s.sessions
  store : s'.store = s.store
  nextBroadcaster : s'.nextBroadcaster = s.nextBroadcaster
  nextReceiver : s'.nextReceiver = s.nextReceiver
  nextSession : s'.nextSession = s.nextSession
  listed : ∀ b, s'.listed b = s.listed b
  attached : ∀ ref n, s'.attached ref n = s.attached ref n

theorem SameHoldings.refl (s : Server) : SameHoldings s s :=
  ⟨rfl, rfl, rfl, rfl, rfl, rfl, fun _ => rfl, fun _ _ => rfl⟩

variable {b : BroadcasterId} {r : ReceiverId} {s s' : Server} {t : TrackEntry}

theorem SameHoldings.trans {s''} (h : SameHoldings s s') (h' : SameHoldings s' s'') :
    SameHoldings s s'' where
  tracks := h'.tracks.trans h.tracks
  sessions := h'.sessions.trans h.sessions
  store := h'.store.trans h.store
  nextBroadcaster := h'.nextBroadcaster.trans h.nextBroadcaster
  nextReceiver := h'.nextReceiver.trans h.nextReceiver
  nextSession := h'.nextSession.trans h.nextSession
  listed := fun b => (h'.listed b).trans (h.listed b)
  attached := fun ref n => (h'.attached ref n).trans (h.attached ref n)

/-! ## Sessions -/

theorem attached_onSession_self (s : Server) (ref : SessionRef) (f : Session → Session)
    (n : GoString) :
    (s.onSession ref f).attached ref n =
      ((f (s.sessionAt ref)).tracks.lookup n).map TrackPump.recv := by
  rw [attached, onSession_self]

theorem attached_onSession_of_ne (s : Server) {ref ref'} (h : ref' ≠ ref) (f : Session → Session)
    (n : GoString) : (s.onSession ref f).attached ref' n = s.attached ref' n := by
  rw [attached, onSession_of_ne s h, attached]

theorem sameHoldings_onSession (s : Server) (ref : SessionRef) {f : Session → Session}
    (hf : (f (s.sessionAt ref)).tracks = (s.sessionAt ref).tracks) :
    SameHoldings s (s.onSession ref f) := by
  refine ⟨rfl, rfl, rfl, rfl, rfl, rfl, fun _ => rfl, fun ref' n => ?_⟩
  by_cases href : ref' = ref
  · rw [href, attached_onSession_self, hf, attached]
  · exact attached_onSession_of_ne s href f n

theorem sameHoldings_control (s : Server) (ref : SessionRef) (f : Session → Session)
    (hf : ∃ c, f (s.sessionAt ref) = { s.sessionAt ref with control := c }) :
    SameHoldings s (s.onSession ref f) := by
  obtain ⟨c, hc⟩ := hf
  exact sameHoldings_onSession s ref (by rw [hc])

theorem attached_attach (s : Server) (ref ref' : SessionRef) (name n : GoString) (kind : Kind)
    (r : ReceiverId) (priority trackID : UInt8) :
    (s.onSession ref (fun sess => sess.attachTrackWithKind name kind r priority trackID)).attached
        ref' n =
      if ref' = ref ∧ n = name then s.attached ref name <|> some r else s.attached ref' n := by
  by_cases href : ref' = ref
  · subst href
    rw [attached_onSession_self]
    unfold Session.attachTrackWithKind
    by_cases hn : n = name
    · subst hn
      rw [if_pos ⟨rfl, rfl⟩, attached]
      cases hl : (s.sessionAt ref').tracks.lookup n with
      -- Taken: `attachTrackWithKind` returns at once.
      | some tp => simp [hl]
      | none => simp [lookup_insert]
    · rw [if_neg (fun h => hn h.2), attached]
      cases hl : (s.sessionAt ref').tracks.lookup name with
      | some tp => rfl
      | none => simp [lookup_insert_ne hn]
  · rw [if_neg (fun h => href h.1), attached_onSession_of_ne s href]

theorem attached_detach (s : Server) (ref ref' : SessionRef) (name n : GoString) :
    (s.onSession ref (fun sess => sess.detachTrack name)).attached ref' n =
      if ref' = ref ∧ n = name then none else s.attached ref' n := by
  by_cases href : ref' = ref
  · subst href
    rw [attached_onSession_self]
    unfold Session.detachTrack
    by_cases hn : n = name
    · subst hn
      cases hl : (s.sessionAt ref').tracks.lookup n with
      -- The pump is stopped and its entry deleted.
      | some tp => simp [lookup_erase]
      | none => simp [hl]
    · rw [if_neg (fun h => hn h.2), attached]
      cases hl : (s.sessionAt ref').tracks.lookup name with
      | some tp => simp [lookup_erase_ne hn]
      | none => rfl
  · rw [if_neg (fun h => href h.1), attached_onSession_of_ne s href]

theorem attached_addSession (s : Server) (ref : SessionRef) (n : GoString) :
    s.addSession.attached ref n = if ref = s.nextSession then none else s.attached ref n := by
  unfold attached addSession
  by_cases href : ref = s.nextSession
  · simp only [href, update_self, if_true]
    rfl
  · simp only [update_of_ne href, if_neg href]

/-! ## Broadcasters -/

theorem mem_listed_subscribe (s : Server) (b : BroadcasterId) (size : PubSub → Nat) {b'} :
    r ∈ (s.onBroadcaster b (fun ps => ps.subscribeWithCap (size ps))).listed b' ↔
      r ∈ s.listed b' ∨ b' = b ∧ r = s.nextReceiver := by
  unfold listed
  by_cases hb : b' = b
  · subst hb
    have hself : ((s.onBroadcaster b' (fun ps => ps.subscribeWithCap (size ps))).broadcasters
        b').receivers = (s.broadcasters b').receivers ++ [s.nextReceiver] := by
      simp only [onBroadcaster, update_self]
      rfl
    rw [hself, mem_append, mem_singleton]
    simp
  · rw [onBroadcaster_of_ne s hb]
    simp [hb]

theorem mem_listed_unsubscribe (s : Server) (b : BroadcasterId) (q : ReceiverId) {b'} :
    r ∈ (s.onBroadcaster b (fun ps => ps.unsubscribe q)).listed b' ↔
      r ∈ s.listed b' ∧ ¬(b' = b ∧ r = q) := by
  unfold listed
  by_cases hb : b' = b
  · subst hb
    have hself : ((s.onBroadcaster b' (fun ps => ps.unsubscribe q)).broadcasters b').receivers =
        (s.broadcasters b').receivers.filter (· ≠ q) := by
      simp only [onBroadcaster, update_self]
      unfold PubSub.unsubscribe
      split
      · rfl
      · next hq =>
        -- Not a member: the filter takes nothing out.
        refine (filter_eq_self.mpr (fun x hx => ?_)).symm
        exact decide_eq_true (fun heq => hq (heq ▸ hx))
    rw [hself, mem_filter]
    simp
  · rw [onBroadcaster_of_ne s hb]
    simp [hb]

theorem mem_listed_unsubscribeAll (s : Server) (pairs : List (BroadcasterId × ReceiverId)) :
    r ∈ (s.unsubscribeAll pairs).listed b ↔ r ∈ s.listed b ∧ (b, r) ∉ pairs := by
  unfold unsubscribeAll
  induction pairs generalizing s with
  | nil => simp
  | cons x pairs ih =>
    rw [foldl_cons, ih, mem_listed_unsubscribe, mem_cons, Prod.ext_iff]
    simp only [not_or]
    exact and_assoc

theorem mem_activeReceivers {ref} :
    (b, r) ∈ s.activeReceivers ref [t] ↔ b = t.bc ∧ s.attached ref t.name = some r := by
  unfold activeReceivers Session.receivers attached
  cases hl : (s.sessionAt ref).tracks.lookup t.name with
  | none => simp [hl]
  | some tp =>
    simp only [flatMap_cons, flatMap_nil, hl, map_cons, map_nil,
      append_nil, mem_singleton, Prod.mk.injEq, Option.map_some, Option.some.injEq]
    exact and_congr_right (fun _ => eq_comm)

theorem listed_close (s : Server) (b b' : BroadcasterId) :
    (s.onBroadcaster b PubSub.close).listed b' = if b' = b then [] else s.listed b' := by
  unfold listed
  by_cases hb : b' = b
  · subst hb
    simp only [onBroadcaster, update_self, if_true]
    rfl
  · rw [onBroadcaster_of_ne s hb, if_neg hb]

theorem sameHoldings_publish (s : Server) (b : BroadcasterId) (au : AccessUnit) :
    SameHoldings s (s.publish b au) := by
  have hfresh : ((s.pubsub b).publish au).fresh = s.nextReceiver := by
    unfold PubSub.publish
    split <;> rfl
  have hsame : ((s.pubsub b).publish au).bc.receivers = (s.broadcasters b).receivers := by
    unfold PubSub.publish
    split <;> rfl
  refine ⟨rfl, rfl, rfl, rfl, hfresh, rfl, fun b' => ?_, fun _ _ => rfl⟩
  by_cases hb : b' = b
  · subst hb
    unfold listed
    rw [← hsame]
    simp only [publish, onBroadcaster, update_self]
  · exact congrArg Broadcaster.receivers (onBroadcaster_of_ne s hb _)

theorem listed_registerTrack {name} (hnew : s.tracks.lookup name = none) (kind : Kind)
    (priority trackID : UInt8) (b : BroadcasterId) :
    (s.registerTrack name kind priority trackID).1.listed b =
      if b = s.nextBroadcaster then [] else s.listed b := by
  obtain ⟨bc, recorders, hbc, heq⟩ := registerTrack_of_none hnew kind priority trackID
  rw [heq]
  unfold listed
  by_cases hb : b = s.nextBroadcaster
  · simp only [hb, update_self, if_true, hbc]
  · simp only [update_of_ne hb, if_neg hb]

/-! ## `trackSnapshot` -/

/-- Every track of `l` got one receiver, and `m` has them by name. -/
structure SubscribedAll (s : Server) (l : List TrackEntry) (m : GoMap ReceiverId) (s' : Server) :
    Prop where
  tracks : s'.tracks = s.tracks
  sessions : s'.sessions = s.sessions
  store : s'.store = s.store
  nextBroadcaster : s'.nextBroadcaster = s.nextBroadcaster
  nextSession : s'.nextSession = s.nextSession
  sessionAt : s'.sessionAt = s.sessionAt
  fresh : s.nextReceiver ≤ s'.nextReceiver
  all : ∀ t ∈ l, ∃ r, m.lookup t.name = some r
  new : ∀ n r, m.lookup n = some r →
                      (∃ t ∈ l, t.name = n) ∧ s.nextReceiver ≤ r ∧ r < s'.nextReceiver
  listed : ∀ b r, r ∈ s'.listed b ↔
                      r ∈ s.listed b ∨ ∃ t ∈ l, t.bc = b ∧ m.lookup t.name = some r

theorem SubscribedAll.nil (s : Server) : SubscribedAll s [] ∅ s := by
  refine ⟨rfl, rfl, rfl, rfl, rfl, rfl, le_rfl, ?_, ?_, ?_⟩
  · exact nofun
  · exact nofun
  · intro b r
    simp

theorem SubscribedAll.snoc {l m} (h : SubscribedAll s l m s') (hnew : ∀ t' ∈ l, t'.name ≠ t.name) :
    SubscribedAll s (l ++ [t]) (m.insert t.name s'.nextReceiver)
      (s'.onBroadcaster t.bc PubSub.subscribe) := by
  have hlookup : ∀ t' ∈ l, (m.insert t.name s'.nextReceiver).lookup t'.name = m.lookup t'.name :=
    fun t' ht' => AList.lookup_insert_ne (hnew t' ht')
  refine { h with fresh := h.fresh.trans (Nat.le_succ _), all := ?_, new := ?_, listed := ?_ }
  · intro t' ht'
    rcases List.mem_append.mp ht' with ht' | ht'
    · rw [hlookup t' ht']
      exact h.all t' ht'
    · rw [List.mem_singleton.mp ht']
      exact ⟨_, AList.lookup_insert _⟩
  · intro n r hr
    rcases GoMap.lookup_insert_eq_some_iff.mp hr with ⟨rfl, rfl⟩ | ⟨-, hold⟩
    · exact ⟨⟨t, List.mem_concat_self, rfl⟩, h.fresh,
        Nat.lt_succ_self _⟩
    · obtain ⟨⟨t', ht', hn⟩, hlo, hhi⟩ := h.new n r hold
      exact ⟨⟨t', List.mem_append_left _ ht', hn⟩, hlo, Nat.lt_succ_of_lt hhi⟩
  · intro b r
    refine (mem_listed_subscribe s' t.bc (fun ps => ps.bc.chanSize)).trans ?_
    rw [h.listed b r, or_assoc]
    refine or_congr_right ⟨?_, ?_⟩
    · rintro (⟨t', ht', hb, hr⟩ | ⟨rfl, rfl⟩)
      · exact ⟨t', List.mem_append_left _ ht', hb, (hlookup t' ht').trans hr⟩
      · exact ⟨t, List.mem_concat_self, rfl, AList.lookup_insert _⟩
    · intro ⟨t', ht', hb, hr⟩
      rcases List.mem_append.mp ht' with ht' | ht'
      · exact Or.inl ⟨t', ht', hb, (hlookup t' ht').symm.trans hr⟩
      · obtain rfl := List.mem_singleton.mp ht'
        rw [AList.lookup_insert] at hr
        exact Or.inr ⟨hb.symm, (Option.some.inj hr).symm⟩

section

variable (hnamed : ∀ n t, s.tracks.lookup n = some t → t.name = n)
include hnamed

theorem names_nodup : ((s.tracks.entries.map (fun e => e.2)).map TrackEntry.name).Nodup := by
  have hkeys : (s.tracks.entries.map (fun e => e.2)).map TrackEntry.name = s.tracks.keys := by
    rw [List.map_map]
    refine map_congr_left (fun e he => ?_)
    exact hnamed e.1 e.2 (mem_entries_iff.mp he)
  rw [hkeys]
  exact s.tracks.keys_nodup

theorem subscribedAll_onFreshSession :
    SubscribedAll s (s.tracks.entries.map (fun e => e.2)) s.onFreshSession.1 s.onFreshSession.2 := by
  have hnodup := names_nodup hnamed
  unfold onFreshSession fold
  revert hnodup
  generalize s.tracks.entries = es
  induction es using reverseRecOn with
  | nil => exact fun _ => SubscribedAll.nil s
  | append_singleton es e ih =>
    -- The induction follows the loop, so the new track comes last.
    intro hnodup
    simp only [map_append, nodup_append] at hnodup
    obtain ⟨hprev, -, hdisj⟩ := hnodup
    rw [foldl_append, map_append]
    refine (ih hprev).snoc (fun t' ht' => ?_)
    exact hdisj t'.name (mem_map_of_mem ht') e.2.name (by simp)

theorem mem_tracks_iff :
    t ∈ s.tracks.entries.map (fun e => e.2) ↔ s.tracks.lookup t.name = some t := by
  rw [List.mem_map]
  constructor
  · rintro ⟨e, he, rfl⟩
    have hl := GoMap.mem_entries_iff.mp he
    rwa [hnamed e.1 e.2 hl]
  · exact fun h => ⟨⟨t.name, t⟩, GoMap.mem_entries_iff.mpr h, rfl⟩

end

/-! ## Eviction and resume -/

/-- With its callbacks. -/
def evict (s : Server) (store : MemorySessionStore) (evicted : List OnEvict) : Server :=
  { s with store := store }.unsubscribeAll evicted.flatten

theorem evict_frame (s : Server) (store : MemorySessionStore) (evicted : List OnEvict) :
    (s.evict store evicted).tracks = s.tracks ∧ (s.evict store evicted).store = store ∧
      (s.evict store evicted).sessionAt = s.sessionAt ∧
      (s.evict store evicted).nextReceiver = s.nextReceiver ∧
      (s.evict store evicted).nextBroadcaster = s.nextBroadcaster :=
  unsubscribeAll_frame _ _

theorem sameSessions_evict (s : Server) (store : MemorySessionStore) (evicted : List OnEvict) :
    SameSessions s (s.evict store evicted) :=
  SameSessions.evict ⟨rfl, rfl, rfl⟩ store _

theorem mem_listed_evict (s : Server) (store : MemorySessionStore) (evicted : List OnEvict) :
    r ∈ (s.evict store evicted).listed b ↔ r ∈ s.listed b ∧ (b, r) ∉ evicted.flatten :=
  mem_listed_unsubscribeAll _ _

theorem attached_evict (s : Server) (store : MemorySessionStore) (evicted : List OnEvict)
    (ref : SessionRef) (n : GoString) :
    (s.evict store evicted).attached ref n = s.attached ref n := by
  rw [attached, (s.sameSessions_evict store evicted).sessionAt, attached]

theorem sameHoldings_resumeTrack (s : Server) (receivers : GoMap ReceiverId) (name : GoString)
    (fromSeq : UInt32) : SameHoldings s (resumeTrack receivers s name fromSeq) := by
  unfold resumeTrack
  split
  · exact ⟨rfl, rfl, rfl, rfl, rfl, rfl, fun _ => rfl, fun _ _ => rfl⟩
  · exact SameHoldings.refl s

theorem onResume_spec (s : Server) (now : Int) (tenant id : GoString) (lastSeen : GoMap UInt32) :
    SameHoldings (s.evict (s.store.resume now tenant id).2.1 (s.store.resume now tenant id).2.2)
        (onResume now tenant id lastSeen s).2 ∧
      (onResume now tenant id lastSeen s).1 = (s.store.resume now tenant id).1 := by
  unfold onResume
  simp only
  split
  · next hfound => exact ⟨SameHoldings.refl _, hfound.symm⟩
  · next receivers hfound =>
    refine ⟨?_, hfound.symm⟩
    exact fold_induction (P := SameHoldings _) (SameHoldings.refl _)
      (fun s' name fromSeq h => h.trans (s'.sameHoldings_resumeTrack receivers name fromSeq))

theorem tryResume_none {sess : Session} {now hello}
    (h : sess.tryResume (callbacks now []) hello s = (none, s')) :
    ∃ store ran, MemorySessionStore.Evicts s.store.byID store.byID ran ∧
      SameHoldings (s.evict store ran) s' := by
  unfold Session.tryResume at h
  split at h
  · cases h
    exact ⟨s.store, [], MemorySessionStore.Evicts.refl _, SameHoldings.refl s⟩
  · obtain ⟨hsame, hfound⟩ := s.onResume_spec now sess.tenant hello.sessionID hello.lastSeenSeq
    simp only [callbacks] at h
    split at h
    · next env heq =>
      cases h
      rw [heq] at hsame hfound
      refine ⟨_, _, ?_, hsame⟩
      have hev := MemorySessionStore.evicts_evictExpiredLocked s.store now
      unfold MemorySessionStore.resume at hfound ⊢
      simp only at hfound ⊢
      split
      · exact hev
      · next p hp =>
        simp only [hp] at hfound
        cases hfound
    · cases h

theorem tryResume_some {sess : Session} {sess' now hello receivers}
    (h : sess.tryResume (callbacks now []) hello s = (some (sess', receivers), s')) :
    sess'.tracks = sess.tracks ∧
      ∃ (store : MemorySessionStore) (ran : List OnEvict) (p : PersistedSession),
        MemorySessionStore.Evicts s.store.byID store.byID ran ∧
        store.byID.lookup (scopedKey sess'.tenant sess'.sessionID) = some p ∧
        p.receivers = receivers ∧
        SameHoldings (s.evict { store with
          byID := store.byID.erase (scopedKey sess'.tenant sess'.sessionID) } ran) s' := by
  unfold Session.tryResume at h
  split at h
  · cases h
  · obtain ⟨hsame, hfound⟩ := s.onResume_spec now sess.tenant hello.sessionID hello.lastSeenSeq
    simp only [callbacks] at h
    split at h
    · cases h
    · next receivers' env heq =>
      cases h
      rw [heq] at hsame hfound
      have hev := MemorySessionStore.evicts_evictExpiredLocked s.store now
      unfold MemorySessionStore.resume at hsame hfound
      simp only at hsame hfound
      split at hsame
      · next hnone =>
        simp only [hnone] at hfound
        cases hfound
      · next p hp =>
        simp only [hp, Option.some.injEq] at hfound
        exact ⟨rfl, _, _, p, hev, hp, hfound.symm, hsame⟩

end Server

end QuicRTC

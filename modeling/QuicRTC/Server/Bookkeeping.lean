import QuicRTC.Server.Ledger

/-! # The Record Is Right

Two invariants of the server with its record: whatever refers to a receiver is where the record has
it (`Sound`), so that none is in two places; and names, broadcasters, receivers and sessions are
used once (`Tidy`).
-/

namespace QuicRTC

open Wire Function List Slots GoMap

namespace Concurrent

open MemorySessionStore

/-- What its goroutine refers to is recorded with it. -/
structure PhaseSound (l : Ledger) (ref : SessionRef) (p : Phase) : Prop where
  todo : ∀ e ∈ p.todo, l.owner e.2 = some (.active ref)
  receivers : ∀ x ∈ p.entry, ∀ n r, x.1.lookup n = some r → l.owner r = some (.parking ref)
  onEvict : ∀ x ∈ p.entry, ∀ y ∈ x.2, l.owner y.2 = some (.parking ref)

structure EntrySound (l : Ledger) (key : GoString) (p : PersistedSession) : Prop where
  receivers : ∀ n r, p.receivers.lookup n = some r → ∃ ref, l.owner r = some (.stored ref key)
  onEvict : ∀ x ∈ p.onEvict, ∃ ref, l.owner x.2 = some (.stored ref key)

/-- Whatever refers to a receiver is where the record has it. -/
structure Sound (s : Concurrent) (l : Ledger) : Prop where
  born : ∀ r o, l.owner r = some o → r < s.server.nextReceiver
  attached : ∀ ref n r, s.server.attached ref n = some r → l.owner r = some (.active ref)
  carried : ∀ b n r ref, s.Carries b n r ref → l.owner r = some (.active ref)
  phase : ∀ ref, PhaseSound l ref (s.phase ref)
  stored : ∀ k p, s.server.store.byID.lookup k = some p → EntrySound l k p

section Sound

variable {s s' : Concurrent} {l l' : Ledger}

variable {ran : List OnEvict} {store : MemorySessionStore} {i : Nat} {p : Phase} {ref : SessionRef}

theorem phaseSound_of_nil (l : Ledger) (ref : SessionRef) (htodo : p.todo = [])
    (hentry : p.entry = none) : PhaseSound l ref p := by
  refine ⟨fun e he => ?_, fun x hx => ?_, fun x hx => ?_⟩
  · rw [htodo] at he
    cases he
  · rw [hentry] at hx
    cases hx
  · rw [hentry] at hx
    cases hx

theorem PhaseSound.quiet {p'} (h : PhaseSound l ref p) (hq : p.Quiet p') : PhaseSound l ref p' where
  todo := hq.todo ▸ h.todo
  receivers := hq.entry ▸ h.receivers
  onEvict := hq.entry ▸ h.onEvict

theorem PhaseSound.mono (h : PhaseSound l ref p)
    (hold : ∀ r o, l.owner r = some o → l'.owner r = some o) : PhaseSound l' ref p where
  todo := fun e he => hold _ _ (h.todo e he)
  receivers := fun x hx n r hr => hold _ _ (h.receivers x hx n r hr)
  onEvict := fun x hx y hy => hold _ _ (h.onEvict x hx y hy)

theorem EntrySound.mono {key p} (h : EntrySound l key p)
    (hold : ∀ r o, l.owner r = some o → l'.owner r = some o) : EntrySound l' key p where
  receivers := fun n r hr => (h.receivers n r hr).imp (fun _ ho => hold _ _ ho)
  onEvict := fun x hx => (h.onEvict x hx).imp (fun _ ho => hold _ _ ho)

theorem Sound.grant_owner (h : Sound s l) (o : Owner) (hi : ReceiverId) (r : ReceiverId) (o' : Owner)
    (ho : l.owner r = some o') : (l.grant o s.server.nextReceiver hi).owner r = some o' :=
  (l.grant_owner_of_lt o (h.born r o' ho)).trans ho

theorem Sound.phase_update (h : Sound s l) {p'}
    (hold : ∀ r o, l.owner r = some o → l'.owner r = some o) (hp : PhaseSound l' ref p') :
    ∀ ref', PhaseSound l' ref' (update s.phase ref p' ref') :=
  (forall_update_iff s.phase (p := fun ref' p => PhaseSound l' ref' p)).mpr
    ⟨hp, fun ref' _ => (h.phase ref').mono hold⟩

theorem Sound.mono (h : Sound s l) (hle : s.server.nextReceiver ≤ s'.server.nextReceiver)
    (hold : ∀ r o, l.owner r = some o → l'.owner r = some o)
    (hborn : ∀ r o, l'.owner r = some o → l.owner r = some o ∨ r < s'.server.nextReceiver)
    (hattached : ∀ ref n r, s'.server.attached ref n = some r →
      s.server.attached ref n = some r ∨ l.owner r = some (.active ref))
    (hcarried : ∀ b n r ref, s'.Carries b n r ref →
      s.Carries b n r ref ∨ l'.owner r = some (.active ref))
    (hphase : ∀ ref, PhaseSound l' ref (s'.phase ref))
    (hstored : GoMap.Sub s'.server.store.byID s.server.store.byID) : Sound s' l' where
  born := fun r o ho => (hborn r o ho).elim (fun ho => (h.born r o ho).trans_le hle) id
  attached := fun ref n r hr =>
    (hattached ref n r hr).elim (fun hr => hold _ _ (h.attached ref n r hr)) (hold _ _)
  carried := fun b n r ref hr =>
    (hcarried b n r ref hr).elim (fun hr => hold _ _ (h.carried b n r ref hr)) id
  phase := hphase
  stored := fun k p hp => (h.stored k p (hstored k p hp)).mono hold

theorem Sound.frame (h : Sound s l) (hnext : s'.server.nextReceiver = s.server.nextReceiver)
    (hattached : ∀ ref n r, s'.server.attached ref n = some r →
      s.server.attached ref n = some r ∨ l.owner r = some (.active ref))
    (hcarried : ∀ b n r ref, s'.Carries b n r ref → s.Carries b n r ref)
    (hphase : ∀ ref, PhaseSound l ref (s'.phase ref))
    (hstored : GoMap.Sub s'.server.store.byID s.server.store.byID) : Sound s' l :=
  h.mono hnext.ge (fun _ _ => id) (fun _ _ => .inl) hattached
    (fun b n r ref hr => .inl (hcarried b n r ref hr)) hphase hstored

variable {hello : SessionRef → Option Hello} {server : Server}

theorem Sound.session (h : Sound s l) (hnext : server.nextReceiver = s.server.nextReceiver)
    (hattached : ∀ ref n r, server.attached ref n = some r →
      s.server.attached ref n = some r ∨ l.owner r = some (.active ref))
    (hstored : GoMap.Sub server.store.byID s.server.store.byID) (hp : PhaseSound l ref p) :
    Sound ⟨server, update s.phase ref p, hello, s.calls⟩ l :=
  h.frame hnext hattached (fun _ _ _ _ => id) (h.phase_update (fun _ _ => id) hp) hstored

/-- Those of other goroutines stay. -/
theorem Sound.pass (h : Sound s l) {f : Owner → Owner}
    (hactive : ∀ ref', f (.active ref') = .active ref')
    (hparking : ∀ ref', ref' ≠ ref → f (.parking ref') = .parking ref')
    (hnext : server.nextReceiver = s.server.nextReceiver)
    (hattached : ∀ ref n, server.attached ref n = s.server.attached ref n)
    (hp : PhaseSound (l.pass f) ref p)
    (hstored : ∀ k q, server.store.byID.lookup k = some q → EntrySound (l.pass f) k q) :
    Sound ⟨server, update s.phase ref p, hello, s.calls⟩ (l.pass f) := by
  refine ⟨fun r o hr => ?_, fun ref' n r hr => ?_, fun b n r ref' hr => ?_, ?_, hstored⟩
  · obtain ⟨o', ho', -⟩ := Option.map_eq_some_iff.mp hr
    exact (h.born r o' ho').trans_eq hnext.symm
  · exact Ledger.pass_owner (h.attached ref' n r ((hattached ref' n).symm.trans hr)) (hactive ref')
  · exact Ledger.pass_owner (h.carried b n r ref' hr) (hactive ref')
  · refine (forall_update_iff s.phase (p := fun ref' p => PhaseSound _ ref' p)).mpr
      ⟨hp, fun ref' hne => ?_⟩
    have hp := h.phase ref'
    exact ⟨fun e he => Ledger.pass_owner (hp.todo e he) (hactive ref'),
      fun x hx n r hr => Ledger.pass_owner (hp.receivers x hx n r hr) (hparking ref' hne),
      fun x hx y hy => Ledger.pass_owner (hp.onEvict x hx y hy) (hparking ref' hne)⟩

theorem Sound.evicted (h : Sound s l) (hstore : Evicts s.server.store.byID store.byID ran)
    (hserver : (s.server.evict store ran).SameHoldings s'.server)
    (hphase : ∀ ref, (s.phase ref).Quiet (s'.phase ref)) (hcalls : SameFlight s s') : Sound s' l := by
  obtain ⟨-, hst, -, hnext, -⟩ := s.server.evict_frame store ran
  refine h.frame (hserver.nextReceiver.trans hnext) ?_
    (fun b n r ref => (hcalls.carries b n r ref).mp) (fun ref => (h.phase ref).quiet (hphase ref)) ?_
  · intro ref n r hr
    rw [hserver.attached, Server.attached_evict] at hr
    exact .inl hr
  · rw [hserver.store, hst]
    exact hstore.sub

theorem Sound.resumed (h : Sound s l) {greeting key p}
    (hstore : Evicts s.server.store.byID store.byID ran) (hentry : store.byID.lookup key = some p)
    (hserver : (s.server.evict { store with byID := store.byID.erase key } ran).SameHoldings server) :
    Sound ⟨server, update s.phase ref (.attaching greeting (.resumed p.receivers) p.receivers.entries),
      hello, s.calls⟩ (l.pass (Owner.resumedBy ref key)) := by
  obtain ⟨-, hst, -, hnext, -⟩ := s.server.evict_frame { store with byID := store.byID.erase key } ran
  refine h.pass (fun _ => rfl) (fun _ _ => rfl) (hserver.nextReceiver.trans hnext) ?_ ?_ ?_
  · intro ref' n
    rw [hserver.attached, Server.attached_evict]
  · refine ⟨fun e he => ?_, nofun, nofun⟩
    -- The handshake will attach what the entry had.
    obtain ⟨ref₀, ho⟩ := (h.stored key p (hstore.sub key p hentry)).receivers e.1 e.2
      (mem_entries_iff.mp he)
    exact Ledger.pass_owner ho (if_pos rfl)
  · intro k q hq
    rw [hserver.store, hst] at hq
    -- Entries that stay have another key, so they are not taken over.
    obtain ⟨hne, hq⟩ := lookup_erase_eq_some_iff.mp hq
    have hsound := h.stored k q (hstore.sub k q hq)
    have hkeep : ∀ r ref₀, l.owner r = some (.stored ref₀ k) →
        (l.pass (Owner.resumedBy ref key)).owner r = some (.stored ref₀ k) :=
      fun r ref₀ ho => Ledger.pass_owner ho (if_neg hne)
    exact ⟨fun n r hr => (hsound.receivers n r hr).imp (hkeep r),
      fun x hx => (hsound.onEvict x hx).imp (hkeep x.2)⟩

theorem Sound.parked (h : Sound s l) {ok receivers onEvict now later}
    (hphase : s.phase ref = .releasing ok [] (some (receivers, onEvict)))
    (hpark : s.server.store.park now later (s.server.sessionAt ref).tenant
      (s.server.sessionAt ref).sessionID receivers onEvict = (store, ran)) :
    Sound ⟨s.server.evict store ran, update s.phase ref (.parked ok), hello, s.calls⟩
      (l.pass (Owner.parkedBy ref (s.server.parkKey ref))) := by
  obtain ⟨-, hst, -, hnext, -⟩ := s.server.evict_frame store ran
  obtain ⟨hbyID, hev⟩ := s.server.store.evicts_park now later (s.server.sessionAt ref).tenant
    (s.server.sessionAt ref).sessionID receivers onEvict
  rw [hpark] at hbyID hev
  refine h.pass (fun _ => rfl) (fun _ hne => if_neg hne) hnext
    (fun _ _ => Server.attached_evict ..) (phaseSound_of_nil _ _ rfl rfl) ?_
  intro k q hq
  rw [hst, hbyID] at hq
  rcases lookup_insert_eq_some_iff.mp hq with ⟨rfl, rfl⟩ | ⟨-, hold⟩
  · -- The new entry: what the phase was about to park.
    have hp := h.phase ref
    rw [hphase] at hp
    exact ⟨fun n r hr => ⟨ref, Ledger.pass_owner (hp.receivers _ rfl n r hr) (if_pos rfl)⟩,
      fun x hx => ⟨ref, Ledger.pass_owner (hp.onEvict _ rfl x hx) (if_pos rfl)⟩⟩
  · -- Another key: the park passes nothing on under it.
    have hsound := h.stored k q (hev.sub k q hold)
    exact ⟨fun n r hr => (hsound.receivers n r hr).imp (fun _ ho => Ledger.pass_owner ho rfl),
      fun x hx => (hsound.onEvict x hx).imp (fun _ ho => Ledger.pass_owner ho rfl)⟩

theorem grant_born (l : Ledger) (o : Owner) (lo hi : ReceiverId) (r : ReceiverId) (o' : Owner)
    (h : (l.grant o lo hi).owner r = some o') : l.owner r = some o' ∨ r < hi := by
  simp only [Ledger.grant] at h
  split at h
  · next hrange => exact .inr hrange.2
  · exact .inl h

theorem Sound.subscribed (h : Sound s l) {greeting}
    (hnamed : ∀ n t, s.server.tracks.lookup n = some t → t.name = n) :
    Sound (s.snapshotTaken ref hello greeting)
      { l.grant (.active ref) s.server.nextReceiver s.server.onFreshSession.2.nextReceiver with
        fresh := ref :: l.fresh } := by
  have hsub := Server.subscribedAll_onFreshSession hnamed
  have hold := h.grant_owner (.active ref) s.server.onFreshSession.2.nextReceiver
  refine h.mono hsub.fresh hold (grant_born l _ _ _) ?_ (fun _ _ _ _ => .inl)
    (h.phase_update hold ⟨fun e he => ?_, nofun, nofun⟩)
    (hsub.store ▸ Sub.refl _)
  · intro ref' n r hr
    rw [Server.attached, hsub.sessionAt] at hr
    exact .inl hr
  · -- Everything the loop put in its map was created by it.
    obtain ⟨-, hlo, hhi⟩ := hsub.new e.1 e.2 (mem_entries_iff.mp he)
    exact l.grant_owner_of_mem _ hlo hhi

theorem Sound.held (h : Sound s l) {ok tracks todo t receivers onEvict}
    (hphase : s.phase ref = .holding ok tracks (t :: todo) receivers onEvict) :
    Sound (s.oneHeld ref hello ok tracks todo t receivers onEvict)
      (l.grant (.parking ref) s.server.nextReceiver (s.server.nextReceiver + 1)) := by
  have hold := h.grant_owner (.parking ref) (s.server.nextReceiver + 1)
  have hnew := l.grant_owner_of_mem (.parking ref) (le_refl s.server.nextReceiver)
    (Nat.lt_succ_self _)
  have hp := h.phase ref
  rw [hphase] at hp
  refine h.mono (Nat.le_succ _) hold (grant_born l _ _ _) (fun _ _ _ => .inl) (fun _ _ _ _ => .inl)
    (h.phase_update hold ⟨nofun, fun x hx n r hr => ?_, fun x hx y hy => ?_⟩) (Sub.refl _)
  · -- One more name in what will be parked.
    cases hx
    rcases lookup_insert_eq_some_iff.mp hr with ⟨-, rfl⟩ | ⟨-, hr⟩
    · exact hnew
    · exact hold _ _ (hp.receivers _ rfl n r hr)
  · cases hx
    rcases mem_snoc hy with hy | rfl
    · exact hold _ _ (hp.onEvict _ rfl y hy)
    · exact hnew

theorem Sound.turnSubscribed (h : Sound s l) {b n kind priority trackID refs} :
    Sound (s.turnSubscribed ref i b n kind priority trackID refs)
      (l.grant (.active ref) s.server.nextReceiver (s.server.nextReceiver + 1)) := by
  have hold := h.grant_owner (.active ref) (s.server.nextReceiver + 1)
  refine h.mono (Nat.le_succ _) hold (grant_born l _ _ _) (fun _ _ _ => .inl) ?_
    (fun ref' => (h.phase ref').mono hold) (Sub.refl _)
  intro b' n' r ref' ⟨c, hc, hcar⟩
  have hc : c ∈ put s.calls i (some _) := hc
  rcases mem_of_mem_put hc with hmem | hnew
  · exact .inl ⟨c, hmem, hcar⟩
  · cases hnew
    cases hcar
    exact .inr (l.grant_owner_of_mem _ (le_refl _) (Nat.lt_succ_self _))

theorem carries_put {c} (rest : Option Call) (hcall : s.calls[i]? = some c) (hc : c.carried = none)
    (hcalls : s'.calls = Slots.put s.calls i rest) (b : BroadcasterId) (n : GoString)
    (r : ReceiverId) (ref : SessionRef) (h : s.Carries b n r ref) : s'.Carries b n r ref := by
  rw [Carries, hcalls]
  refine exists_put hcall (fun hcar => ?_) h
  rw [hc] at hcar
  cases hcar

theorem carries_of_put {c} (rest : Option Call) (hcall : s.calls[i]? = some c)
    (hrest : ∀ c' ∈ rest, c'.carried = none) (hcalls : s'.calls = Slots.put s.calls i rest)
    (b : BroadcasterId) (n : GoString) (r : ReceiverId) (ref : SessionRef)
    (h : s'.Carries b n r ref) : s.Carries b n r ref := by
  rw [Carries, hcalls] at h
  refine exists_of_put hcall (fun c' hc' hcar => ?_) h
  rw [hrest c' hc'] at hcar
  cases hcar

theorem attached_or_owner {name kind r priority trackID} (hr : l.owner r = some (.active ref))
    (ref' : SessionRef) (n : GoString) (q : ReceiverId) (hq : (s.server.onSession ref (fun sess =>
      sess.attachTrackWithKind name kind r priority trackID)).attached ref' n = some q) :
    s.server.attached ref' n = some q ∨ l.owner q = some (.active ref') := by
  rw [Server.attached_attach] at hq
  split at hq
  · next heq =>
    obtain ⟨rfl, rfl⟩ := heq
    cases hold : s.server.attached ref' n with
    -- The name was taken: nothing was attached.
    | some q' =>
      rw [hold] at hq
      exact .inl hq
    | none =>
      rw [hold] at hq
      cases hq
      exact .inr hr
  · exact .inl hq

theorem Sound.step (h : Sound s l) {ev} (heff : Effect s l ev s' l')
    (hnamed : ∀ n t, s.server.tracks.lookup n = some t → t.name = n) : Sound s' l' := by
  cases heff with
  | connected =>
    refine h.session rfl (fun ref n r hr => ?_) (Sub.refl _) (phaseSound_of_nil _ _ rfl rfl)
    rw [Server.attached_addSession] at hr
    split at hr
    · cases hr
    · exact .inl hr
  | evicted hstore hserver hphase hcalls => exact h.evicted hstore hserver hphase hcalls
  | resumed hphase hstore hentry hserver => exact h.resumed hstore hentry hserver
  | subscribed => exact h.subscribed hnamed
  | @attached ref _ _ n r _ _ _ _ _ hphase =>
    have hp := h.phase ref
    rw [hphase] at hp
    refine h.session rfl (attached_or_owner (hp.todo ⟨n, r⟩ mem_cons_self)) (Sub.refl _) ?_
    exact ⟨fun e he => hp.todo e (mem_cons_of_mem _ he), (fun _ h => by cases h),
      (fun _ h => by cases h)⟩
  | snapped | removed =>
    exact h.session rfl (fun _ _ _ => .inl) (Sub.refl _) (phaseSound_of_nil _ _ rfl rfl)
  | decided =>
    refine h.session rfl (fun _ _ _ => .inl) (Sub.refl _) ⟨(fun _ h => by cases h), ?_, ?_⟩
    · intro x hx n r hr
      cases hx
      cases hr
    · intro x hx y hy
      cases hx
      cases hy
  | held hphase => exact h.held hphase
  | @released ref ok t _ _ _ hphase =>
    obtain ⟨-, hst, hat, hnext, -⟩ := s.server.unsubscribeAll_frame (s.server.activeReceivers ref [t])
    have hp := h.phase ref
    rw [hphase] at hp
    refine h.session hnext (fun ref' n r hr => ?_) (hst ▸ Sub.refl _)
      ⟨(fun _ h => by cases h), hp.receivers, hp.onEvict⟩
    rw [Server.attached, hat] at hr
    exact .inl hr
  | parked hphase hpark => exact h.parked hphase hpark
  | @registered spec hnew =>
    obtain ⟨bc, recorders, -, hreg⟩ := Server.registerTrack_of_none hnew (Server.specKind spec)
      (Server.specPriority spec) spec.trackID
    refine h.frame (by rw [hreg]) (fun _ _ _ hr => .inl (by rwa [hreg] at hr)) ?_ h.phase
      (by rw [hreg]; exact Sub.refl _)
    exact fun b n r ref hcar => (exists_snoc_iff.mp hcar).resolve_right (fun h => by cases h)
  | unregistered hold =>
    refine h.frame rfl (fun _ _ _ => .inl) ?_ h.phase (Sub.refl _)
    exact fun b n r ref hcar => (exists_snoc_iff.mp hcar).resolve_right (fun h => by cases h)
  | turnSubscribed => exact h.turnSubscribed
  | @turnAttached i accepted b n kind priority trackID r ref refs hcall =>
    have hr : l.owner r = some (.active ref) :=
      h.carried b n r ref ⟨_, mem_of_getElem? hcall, rfl⟩
    refine h.frame rfl (attached_or_owner hr) ?_ h.phase (Sub.refl _)
    exact carries_of_put (some _) hcall (fun c' hc' => by cases hc'; rfl) rfl
  | turnDetached hcall =>
    refine h.frame rfl ?_ ?_ h.phase (Sub.refl _)
    · intro ref' n r hr
      rw [Server.attached_detach] at hr
      split at hr
      · cases hr
      · exact .inl hr
    · exact carries_of_put (some _) hcall (fun c' hc' => by cases hc'; rfl) rfl
  | turnClosed hcall =>
    refine h.frame rfl (fun _ _ _ => .inl) ?_ h.phase (Sub.refl _)
    exact carries_of_put none hcall (by simp) rfl

end Sound

/-! ## Names and identities -/

/-- It has been created, and serves no other name. -/
def Serves (s : Server) (b : BroadcasterId) (n : GoString) : Prop :=
  b < s.nextBroadcaster ∧ ∀ n' t, s.tracks.lookup n' = some t → t.bc = b → n' = n

def Retired (s : Server) (b : BroadcasterId) : Prop :=
  b < s.nextBroadcaster ∧ ∀ n t, s.tracks.lookup n = some t → t.bc ≠ b

section Names

variable {s s' : Server} {b : BroadcasterId} {n name : GoString} {t : TrackEntry}

/-- Only new receivers are listed where they were not. -/
structure Steady (s s' : Server) : Prop where
  tracks : s'.tracks = s.tracks
  nextBroadcaster : s'.nextBroadcaster = s.nextBroadcaster
  nextSession : s'.nextSession = s.nextSession
  nextReceiver : s.nextReceiver ≤ s'.nextReceiver
  listed : ∀ b, ∀ r ∈ s'.listed b, r ∈ s.listed b ∨ r < s'.nextReceiver

theorem Steady.refl (s : Server) : Steady s s := ⟨rfl, rfl, rfl, le_rfl, fun _ _ => .inl⟩

theorem Steady.same {s''} (h : Steady s s') (hq : s'.SameHoldings s'') : Steady s s'' where
  tracks := hq.tracks.trans h.tracks
  nextBroadcaster := hq.nextBroadcaster.trans h.nextBroadcaster
  nextSession := hq.nextSession.trans h.nextSession
  nextReceiver := h.nextReceiver.trans_eq hq.nextReceiver.symm
  listed := by
    rw [hq.nextReceiver]
    exact fun b r hr => h.listed b r (hq.listed b ▸ hr)

theorem steady_evict (s : Server) (store : MemorySessionStore) (ran : List OnEvict) :
    Steady s (s.evict store ran) := by
  obtain ⟨htr, -, -, hnext, hbc⟩ := s.evict_frame store ran
  exact ⟨htr, hbc, (s.sameSessions_evict store ran).nextSession, hnext.ge,
    fun b r hr => .inl ((s.mem_listed_evict _ _).mp hr).1⟩

theorem steady_unsubscribeAll (s : Server) (pairs : List (BroadcasterId × ReceiverId)) :
    Steady s (s.unsubscribeAll pairs) := by
  obtain ⟨htr, -, -, hnext, hbc⟩ := s.unsubscribeAll_frame pairs
  exact ⟨htr, hbc, (s.sameSessions_unsubscribeAll pairs).nextSession, hnext.ge,
    fun b r hr => .inl ((s.mem_listed_unsubscribeAll _).mp hr).1⟩

theorem steady_subscribe (s : Server) (b : BroadcasterId) (size : PubSub → Nat) :
    Steady s (s.onBroadcaster b (fun ps => ps.subscribeWithCap (size ps))) := by
  refine ⟨rfl, rfl, rfl, Nat.le_succ _, fun b' r hr => ?_⟩
  rcases (s.mem_listed_subscribe b size).mp hr with hold | ⟨-, rfl⟩
  · exact .inl hold
  · exact .inr (Nat.lt_succ_self _)

theorem steady_onFreshSession (hnamed : ∀ n t, s.tracks.lookup n = some t → t.name = n) :
    Steady s s.onFreshSession.2 := by
  have hsub := Server.subscribedAll_onFreshSession hnamed
  refine ⟨hsub.tracks, hsub.nextBroadcaster, hsub.nextSession, hsub.fresh, fun b r hr => ?_⟩
  rcases (hsub.listed b r).mp hr with hold | ⟨t, -, -, hm⟩
  · exact .inl hold
  · exact .inr (hsub.new _ _ hm).2.2

theorem Steady.serves (hs : Steady s s') (b : BroadcasterId) (n : GoString) (h : Serves s b n) :
    Serves s' b n := by
  rw [Serves, hs.tracks, hs.nextBroadcaster]
  exact h

theorem Steady.retired (hs : Steady s s') (h : Retired s b) : Retired s' b := by
  rw [Retired, hs.tracks, hs.nextBroadcaster]
  exact h

section Insert

variable (htracks : s'.tracks = s.tracks.insert name t)
  (hbc : s'.nextBroadcaster = s.nextBroadcaster + 1) (ht : t.bc = s.nextBroadcaster)

include htracks ht

theorem lookup_of_insert (hlt : b < s.nextBroadcaster) {n' t'}
    (ht' : s'.tracks.lookup n' = some t') (hb : t'.bc = b) : s.tracks.lookup n' = some t' := by
  rw [htracks] at ht'
  rcases lookup_insert_eq_some_iff.mp ht' with ⟨-, rfl⟩ | ⟨-, hold⟩
  · exact absurd (hb.symm.trans ht) (Nat.ne_of_lt hlt)
  · exact hold

include hbc

theorem Serves.insert (h : Serves s b n) : Serves s' b n :=
  ⟨hbc ▸ Nat.lt_succ_of_lt h.1,
    fun n' t' ht' hb => h.2 n' t' (lookup_of_insert htracks ht h.1 ht' hb) hb⟩

theorem Retired.insert (h : Retired s b) : Retired s' b :=
  ⟨hbc ▸ Nat.lt_succ_of_lt h.1,
    fun n' t' ht' hb => h.2 n' t' (lookup_of_insert htracks ht h.1 ht' hb) hb⟩

end Insert

theorem Serves.erase (h : Serves s b n) (name : GoString) :
    Serves { s with tracks := s.tracks.erase name } b n :=
  ⟨h.1, fun n' t ht => h.2 n' t (lookup_erase_eq_some_iff.mp ht).2⟩

theorem Retired.erase (h : Retired s b) (name : GoString) :
    Retired { s with tracks := s.tracks.erase name } b :=
  ⟨h.1, fun n' t ht => h.2 n' t (lookup_erase_eq_some_iff.mp ht).2⟩

theorem serves_of_lookup (h : s.TableOK) (ht : s.tracks.lookup n = some t) : Serves s t.bc n :=
  ⟨h.known n t ht, fun n' t' ht' hb => h.distinct n' n t' t ht' ht hb⟩

end Names

/-- Names, broadcasters, receivers and sessions are used once. -/
structure Tidy (s : Concurrent) : Prop where
  table : s.server.TableOK
  born : ∀ b, ∀ r ∈ s.server.listed b, r < s.server.nextReceiver
  unborn : ∀ ref, s.server.nextSession ≤ ref → s.phase ref = .idle
  serves : ∀ b n ref, s.WillSubscribe b n ref → Serves s.server b n
  retired : ∀ b, s.WillClose b → Retired s.server b

section Tidy

variable {s s' : Concurrent} {l l' : Ledger}

theorem Tidy.frame (h : Tidy s) (hst : Steady s.server s'.server)
    (hunborn : ∀ ref, s.phase ref = .idle → s'.phase ref = .idle)
    (hsub : ∀ b n ref, s'.WillSubscribe b n ref → s.WillSubscribe b n ref)
    (hclose : ∀ b, s'.WillClose b → s.WillClose b) : Tidy s' where
  table := ⟨hst.tracks ▸ h.table.named, hst.tracks ▸ hst.nextBroadcaster ▸ h.table.known,
    hst.tracks ▸ h.table.distinct⟩
  born := fun b r hr =>
    (hst.listed b r hr).elim (fun hr => (h.born b r hr).trans_le hst.nextReceiver) id
  unborn := fun ref hle => hunborn ref (h.unborn ref (hst.nextSession ▸ hle))
  serves := fun b n ref hs => hst.serves b n (h.serves b n ref (hsub b n ref hs))
  retired := fun b hs => hst.retired (h.retired b (hclose b hs))

theorem Tidy.session (h : Tidy s) {ref p p'} (hp : s.phase ref = p) (hborn : p ≠ .idle) {server}
    {hello : SessionRef → Option Hello} (hst : Steady s.server server) :
    Tidy ⟨server, update s.phase ref p', hello, s.calls⟩ := by
  refine h.frame hst (fun ref' hidle => ?_) (fun _ _ _ => id) (fun _ => id)
  have hne : ref' ≠ ref := by
    -- A session that takes a step is not idle.
    rintro rfl
    exact hborn (hp.symm.trans hidle)
  exact (update_of_ne hne ..).trans hidle

variable {c : Call} {i : Nat}

theorem willSubscribe_of_put (rest : Option Call) (hcall : s.calls[i]? = some c)
    (hrest : ∀ c' ∈ rest, ∀ x ∈ c'.subscribes, x ∈ c.subscribes)
    (hcalls : s'.calls = Slots.put s.calls i rest) (b : BroadcasterId) (n : GoString)
    (ref : SessionRef) (h : s'.WillSubscribe b n ref) : s.WillSubscribe b n ref := by
  rw [WillSubscribe, hcalls] at h
  exact exists_of_put hcall (fun c' hc' hx => hrest c' hc' _ hx) h

theorem willClose_of_put (rest : Option Call) (hcall : s.calls[i]? = some c)
    (hrest : ∀ c' ∈ rest, c'.closes = c.closes) (hcalls : s'.calls = Slots.put s.calls i rest)
    (b : BroadcasterId) (h : s'.WillClose b) : s.WillClose b := by
  rw [WillClose, hcalls] at h
  exact exists_of_put hcall (fun c' hc' hx => (hrest c' hc').symm.trans hx) h

theorem Tidy.turn (h : Tidy s) (c' : Call) {server} (hcall : s.calls[i]? = some c)
    (hsub : ∀ x ∈ c'.subscribes, x ∈ c.subscribes) (hclose : c'.closes = c.closes)
    (hst : Steady s.server server) :
    Tidy { s with server := server, calls := Slots.put s.calls i (some c') } := by
  refine h.frame hst (fun _ => id) (willSubscribe_of_put (some c') hcall ?_ rfl)
    (willClose_of_put (some c') hcall ?_ rfl)
  · rintro _ ⟨⟩
    exact hsub
  · rintro _ ⟨⟩
    exact hclose

theorem Tidy.registered (h : Tidy s) {spec : TrackSpec}
    (hnew : s.server.tracks.lookup spec.name = none) :
    Tidy { s with
      server := (s.server.registerTrack spec.name (Server.specKind spec)
        (Server.specPriority spec) spec.trackID).1
      calls := s.calls ++ [.adding s.server.nextBroadcaster spec.name (Server.specKind spec)
        (Server.specPriority spec) spec.trackID s.server.sessions] } := by
  have hlisted := Server.listed_registerTrack hnew (Server.specKind spec)
    (Server.specPriority spec) spec.trackID
  obtain ⟨bc, recorders, -, hreg⟩ := Server.registerTrack_of_none hnew (Server.specKind spec)
    (Server.specPriority spec) spec.trackID
  rw [hreg] at hlisted ⊢
  have htable := h.table.insert spec.name (t := ⟨spec.name, Server.specKind spec,
    Server.specPriority spec, spec.trackID, s.server.nextBroadcaster⟩) rfl rfl
  refine ⟨{ htable with }, ?_, h.unborn, ?_, ?_⟩
  · intro b r hr
    rw [hlisted] at hr
    split at hr
    · cases hr
    · exact h.born b r hr
  · intro b n ref hw
    rcases exists_snoc_iff.mp hw with hw | hx
    · -- Older calls subscribe on older broadcasters.
      exact (h.serves b n ref hw).insert rfl rfl rfl
    · -- The new call subscribes on the new one, for its own name.
      obtain ⟨ref', -, heq⟩ := mem_map.mp hx
      cases heq
      exact serves_of_lookup { htable with }
        (AList.lookup_insert s.server.tracks)
  · intro b hw
    exact (h.retired b ((exists_snoc_iff.mp hw).resolve_right nofun)).insert rfl rfl rfl

theorem Tidy.unregistered (h : Tidy s) {name t} (hold : s.server.tracks.lookup name = some t) :
    Tidy { s with
      server := { s.server with tracks := s.server.tracks.erase name }
      calls := s.calls ++ [.removing t s.server.sessions] } := by
  have htable := h.table.erase name
  refine ⟨{ htable with }, h.born, h.unborn, ?_, ?_⟩
  · intro b n ref hw
    exact (h.serves b n ref ((exists_snoc_iff.mp hw).resolve_right nofun)).erase name
  · intro b hw
    rcases exists_snoc_iff.mp hw with hw | hx
    · exact (h.retired b hw).erase name
    · cases hx
      -- No other name has the broadcaster that is about to be closed.
      refine ⟨h.table.known name t hold, fun n t' ht' heq => ?_⟩
      obtain ⟨hne, ht'⟩ := lookup_erase_eq_some_iff.mp ht'
      exact hne (h.table.distinct n name t' t ht' hold heq)

theorem Tidy.step (h : Tidy s) {ev} (heff : Effect s l ev s' l') : Tidy s' := by
  cases heff with
  | connected =>
    refine ⟨{ h.table with }, h.born, fun ref hle => ?_, h.serves, h.retired⟩
    have hne : ref ≠ s.server.nextSession := Nat.ne_of_gt hle
    show update s.phase s.server.nextSession .waiting ref = .idle
    rw [update_of_ne hne]
    exact h.unborn ref (Nat.le_of_succ_le hle)
  | evicted hstore hserver hphase hcalls =>
    exact h.frame ((steady_evict ..).same hserver) (fun ref => (hphase ref).idle)
      (fun b n ref => (hcalls.subscribe b n ref).mp) hcalls.close
  | resumed hphase hstore hentry hserver =>
    exact h.session hphase (by simp) ((steady_evict ..).same hserver)
  | subscribed hphase => exact h.session hphase (by simp) (steady_onFreshSession h.table.named)
  | attached hphase | snapped hphase | decided hphase | removed hphase =>
    exact h.session hphase (by simp) { Steady.refl s.server with }
  | held hphase => exact h.session hphase (by simp) (steady_subscribe ..)
  | released hphase => exact h.session hphase (by simp) (steady_unsubscribeAll ..)
  | parked hphase => exact h.session hphase (by simp) (steady_evict ..)
  | registered hnew => exact h.registered hnew
  | unregistered hold => exact h.unregistered hold
  | @turnSubscribed i accepted b n kind priority trackID ref refs hcall =>
    exact h.turn _ hcall (fun _ => mem_cons_of_mem _) rfl
      (steady_subscribe _ b (fun ps => ps.bc.chanSize))
  | turnAttached hcall => exact h.turn _ hcall (fun _ => id) rfl { Steady.refl s.server with }
  | turnDetached hcall =>
    exact h.turn _ hcall (fun _ hx => by cases hx) rfl { Steady.refl s.server with }
  | turnClosed hcall =>
    refine h.frame { Steady.refl s.server with listed := fun b r hr => ?_ } (fun _ => id)
      (willSubscribe_of_put none hcall (by simp) rfl) (willClose_of_put none hcall (by simp) rfl)
    rw [Server.listed_close] at hr
    split at hr
    · cases hr
    · exact .inl hr

end Tidy

theorem tidy_start (codec : Codec) (cfg : ServerConfig) (resumeWindow : Int) :
    Tidy (start codec cfg resumeWindow) where
  table := (Server.wf_newServer codec cfg resumeWindow).toTableOK
  born := (Server.wf_newServer codec cfg resumeWindow).born
  unborn := fun _ _ => rfl
  serves := fun _ _ _ ⟨_, hc, _⟩ => absurd hc not_mem_nil
  retired := fun _ ⟨_, hc, _⟩ => absurd hc not_mem_nil

theorem sound_of_reachable {codec cfg resumeWindow} :
    ∀ x, LTS.Reachable (ledgerSystem codec cfg resumeWindow) x → Tidy x.1 ∧ Sound x.1 x.2 := by
  refine LTS.invariant_ofFun _ ⟨tidy_start codec cfg resumeWindow, nofun, nofun, ?_,
    fun _ => phaseSound_of_nil _ _ rfl rfl, nofun⟩ ?_
  · rintro _ _ _ _ ⟨_, hc, _⟩
    cases hc
  intro x ev x' _ ⟨htidy, hsound⟩ hstep
  have heff := effect_of_step hstep
  exact ⟨htidy.step heff, hsound.step heff htidy.table.named⟩

end Concurrent

end QuicRTC

import QuicRTC.Server.Leaks

/-! # Convergence of the Track Tables

`AddTrackSpec` and `RemoveTrack` change the server's table under its lock and the sessions
afterwards, one by one and by name.

Every step that meets `inOrder` keeps `Converging`: every current track is attached to the session
or on its way to it, and whatever else is attached will be detached.
-/

namespace QuicRTC

open Wire LTS Function List Option Slots GoMap

namespace Concurrent

open MemorySessionStore

/-! ## The condition -/

def isCurrent (s : Concurrent) (n : GoString) (r : ReceiverId) : Bool :=
  (s.server.tracks.lookup n).any (fun t => (s.server.listed t.bc).contains r)

/-- A `RemoveTrack` has yet to detach the name. -/
def detachPending (s : Concurrent) (n : GoString) (ref : SessionRef) : Bool :=
  s.calls.any (fun c => c.detaches.contains (n, ref))

/-- A receiver of the current track finds no other in its place; any other finds it taken,
    or will be detached. -/
def attachable (s : Concurrent) (ref : SessionRef) (n : GoString) (r : ReceiverId) : Bool :=
  if s.isCurrent n r then (s.server.attached ref n).all (s.isCurrent n)
  else (s.server.attached ref n).isSome || s.detachPending n ref

/-- No attach and no detach on the session comes at the wrong time. -/
def inOrder (s : Concurrent) (ref : SessionRef) : Event → Bool
  | .session ref' .attach =>
    match s.phase ref' with
    | .attaching _ _ (e :: _) => ref' != ref || s.attachable ref e.1 e.2
    | _ => true
  | .turn i _ =>
    match s.calls[i]? with
    | some (.attaching _ n _ _ _ r (ref' :: _)) => ref' != ref || s.attachable ref n r
    | some (.removing t (ref' :: _)) => ref' != ref || s.detachable ref t.name
    | _ => true
  | _ => true

def isConnected (s : Concurrent) (ref : SessionRef) : Bool :=
  match s.phase ref with
  | .answered => true
  | .running => true
  | _ => false

variable {s : Concurrent} {n : GoString} {ref : SessionRef}

theorem isCurrent_iff {r} :
    s.isCurrent n r = true ↔
      ∃ t, s.server.tracks.lookup n = some t ∧ r ∈ s.server.listed t.bc := by
  simp [isCurrent, Option.any_eq_true]

theorem detachPending_iff : s.detachPending n ref = true ↔ s.WillDetach n ref := by
  simp [detachPending, WillDetach]

theorem detachable_iff :
    s.detachable ref n = true ↔
      ∀ r, s.server.attached ref n = some r → s.isCurrent n r = false := by
  unfold detachable isCurrent
  cases s.server.attached ref n with
  | none => simp
  | some r => cases s.server.tracks.lookup n <;> simp

theorem isConnected_iff :
    s.isConnected ref = true ↔ s.phase ref = .answered ∨ s.phase ref = .running := by
  unfold isConnected
  cases s.phase ref <;> simp

/-! ## Receivers of open sessions -/

section Step

variable {s s' : Concurrent} {l l' : Ledger} {ev : Event} {ref : SessionRef} {r : ReceiverId}

theorem stored_of_evicted (hsound : Sound s l) {m' ran} (hstore : Evicts s.server.store.byID m' ran)
    {b} (h : (b, r) ∈ ran.flatten) : ∃ ref key, l.owner r = some (.stored ref key) := by
  obtain ⟨ev, hev, hpair⟩ := mem_flatten.mp h
  obtain ⟨key, p, hp, -, rfl⟩ := hstore.mem_ran hev
  obtain ⟨ref, ho⟩ := (hsound.stored key p hp).onEvict _ hpair
  exact ⟨ref, key, ho⟩

theorem listed_evict_of_active (hsound : Sound s l) {store m' ran}
    (hstore : Evicts s.server.store.byID m' ran) {b} (hr : r ∈ s.server.listed b)
    (ho : l.owner r = some (.active ref)) : r ∈ (s.server.evict store ran).listed b := by
  refine (s.server.mem_listed_evict store ran).mpr ⟨hr, fun hran => ?_⟩
  obtain ⟨ref', key, ho'⟩ := stored_of_evicted hsound hstore hran
  rw [ho] at ho'
  cases ho'

section Kept

variable (htidy : Tidy s) (hsound : Sound s l) (heff : Effect s l ev s' l')
  (hopen : (s.phase ref).isOpen = true)

include htidy hsound heff hopen

theorem listed_kept {n t} (ht : s.server.tracks.lookup n = some t)
    (hr : r ∈ s.server.listed t.bc) (ho : l.owner r = some (.active ref)) :
    r ∈ s'.server.listed t.bc := by
  cases heff with
  | evicted hstore hserver | resumed hphase hstore hentry hserver =>
    rw [hserver.listed]
    exact listed_evict_of_active hsound hstore hr ho
  | subscribed =>
    have hsub := Server.subscribedAll_onFreshSession htidy.table.named
    exact (hsub.listed t.bc r).mpr (.inl hr)
  | held =>
    exact (s.server.mem_listed_subscribe _ (fun ps => ps.bc.capacityFor parkedChanCap)).mpr (.inl hr)
  | @released ref' _ t' _ _ _ hphase =>
    refine (s.server.mem_listed_unsubscribeAll _).mpr ⟨hr, fun hmem => ?_⟩
    -- It would be attached to the session that ends.
    have ho' := hsound.attached ref' t'.name r (Server.mem_activeReceivers.mp hmem).2
    rw [ho] at ho'
    cases ho'
    rw [hphase] at hopen
    cases hopen
  | @parked ref' _ receivers onEvict now later _ _ _ hphase hpark =>
    have hev := (s.server.store.evicts_park now later (s.server.sessionAt ref').tenant
      (s.server.sessionAt ref').sessionID receivers onEvict).2
    rw [hpark] at hev
    exact listed_evict_of_active hsound hev hr ho
  | registered hnew =>
    have hne : t.bc ≠ s.server.nextBroadcaster := Nat.ne_of_lt (htidy.table.known n t ht)
    rw [Server.listed_registerTrack hnew, if_neg hne]
    exact hr
  | @turnSubscribed i accepted b _ _ _ _ _ _ hcall =>
    exact (s.server.mem_listed_subscribe b (fun ps => ps.bc.chanSize)).mpr (.inl hr)
  | @turnClosed i accepted t' hcall =>
    have hret := htidy.retired t'.bc ⟨_, mem_of_getElem? hcall, rfl⟩
    rw [Server.listed_close, if_neg (hret.2 n t ht)]
    exact hr
  | _ => exact hr

theorem isCurrent_kept {n} (hcur : s.isCurrent n r = true) (ho : l.owner r = some (.active ref))
    (htracks : s'.server.tracks.lookup n = s.server.tracks.lookup n) : s'.isCurrent n r = true := by
  obtain ⟨t, ht, hr⟩ := isCurrent_iff.mp hcur
  exact isCurrent_iff.mpr ⟨t, htracks.trans ht, listed_kept htidy hsound heff hopen ht hr ho⟩

end Kept

theorem sessions_step (htidy : Tidy s) (heff : Effect s l ev s' l') :
    s.server.nextSession ≤ s'.server.nextSession ∧
      ∀ ref, (s.phase ref).isOpen = true → ref ∈ s.server.sessions → ref ∈ s'.server.sessions := by
  have hsame : ∀ {server : Server}, server.sessions = s.server.sessions →
      server.nextSession = s.server.nextSession → s.server.nextSession ≤ server.nextSession ∧
        ∀ ref, (s.phase ref).isOpen = true → ref ∈ s.server.sessions → ref ∈ server.sessions :=
    fun hsessions hnext => ⟨hnext.ge, fun _ _ h => hsessions ▸ h⟩
  cases heff with
  | connected => exact ⟨Nat.le_succ _, fun _ _ => mem_append_left _⟩
  | evicted hstore hserver | resumed hphase hstore hentry hserver =>
    exact hsame (hserver.sessions.trans (Server.sameSessions_evict ..).sessions)
      (hserver.nextSession.trans (Server.sameSessions_evict ..).nextSession)
  | subscribed =>
    have hsub := Server.subscribedAll_onFreshSession htidy.table.named
    exact hsame hsub.sessions hsub.nextSession
  | released =>
    exact hsame (Server.sameSessions_unsubscribeAll ..).sessions
      (Server.sameSessions_unsubscribeAll ..).nextSession
  | parked =>
    exact hsame (Server.sameSessions_evict ..).sessions (Server.sameSessions_evict ..).nextSession
  | removed hphase =>
    refine ⟨le_rfl, fun ref hopen h => mem_filter.mpr ⟨h, decide_eq_true ?_⟩⟩
    -- The session that leaves is not open.
    rintro rfl
    rw [hphase] at hopen
    cases hopen
  | @registered spec hnew =>
    obtain ⟨bc, recorders, -, hreg⟩ := Server.registerTrack_of_none hnew (Server.specKind spec)
      (Server.specPriority spec) spec.trackID
    exact hsame (by rw [hreg]) (by rw [hreg])
  | _ => exact hsame rfl rfl

theorem open_of_update {ref' p p'} (hphase : s.phase ref' = p)
    (hopen : (update s.phase ref' p' ref).isOpen = true) (hp : p'.isOpen = true → p.isOpen = true) :
    (s.phase ref).isOpen = true := by
  by_cases href : ref = ref'
  · subst href
    rw [update_self] at hopen
    rw [hphase]
    exact hp hopen
  · rwa [update_of_ne href] at hopen

theorem open_step (heff : Effect s l ev s' l') (hopen : (s'.phase ref).isOpen = true) :
    (s.phase ref).isOpen = true ∨ ref = s.server.nextSession ∧ s'.server = s.server.addSession := by
  cases heff with
  | connected =>
    by_cases href : ref = s.server.nextSession
    · exact .inr ⟨href, rfl⟩
    · have hsame : (update s.phase s.server.nextSession Phase.waiting) ref = s.phase ref :=
        update_of_ne href _ _
      exact .inl (hsame ▸ hopen)
  | evicted hstore hserver hphase => exact .inl ((hphase ref).isOpen hopen)
  | resumed hphase | subscribed hphase | attached hphase =>
    exact .inl (open_of_update hphase hopen (fun _ => rfl))
  | snapped hphase | decided hphase | held hphase | released hphase | parked hphase
  | removed hphase => exact .inl (open_of_update hphase hopen id)
  | _ => exact .inl hopen

theorem fresh_step (heff : Effect s l ev s' l') (hfresh : ref ∈ l'.fresh) :
    ref ∈ l.fresh ∨ ∃ greeting, s.phase ref = .subscribing greeting := by
  cases heff with
  | subscribed hphase =>
    rcases mem_cons.mp hfresh with rfl | hold
    · exact .inr ⟨_, hphase⟩
    · exact .inl hold
  | _ => exact .inl hfresh

end Step

/-! ## The invariant -/

def Obtains (s : Concurrent) (ref : SessionRef) (n : GoString) (b : BroadcasterId)
    (r : ReceiverId) : Prop :=
  s.server.attached ref n = some r ∨ ⟨n, r⟩ ∈ (s.phase ref).todo ∨ s.Carries b n r ref

def Served (s : Concurrent) (ref : SessionRef) (n : GoString) (b : BroadcasterId) : Prop :=
  (∃ r ∈ s.server.listed b, s.Obtains ref n b r) ∨ s.WillSubscribe b n ref

structure Converging (s : Concurrent) (l : Ledger) (ref : SessionRef) : Prop where
  registered : (s.phase ref).isOpen = true → ref ∈ s.server.sessions
  born : ref ∈ l.fresh → ref < s.server.nextSession
  served : ref ∈ l.fresh → (s.phase ref).isOpen = true →
                 ∀ n t, s.server.tracks.lookup n = some t → s.Served ref n t.bc
  attached : (s.phase ref).isOpen = true → ∀ n r, s.server.attached ref n = some r →
                 s.isCurrent n r = true ∨ s.WillDetach n ref

section Converge

variable {s s' : Concurrent} {l l' : Ledger} {ev : Event} {ref : SessionRef} {n : GoString}
  {t : TrackEntry}

variable {b : BroadcasterId} {c : Call} {name : GoString} {kind : Kind} {refs : List SessionRef}
  {i : Nat} {q r : ReceiverId} {ref' : SessionRef} {priority trackID : UInt8}

theorem Obtains.owner (hsound : Sound s l)
    (h : s.Obtains ref n b r) : l.owner r = some (.active ref) := by
  rcases h with h | h | h
  · exact hsound.attached ref n r h
  · exact (hsound.phase ref).todo _ h
  · exact hsound.carried b n r ref h

section Frame

variable (h : s.Served ref n t.bc) (htidy : Tidy s) (hsound : Sound s l)
  (heff : Effect s l ev s' l') (hopen : (s.phase ref).isOpen = true)
  (ht : s.server.tracks.lookup n = some t)
  (hattached : s'.server.attached ref n = s.server.attached ref n)

include h htidy hsound heff hopen ht hattached

theorem Served.frame (htodo : ∀ e ∈ (s.phase ref).todo, e ∈ (s'.phase ref).todo)
    (hcarries : ∀ r, s.Carries t.bc n r ref → s'.Carries t.bc n r ref)
    (hsub : s.WillSubscribe t.bc n ref → s'.WillSubscribe t.bc n ref) : s'.Served ref n t.bc := by
  rcases h with ⟨r, hr, hobt⟩ | hw
  · refine .inl ⟨r, listed_kept htidy hsound heff hopen ht hr (hobt.owner hsound), ?_⟩
    rcases hobt with hatt | hmem | hcar
    · exact .inl (hattached.trans hatt)
    · exact .inr (.inl (htodo _ hmem))
    · exact .inr (.inr (hcarries r hcar))
  · exact .inr (hsub hw)

theorem Served.session ⦃ref' p p'⦄ (hphases : s'.phase = update s.phase ref' p')
    (hcalls : s'.calls = s.calls) (hphase : s.phase ref' = p) (htodo : ref = ref' → p.todo = []) :
    s'.Served ref n t.bc := by
  refine h.frame htidy hsound heff hopen ht hattached (fun e he => ?_) (fun r hr => ?_)
    (fun hw => ?_)
  · by_cases href : ref = ref'
    · rw [href, hphase, htodo href] at he
      cases he
    · rwa [hphases, update_of_ne href]
  · rwa [Carries, hcalls]
  · rwa [WillSubscribe, hcalls]

end Frame

variable {hello : SessionRef → Option Hello}

theorem attached_of_attachable
    (hok : s.attachable ref n r = true) (ht : s.server.tracks.lookup n = some t)
    (hr : r ∈ s.server.listed t.bc) :
    ∃ q ∈ s.server.listed t.bc, (s.server.onSession ref (fun sess =>
      sess.attachTrackWithKind n kind r priority trackID)).attached ref n = some q := by
  have hcur : s.isCurrent n r = true := isCurrent_iff.mpr ⟨t, ht, hr⟩
  rw [attachable, if_pos hcur] at hok
  rw [Server.attached_attach, if_pos ⟨rfl, rfl⟩]
  cases hatt : s.server.attached ref n with
  | none => exact ⟨r, hr, rfl⟩
  | some q =>
    rw [hatt] at hok
    obtain ⟨t', ht', hq⟩ := isCurrent_iff.mp hok
    rw [ht] at ht'
    cases ht'
    exact ⟨q, hq, rfl⟩

theorem attach_cases (hok : s.attachable ref name q = true)
    (hr : (s.server.onSession ref (fun sess =>
      sess.attachTrackWithKind name kind q priority trackID)).attached ref n = some r) :
    s.server.attached ref n = some r ∨ s.isCurrent n r = true ∨ s.WillDetach n ref := by
  rw [Server.attached_attach] at hr
  split at hr
  · next heq =>
    obtain ⟨-, rfl⟩ := heq
    cases hatt : s.server.attached ref n with
    | some q' =>
      rw [hatt] at hr
      exact .inl hr
    | none =>
      rw [hatt] at hr
      cases hr
      right
      by_cases hcur : s.isCurrent n q = true
      · exact .inl hcur
      · rw [attachable, if_neg hcur, hatt] at hok
        exact .inr (detachPending_iff.mp hok)
  · exact .inl hr

/-! ## One lemma per step -/

theorem willSubscribe_put (rest : Option Call) (hcall : s.calls[i]? = some c)
    (hrest : ∀ x ∈ c.subscribes, ∃ c', rest = some c' ∧ x ∈ c'.subscribes)
    (hcalls : s'.calls = Slots.put s.calls i rest)
    (h : s.WillSubscribe b n ref) : s'.WillSubscribe b n ref := by
  rw [WillSubscribe, hcalls]
  exact exists_put hcall (hrest _) h

theorem willDetach_put (rest : Option Call) (hcall : s.calls[i]? = some c)
    (hrest : (n, ref) ∈ c.detaches → ∃ c', rest = some c' ∧ (n, ref) ∈ c'.detaches)
    (hcalls : s'.calls = Slots.put s.calls i rest) (h : s.WillDetach n ref) :
    s'.WillDetach n ref := by
  rw [WillDetach, hcalls]
  exact exists_put hcall hrest h

theorem served_subscribed (htidy : Tidy s) {greeting} (ht : s.server.tracks.lookup n = some t) :
    Served (s.snapshotTaken ref hello greeting) ref n t.bc := by
  have hsub := Server.subscribedAll_onFreshSession htidy.table.named
  obtain rfl := htidy.table.named n t ht
  have hmem := (Server.mem_tracks_iff htidy.table.named).mpr ht
  obtain ⟨r, hr⟩ := hsub.all t hmem
  refine .inl ⟨r, (hsub.listed t.bc r).mpr (.inr ⟨t, hmem, rfl, hr⟩), .inr (.inl ?_)⟩
  simp only [update_self]
  exact mem_entries_iff.mpr hr

theorem served_attached (h : s.Served ref n t.bc) (ht : s.server.tracks.lookup n = some t)
    {greeting acquired todo} (hok : s.attachable ref name q = true)
    (hphase : s.phase ref = .attaching greeting acquired (⟨name, q⟩ :: todo)) :
    Served ⟨s.server.onSession ref
      (fun sess => sess.attachTrackWithKind name kind q priority trackID),
      update s.phase ref (.attaching greeting acquired todo), hello, s.calls⟩ ref n t.bc := by
  rcases h with ⟨r, hr, hatt | hmem | hcar⟩ | hw
  · exact .inl ⟨r, hr, .inl (attached_attach_of_some hatt)⟩
  · rw [hphase] at hmem
    rcases mem_cons.mp hmem with heq | hmem
    · -- The receiver whose turn it is.
      cases heq
      obtain ⟨r', hr', hatt⟩ := attached_of_attachable hok ht hr
      exact .inl ⟨r', hr', .inl hatt⟩
    · refine .inl ⟨r, hr, .inr (.inl ?_)⟩
      simp only [update_self]
      exact hmem
  · exact .inl ⟨r, hr, .inr (.inr hcar)⟩
  · exact .inr hw

theorem served_registered (hmem : ref ∈ s.server.sessions)
    (hcalls : s'.calls = s.calls ++ [.adding b n kind priority trackID s.server.sessions]) :
    s'.Served ref n b := by
  refine .inr ⟨_, hcalls ▸ mem_concat_self, ?_⟩
  exact mem_map.mpr ⟨ref, hmem, rfl⟩

theorem served_turnSubscribed (h : s.Served ref n t.bc)
    (hcall : s.calls[i]? = some (.adding b name kind priority trackID (ref' :: refs))) :
    Served (s.turnSubscribed ref' i b name kind priority trackID refs) ref n t.bc := by
  have hlisted : ∀ r, r ∈ (s.server.onBroadcaster b PubSub.subscribe).listed t.bc ↔
      r ∈ s.server.listed t.bc ∨ t.bc = b ∧ r = s.server.nextReceiver :=
    fun _ => s.server.mem_listed_subscribe b (fun ps => ps.bc.chanSize)
  rcases h with ⟨r, hr, hobt⟩ | ⟨c, hc, hx⟩
  · refine .inl ⟨r, (hlisted r).mpr (.inl hr), ?_⟩
    rcases hobt with hatt | hmem | hcar
    · exact .inl hatt
    · exact .inr (.inl hmem)
    · exact .inr (.inr (carries_put (some _) hcall rfl rfl _ _ _ _ hcar))
  · rcases mem_put_of_mem (o := some _) hcall hc with rfl | hother
    · rcases mem_cons.mp hx with heq | hx
      · -- The session whose turn it is.
        cases heq
        exact .inl ⟨_, (hlisted _).mpr (.inr ⟨rfl, rfl⟩),
          .inr (.inr ⟨_, mem_put_self hcall, rfl⟩)⟩
      · exact .inr ⟨_, mem_put_self hcall, hx⟩
    · exact .inr ⟨c, hother, hx⟩

theorem served_turnAttached (h : s.Served ref n t.bc) (hok : ref' ≠ ref ∨ s.attachable ref name q = true)
    (hcall : s.calls[i]? = some (.attaching b name kind priority trackID q (ref' :: refs)))
    (ht : s.server.tracks.lookup n = some t) :
    Served (s.turnAttached ref' i b name kind priority trackID refs q) ref n t.bc := by
  rcases h with ⟨r, hr, hobt⟩ | hw
  · rcases hobt with hatt | hmem | ⟨c, hc, hcar⟩
    · exact .inl ⟨r, hr, .inl (attached_attach_of_some hatt)⟩
    · exact .inl ⟨r, hr, .inr (.inl hmem)⟩
    · rcases mem_put_of_mem (o := some _) hcall hc with rfl | hother
      · -- The receiver this call carries.
        cases hcar
        obtain ⟨r', hr', hatt⟩ := attached_of_attachable (hok.resolve_left (fun hne => hne rfl)) ht hr
        exact .inl ⟨r', hr', .inl hatt⟩
      · exact .inl ⟨r, hr, .inr (.inr ⟨c, hother, hcar⟩)⟩
  · refine .inr (willSubscribe_put (some _) hcall ?_ rfl hw)
    exact fun x hx => ⟨_, rfl, hx⟩

theorem served_turnDetached (h : s.Served ref n t.bc) {t' : TrackEntry}
    (hok : ref' ≠ ref ∨ s.detachable ref t'.name = true)
    (hcall : s.calls[i]? = some (.removing t' (ref' :: refs)))
    (ht : s.server.tracks.lookup n = some t) :
    Served
      { s with
        server := s.server.onSession ref' (fun sess => sess.detachTrack t'.name)
        calls := Slots.put s.calls i (some (.unannouncing t' (ref' :: refs))) } ref n t.bc := by
  rcases h with ⟨r, hr, hobt⟩ | hw
  · refine .inl ⟨r, hr, ?_⟩
    rcases hobt with hatt | hmem | hcar
    · refine .inl ?_
      rw [Server.attached_detach, if_neg ?_]
      · exact hatt
      · -- A receiver of the current track is not detached.
        rintro ⟨rfl, rfl⟩
        have hcur : s.isCurrent t'.name r = true := isCurrent_iff.mpr ⟨t, ht, hr⟩
        rw [detachable_iff.mp (hok.resolve_left (fun hne => hne rfl)) r hatt] at hcur
        cases hcur
    · exact .inr (.inl hmem)
    · exact .inr (.inr (carries_put (some _) hcall rfl rfl _ _ _ _ hcar))
  · exact .inr (willSubscribe_put (some _) hcall nofun rfl hw)

theorem ne_or_of_bne {b} (h : (ref' != ref || b) = true) : ref' ≠ ref ∨ b = true := by
  simpa using h

theorem Converging.served_step (h : Converging s l ref) (htidy : Tidy s) (hsound : Sound s l)
    (hok : s.inOrder ref ev = true) (heff : Effect s l ev s' l') (hfresh : ref ∈ l'.fresh)
    (hopen : (s.phase ref).isOpen = true) (ht : s'.server.tracks.lookup n = some t) :
    s'.Served ref n t.bc := by
  have hframe := fun hfresh ht => (h.served hfresh hopen n t ht).frame htidy hsound heff hopen ht
  have hsession := fun hfresh ht =>
    (h.served hfresh hopen n t ht).session htidy hsound heff hopen ht
  cases heff with
  | connected =>
    have hborn : ref ≠ s.server.nextSession := Nat.ne_of_lt (h.born hfresh)
    refine hsession hfresh ht ?_ rfl rfl (htidy.unborn _ le_rfl) (fun _ => rfl)
    rw [Server.attached_addSession, if_neg hborn]
  | evicted hstore hserver hphase hcalls =>
    rw [hserver.tracks, (s.server.evict_frame _ _).1] at ht
    refine hframe hfresh ht ?_ ?_ (fun r => (hcalls.carries _ _ _ _).mpr)
      (hcalls.subscribe _ _ _).mpr
    · rw [hserver.attached, Server.attached_evict]
    · rw [(hphase ref).todo]
      exact fun _ => id
  | resumed hphase hstore hentry hserver =>
    rw [hserver.tracks, (s.server.evict_frame _ _).1] at ht
    refine hsession hfresh ht ?_ rfl rfl hphase (fun _ => rfl)
    rw [hserver.attached, Server.attached_evict]
  | @subscribed ref' _ _ hphase =>
    have hsub := Server.subscribedAll_onFreshSession htidy.table.named
    rw [hsub.tracks] at ht
    by_cases href : ref = ref'
    · subst href
      exact served_subscribed htidy ht
    · have hold : ref ∈ l.fresh := (mem_cons.mp hfresh).resolve_left href
      refine hsession hold ht ?_ rfl rfl hphase (fun heq => absurd heq href)
      rw [Server.attached, hsub.sessionAt, Server.attached]
  | @attached ref' _ _ _ _ _ _ _ _ _ hphase =>
    simp only [inOrder, hphase] at hok
    by_cases href : ref = ref'
    · subst href
      exact served_attached (h.served hfresh hopen n t ht) ht
        ((ne_or_of_bne hok).resolve_left (fun hne => hne rfl)) hphase
    · refine hsession hfresh ht ?_ rfl rfl hphase (fun heq => absurd heq href)
      rw [Server.attached_onSession_of_ne _ href]
  | snapped hphase | decided hphase | held hphase | removed hphase =>
    exact hsession hfresh ht rfl rfl rfl hphase (fun _ => rfl)
  | @released ref' _ t' _ _ _ hphase =>
    obtain ⟨htr, -, hat, -, -⟩ := s.server.unsubscribeAll_frame (s.server.activeReceivers ref' [t'])
    rw [htr] at ht
    refine hsession hfresh ht ?_ rfl rfl hphase (fun _ => rfl)
    rw [Server.attached, hat, Server.attached]
  | parked hphase =>
    rw [(s.server.evict_frame _ _).1] at ht
    refine hsession hfresh ht ?_ rfl rfl hphase (fun _ => rfl)
    rw [Server.attached_evict]
  | @registered spec hnew =>
    obtain ⟨bc, recorders, -, hreg⟩ := Server.registerTrack_of_none hnew (Server.specKind spec)
      (Server.specPriority spec) spec.trackID
    rw [hreg] at ht hframe ⊢
    rcases lookup_insert_eq_some_iff.mp ht with ⟨rfl, rfl⟩ | ⟨-, hold⟩
    · exact served_registered (h.registered hopen) rfl
    · exact hframe hfresh hold rfl (fun _ => id) (fun _ => exists_snoc) exists_snoc
  | unregistered hold =>
    exact hframe hfresh (lookup_erase_eq_some_iff.mp ht).2 rfl (fun _ => id)
      (fun _ => exists_snoc) exists_snoc
  | turnSubscribed hcall => exact served_turnSubscribed (h.served hfresh hopen n t ht) hcall
  | turnAttached hcall =>
    simp only [inOrder, hcall] at hok
    exact served_turnAttached (h.served hfresh hopen n t ht) (ne_or_of_bne hok) hcall ht
  | turnDetached hcall =>
    simp only [inOrder, hcall] at hok
    exact served_turnDetached (h.served hfresh hopen n t ht) (ne_or_of_bne hok) hcall ht
  | turnClosed hcall =>
    exact hframe hfresh ht rfl (fun _ => id) (fun r => carries_put none hcall rfl rfl _ _ _ _)
      (willSubscribe_put none hcall (fun _ h => by cases h) rfl)

section Attached

variable (h : Converging s l ref) (htidy : Tidy s) (hsound : Sound s l)
  (heff : Effect s l ev s' l') (hopen : (s.phase ref).isOpen = true)

include h htidy hsound heff hopen

theorem Converging.attached_frame (hr : s.server.attached ref n = some r)
    (htracks : s'.server.tracks.lookup n = s.server.tracks.lookup n)
    (hdetach : s.WillDetach n ref → s'.WillDetach n ref) :
    s'.isCurrent n r = true ∨ s'.WillDetach n ref := by
  rcases h.attached hopen n r hr with hcur | hw
  · exact .inl (isCurrent_kept htidy hsound heff hopen hcur (hsound.attached ref n r hr) htracks)
  · exact .inr (hdetach hw)

theorem Converging.attached_step (hok : s.inOrder ref ev = true) (hr : s'.server.attached ref n = some r) :
    s'.isCurrent n r = true ∨ s'.WillDetach n ref := by
  have hframe := fun hr htracks hdetach =>
    h.attached_frame (n := n) (r := r) htidy hsound heff hopen hr htracks hdetach
  cases heff with
  | connected =>
    rw [Server.attached_addSession] at hr
    split at hr
    · cases hr
    · exact hframe hr rfl id
  | evicted hstore hserver hphase hcalls =>
    rw [hserver.attached, Server.attached_evict] at hr
    exact hframe hr (by rw [hserver.tracks, (s.server.evict_frame _ _).1])
      (hcalls.detach n ref).mpr
  | resumed hphase hstore hentry hserver =>
    rw [hserver.attached, Server.attached_evict] at hr
    exact hframe hr (by rw [hserver.tracks, (s.server.evict_frame _ _).1]) id
  | subscribed =>
    have hsub := Server.subscribedAll_onFreshSession htidy.table.named
    rw [Server.attached, hsub.sessionAt] at hr
    exact hframe hr (by rw [hsub.tracks]) id
  | @attached ref' _ _ _ _ _ _ _ _ _ hphase =>
    simp only [inOrder, hphase] at hok
    by_cases href : ref = ref'
    · subst href
      rcases attach_cases ((ne_or_of_bne hok).resolve_left (fun hne => hne rfl)) hr with
        hold | hcur | hw
      · exact hframe hold rfl id
      · exact .inl hcur
      · exact .inr hw
    · rw [Server.attached_onSession_of_ne _ href] at hr
      exact hframe hr rfl id
  | snapped | decided | held | removed => exact hframe hr rfl id
  | @released ref' _ t' =>
    obtain ⟨htr, -, hat, -, -⟩ := s.server.unsubscribeAll_frame (s.server.activeReceivers ref' [t'])
    rw [Server.attached, hat] at hr
    exact hframe hr (by rw [htr]) id
  | parked =>
    rw [Server.attached_evict] at hr
    exact hframe hr (by rw [(s.server.evict_frame _ _).1]) id
  | @registered spec hnew =>
    obtain ⟨bc, recorders, -, hreg⟩ := Server.registerTrack_of_none hnew (Server.specKind spec)
      (Server.specPriority spec) spec.trackID
    have hold : s.server.attached ref n = some r := by
      rw [hreg] at hr
      exact hr
    rcases h.attached hopen n r hold with hcur | hw
    · obtain ⟨t, ht, -⟩ := isCurrent_iff.mp hcur
      have hne : n ≠ spec.name := by
        rintro rfl
        rw [hnew] at ht
        cases ht
      refine hframe hold ?_ exists_snoc
      rw [hreg]
      exact AList.lookup_insert_ne hne
    · exact .inr (exists_snoc hw)
  | @unregistered name t hold =>
    by_cases hn : n = name
    · -- The call that removed the track will come to the session.
      subst hn
      refine .inr ⟨_, mem_concat_self, ?_⟩
      exact mem_map.mpr ⟨ref, h.registered hopen, by rw [htidy.table.named n t hold]⟩
    · exact hframe hr (AList.lookup_erase_ne hn) exists_snoc
  | turnSubscribed hcall =>
    exact hframe hr rfl (willDetach_put (some _) hcall (by rintro ⟨⟩) rfl)
  | @turnAttached i accepted b name kind priority trackID q ref' refs hcall =>
    simp only [inOrder, hcall] at hok
    have hstep := fun hr => hframe hr rfl
      (willDetach_put (some _) hcall (by rintro ⟨⟩) rfl)
    by_cases href : ref = ref'
    · subst href
      rcases attach_cases ((ne_or_of_bne hok).resolve_left (fun hne => hne rfl)) hr with
        hold | hcur | hw
      · exact hstep hold
      · exact .inl hcur
      · exact .inr (willDetach_put (some _) hcall (by rintro ⟨⟩) rfl hw)
    · rw [Server.attached_onSession_of_ne _ href] at hr
      exact hstep hr
  | @turnDetached i accepted t' ref' refs hcall =>
    rw [Server.attached_detach] at hr
    split at hr
    · cases hr
    · next hne =>
      refine hframe hr rfl (willDetach_put (some _) hcall ?_ rfl)
      intro hx
      rcases mem_cons.mp hx with heq | hx
      · cases heq
        exact absurd ⟨rfl, rfl⟩ hne
      · exact ⟨_, rfl, hx⟩
  | turnClosed hcall => exact hframe hr rfl (willDetach_put none hcall (by rintro ⟨⟩) rfl)

end Attached

theorem Converging.step (h : Converging s l ref) (htidy : Tidy s) (hsound : Sound s l)
    (hok : s.inOrder ref ev = true) (heff : Effect s l ev s' l') : Converging s' l' ref := by
  obtain ⟨hnext, hsessions⟩ := sessions_step htidy heff
  have hborn : ref ∈ l'.fresh → ref < s.server.nextSession := by
    intro hfresh
    rcases fresh_step heff hfresh with hold | ⟨greeting, hphase⟩
    · exact h.born hold
    · by_contra hge
      rw [htidy.unborn ref (Nat.le_of_not_lt hge)] at hphase
      cases hphase
  refine ⟨?_, fun hfresh => (hborn hfresh).trans_le hnext, ?_, ?_⟩
  · intro hopen'
    rcases open_step heff hopen' with hopen | ⟨rfl, hadd⟩
    · exact hsessions ref hopen (h.registered hopen)
    · rw [hadd]
      exact mem_concat_self
  · intro hfresh hopen' n t ht
    rcases open_step heff hopen' with hopen | ⟨rfl, -⟩
    · exact h.served_step htidy hsound hok heff hfresh hopen ht
    · exact absurd (hborn hfresh) (Nat.lt_irrefl _)
  · intro hopen' n r hr
    rcases open_step heff hopen' with hopen | ⟨rfl, hadd⟩
    · exact h.attached_step htidy hsound heff hopen hok hr
    · -- A session that has just come has nothing attached.
      rw [hadd, Server.attached_addSession, if_pos rfl] at hr
      cases hr

end Converge

/-! ## Runs -/

theorem converging_of_reachable {codec cfg resumeWindow ref} :
    ∀ x, Reachable ((ledgerSystem codec cfg resumeWindow).restrict
      (fun x ev => x.1.inOrder ref ev = true)) x → Converging x.1 x.2 ref := by
  refine invariant_restrict _ ⟨nofun, nofun, nofun, nofun⟩ ?_
  intro x ev x' hx hconv hok hstep
  obtain ⟨htidy, hsound⟩ := sound_of_reachable x hx.of_restrict
  exact hconv.step htidy hsound hok (effect_of_step hstep)

/-- **Convergence.** If no attach and no detach on the session comes at the wrong time: once
    a session that was not resumed is connected and all calls have returned, it has exactly
    the tracks of the server, each with a receiver of the track's broadcaster. -/
theorem tracks_converge {codec : Codec} {cfg : ServerConfig} {resumeWindow : Int} {s : Concurrent}
    {l : Ledger} {ref : SessionRef} (h : Reachable ((ledgerSystem codec cfg resumeWindow).restrict
      (fun x ev => x.1.inOrder ref ev = true)) (s, l))
    (hfresh : ref ∈ l.fresh) (hconn : s.isConnected ref = true) (hcalls : s.allReturned = true) :
    (∀ n, (∃ r, s.server.attached ref n = some r) ↔ ∃ t, s.server.tracks.lookup n = some t) ∧
      ∀ n r t, s.server.attached ref n = some r → s.server.tracks.lookup n = some t →
        r ∈ s.server.listed t.bc := by
  have hconv : Converging s l ref := converging_of_reachable _ h
  obtain ⟨hopen, htodo⟩ : (s.phase ref).isOpen = true ∧ (s.phase ref).todo = [] := by
    rcases isConnected_iff.mp hconn with hp | hp <;> rw [hp] <;> exact ⟨rfl, rfl⟩
  have hcurrent : ∀ n r, s.server.attached ref n = some r →
      ∃ t, s.server.tracks.lookup n = some t ∧ r ∈ s.server.listed t.bc := by
    intro n r hr
    rcases hconv.attached hopen n r hr with hcur | ⟨c, hc, hx⟩
    · exact isCurrent_iff.mp hcur
    · rw [(Call.nothing_of_not_changesTracks (allReturned_iff.mp hcalls c hc)).2.2.1] at hx
      cases hx
  refine ⟨fun n => ⟨?_, ?_⟩, ?_⟩
  · rintro ⟨r, hr⟩
    exact (hcurrent n r hr).imp (fun _ ht => ht.1)
  · rintro ⟨t, ht⟩
    rcases hconv.served hfresh hopen n t ht with ⟨r, -, hatt | hmem | ⟨c, hc, hcar⟩⟩ | ⟨c, hc, hx⟩
    · exact ⟨r, hatt⟩
    · rw [htodo] at hmem
      cases hmem
    · rw [(Call.nothing_of_not_changesTracks (allReturned_iff.mp hcalls c hc)).1] at hcar
      cases hcar
    · rw [(Call.nothing_of_not_changesTracks (allReturned_iff.mp hcalls c hc)).2.1] at hx
      cases hx
  · intro n r t hr ht
    obtain ⟨t', ht', hmem⟩ := hcurrent n r hr
    rw [ht] at ht'
    cases ht'
    exact hmem

/-- A track is added, removed and added again by calls that wait for each other. -/
def steadyRun : List Event :=
  handshakeRun 0 (str "a") ++
    [.session 0 .attach, .session 0 .offer, .session 0 (.reply true), .session 0 .start] ++
    [.addTrackSpec ⟨str "audio", .audio, 0, 0⟩, .turn 1 true, .turn 1 true, .turn 1 true,
      .turn 1 true] ++
    [.removeTrack (str "audio"), .turn 1 true, .turn 1 true, .turn 1 true] ++
    [.addTrackSpec ⟨str "audio", .audio, 0, 0⟩, .turn 1 true, .turn 1 true, .turn 1 true,
      .turn 1 true]

theorem tracks_converge_steadyRun :
    ∃ s l, Reachable ((ledgerSystem plainCodec plainConfig 0).restrict
        (fun x ev => x.1.inOrder 0 ev = true)) (s, l) ∧
      0 ∈ l.fresh ∧ s.isConnected 0 = true ∧ s.allReturned = true ∧
      (∃ t, s.server.tracks.lookup (str "audio") = some t) ∧
      (∀ n, (∃ r, s.server.attached 0 n = some r) ↔ ∃ t, s.server.tracks.lookup n = some t) ∧
      ∀ n r t, s.server.attached 0 n = some r → s.server.tracks.lookup n = some t →
        r ∈ s.server.listed t.bc := by
  obtain ⟨⟨s, l⟩, hs, hp⟩ := exists_reachable (start plainCodec plainConfig 0, Ledger.empty)
    (withHistory (next plainCodec) Ledger.record) (fun x ev => x.1.inOrder 0 ev)
    (fun x => x.2.fresh.contains 0 && x.1.isConnected 0 && x.1.allReturned &&
      (x.1.server.tracks.lookup (str "audio")).isSome) steadyRun (by decide +kernel)
  simp only [Bool.and_eq_true] at hp
  obtain ⟨⟨⟨hfresh, hconn⟩, hcalls⟩, hsome⟩ := hp
  have hfresh : 0 ∈ l.fresh := mem_of_elem_eq_true hfresh
  exact ⟨s, l, hs, hfresh, hconn, hcalls, isSome_iff_exists.mp hsome,
    tracks_converge hs hfresh hconn hcalls⟩

/-- The second call attaches its receiver first, and the first one then detaches the name.
    -/
def crossedRun : List Event :=
  handshakeRun 0 (str "a") ++
    [.session 0 .attach, .session 0 .offer, .session 0 (.reply true), .session 0 .start] ++
    [.addTrackSpec ⟨str "audio", .audio, 0, 0⟩, .turn 1 true, .turn 1 true, .turn 1 true,
      .turn 1 true] ++
    [.removeTrack (str "audio"), .addTrackSpec ⟨str "audio", .audio, 0, 0⟩, .turn 2 true,
      .turn 2 true, .turn 2 true, .turn 2 true, .turn 1 true, .turn 1 true, .turn 1 true]

/-- A connected session does not have a track of the server, and will not get it. -/
theorem tracks_diverge :
    ∃ s l, Reachable (ledgerSystem plainCodec plainConfig 0) (s, l) ∧
      0 ∈ l.fresh ∧ s.isConnected 0 = true ∧ s.allReturned = true ∧
      (∃ t, s.server.tracks.lookup (str "audio") = some t) ∧
      s.server.attached 0 (str "audio") = none := by
  obtain ⟨⟨s, l⟩, hs, hp⟩ := exists_reachable (start plainCodec plainConfig 0, Ledger.empty)
    (withHistory (next plainCodec) Ledger.record) (fun _ _ => true)
    (fun x => x.2.fresh.contains 0 && x.1.isConnected 0 && x.1.allReturned &&
      (x.1.server.tracks.lookup (str "audio")).isSome &&
      (x.1.server.attached 0 (str "audio")).isNone) crossedRun (by decide +kernel)
  simp only [Bool.and_eq_true] at hp
  obtain ⟨⟨⟨⟨hfresh, hconn⟩, hcalls⟩, hsome⟩, hnone⟩ := hp
  exact ⟨s, l, hs.of_restrict, mem_of_elem_eq_true hfresh, hconn, hcalls,
    isSome_iff_exists.mp hsome, isNone_iff_eq_none.mp hnone⟩

end Concurrent

end QuicRTC

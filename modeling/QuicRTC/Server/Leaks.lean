import QuicRTC.Server.Bookkeeping

/-! # What Sessions Leave Behind

A session that ends goes over a copy of the track table and unsubscribes what it has attached under
each name. A receiver it cannot find that way stays subscribed. Every receiver is in one place at
most, every broadcaster has one name.
-/

namespace QuicRTC

open Wire Function List Option GoMap AList

namespace Concurrent

open MemorySessionStore

/-! ## The condition -/

/-- It is not a receiver of the current track, or the name is free and the session will
    still release the track. -/
def placeable (s : Concurrent) (ref : SessionRef) (n : GoString) (r : ReceiverId) : Bool :=
  match s.server.tracks.lookup n with
  | none => true
  | some t =>
    !(s.server.listed t.bc).contains r ||
      ((s.server.attached ref n).isNone && (s.phase ref).covers t)

/-- It has no receiver of the current track attached. -/
def detachable (s : Concurrent) (ref : SessionRef) (n : GoString) : Bool :=
  match s.server.attached ref n, s.server.tracks.lookup n with
  | some r, some t => !(s.server.listed t.bc).contains r
  | _, _ => true

def keepsReceivers (s : Concurrent) : Event → Bool
  | .session ref .attach =>
    match s.phase ref with
    | .attaching _ _ (e :: _) => s.placeable ref e.1 e.2
    | _ => true
  | .session ref (.park now _) =>
    match s.phase ref, s.server.store.byID.lookup (s.server.parkKey ref) with
    | .releasing _ _ (some _), some p => expired now p
    | _, _ => true
  | .turn i _ =>
    match s.calls[i]? with
    | some (.attaching _ n _ _ _ r (ref :: _)) => s.placeable ref n r
    | some (.removing t (ref :: _)) => s.detachable ref t.name
    | _ => true
  | _ => true

/-- `runSession` has returned. -/
def isGone (s : Concurrent) (ref : SessionRef) : Bool :=
  match s.phase ref with
  | .gone _ => true
  | _ => false

theorem isGone_iff {s : Concurrent} {ref} : s.isGone ref = true ↔ ∃ ok, s.phase ref = .gone ok := by
  unfold isGone
  cases s.phase ref <;> simp

/-! ## The invariant -/

def At (s : Concurrent) (n : GoString) (t : TrackEntry) (r : ReceiverId) : Owner → Prop
  | .active ref =>
    (s.server.attached ref n = some r ∧ (s.phase ref).covers t = true) ∨
      ⟨n, r⟩ ∈ (s.phase ref).todo ∨ s.Carries t.bc n r ref
  | .parking ref => ∃ x ∈ (s.phase ref).entry, x.1.lookup n = some r ∧ (t.bc, r) ∈ x.2
  | .stored _ key =>
    ∃ p, s.server.store.byID.lookup key = some p ∧ p.receivers.lookup n = some r ∧
      (t.bc, r) ∈ p.onEvict

/-- Each name is subscribed once, to the broadcaster that serves it. -/
structure HoldOK (s : Server) (p : Phase) : Prop where
  nodup : (p.toHold.map TrackEntry.name).Nodup
  new : ∀ x ∈ p.entry, ∀ t ∈ p.toHold, x.1.lookup t.name = none
  serves : ∀ t ∈ p.toHold, Serves s t.bc t.name

/-- Every receiver of a current track is at its place. -/
structure Accounted (s : Concurrent) (l : Ledger) : Prop where
  tidy : Tidy s
  hold : ∀ ref, HoldOK s.server (s.phase ref)
  placed : ∀ n t r, s.server.tracks.lookup n = some t → r ∈ s.server.listed t.bc →
             ∃ o, l.owner r = some o ∧ s.At n t r o

section Hold

variable {s s' : Server} {p : Phase}

theorem holdOK_of_nil (s : Server) (h : p.toHold = []) : HoldOK s p := by
  refine ⟨?_, fun x _ t ht => ?_, fun t ht => ?_⟩
  · rw [h]
    exact nodup_nil
  · rw [h] at ht
    cases ht
  · rw [h] at ht
    cases ht

theorem HoldOK.quiet {p'} (h : HoldOK s p) (hq : p.Quiet p') : HoldOK s p' := by
  rcases hq.toHold with heq | hnil
  · exact ⟨heq ▸ h.nodup, heq ▸ hq.entry ▸ h.new, heq ▸ h.serves⟩
  · exact holdOK_of_nil s hnil

theorem HoldOK.mono (h : HoldOK s p) (hserves : ∀ b n, Serves s b n → Serves s' b n) :
    HoldOK s' p :=
  ⟨h.nodup, h.new, fun t ht => hserves _ _ (h.serves t ht)⟩

end Hold

section Hold

variable {s s' : Concurrent} {l l' : Ledger}

theorem hold_update (h : ∀ ref, HoldOK s.server (s.phase ref)) {ref p' server}
    (hserves : ∀ b n, Serves s.server b n → Serves server b n) (hp : HoldOK server p')
    (ref' : SessionRef) : HoldOK server (update s.phase ref p' ref') :=
  (forall_update_iff s.phase (p := fun _ p => HoldOK server p)).mpr
    ⟨hp, fun ref' _ => (h ref').mono hserves⟩ ref'

theorem holdOK_snapshot (htable : s.server.TableOK) (ok : Bool) :
    HoldOK s.server (.leaving ok (s.server.tracks.entries.map (fun e => e.2))) where
  nodup := Server.names_nodup htable.named
  new := nofun
  serves := fun _ ht => serves_of_lookup htable ((Server.mem_tracks_iff htable.named).mp ht)

theorem HoldOK.next {server ok tracks todo t receivers onEvict}
    (h : HoldOK server (.holding ok tracks (t :: todo) receivers onEvict)) (r : ReceiverId)
    (pairs : OnEvict) :
    HoldOK server (.holding ok tracks todo (receivers.insert t.name r) pairs) := by
  obtain ⟨hnot, hnodup⟩ := nodup_cons.mp h.nodup
  refine ⟨hnodup, fun x hx t' ht' => ?_, fun t' ht' => h.serves t' (mem_cons_of_mem _ ht')⟩
  cases hx
  have hne : t'.name ≠ t.name := fun heq => hnot (heq ▸ mem_map_of_mem ht')
  exact (lookup_insert_ne hne).trans (h.new _ rfl t' (mem_cons_of_mem _ ht'))

theorem hold_step (htidy : Tidy s) (h : ∀ ref, HoldOK s.server (s.phase ref)) {ev}
    (heff : Effect s l ev s' l') : ∀ ref, HoldOK s'.server (s'.phase ref) := by
  cases heff with
  | connected => exact hold_update h (fun _ _ => id) (holdOK_of_nil _ rfl)
  | evicted hstore hserver hphase hcalls =>
    exact fun ref => ((h ref).quiet (hphase ref)).mono ((steady_evict ..).same hserver).serves
  | resumed hphase hstore hentry hserver =>
    exact hold_update h ((steady_evict ..).same hserver).serves (holdOK_of_nil _ rfl)
  | subscribed hphase =>
    exact hold_update h (steady_onFreshSession htidy.table.named).serves (holdOK_of_nil _ rfl)
  | attached | removed => exact hold_update h (fun _ _ => id) (holdOK_of_nil _ rfl)
  | snapped => exact hold_update h (fun _ _ => id) (holdOK_snapshot htidy.table _)
  | @decided ref _ _ _ _ hphase =>
    have hp := h ref
    rw [hphase] at hp
    refine hold_update h (fun _ _ => id) ⟨hp.nodup, fun x hx t _ => ?_, hp.serves⟩
    cases hx
    exact lookup_empty t.name
  | @held ref _ _ _ _ _ _ _ hphase =>
    have hp := h ref
    rw [hphase] at hp
    exact hold_update h (fun _ _ => id) ((hp.next _ _).mono (fun _ _ => id))
  | released => exact hold_update h (steady_unsubscribeAll ..).serves (holdOK_of_nil _ rfl)
  | parked => exact hold_update h (steady_evict ..).serves (holdOK_of_nil _ rfl)
  | @registered spec hnew =>
    obtain ⟨bc, recorders, -, hreg⟩ := Server.registerTrack_of_none hnew (Server.specKind spec)
      (Server.specPriority spec) spec.trackID
    rw [hreg]
    exact fun ref => (h ref).mono (fun b n hs => hs.insert rfl rfl rfl)
  | unregistered hold => exact fun ref => (h ref).mono (fun b n hs => hs.erase _)
  | _ => exact fun ref => (h ref).mono (fun _ _ => id)

end Hold

/-! ## Receivers stay at their places -/

section At

variable {s s' : Concurrent} {n : GoString} {t : TrackEntry} {r : ReceiverId} {o : Owner}

theorem At.elim {P : Owner → Prop} (h : s.At n t r o)
    (hattached : ∀ ref, s.server.attached ref n = some r → (s.phase ref).covers t = true →
      P (.active ref)) (htodo : ∀ ref, ⟨n, r⟩ ∈ (s.phase ref).todo → P (.active ref))
    (hcarries : ∀ ref, s.Carries t.bc n r ref → P (.active ref))
    (hentry : ∀ ref, ∀ x ∈ (s.phase ref).entry, x.1.lookup n = some r → (t.bc, r) ∈ x.2 →
      P (.parking ref)) (hstored : ∀ ref key p, s.server.store.byID.lookup key = some p →
      p.receivers.lookup n = some r → (t.bc, r) ∈ p.onEvict → P (.stored ref key)) : P o := by
  cases o with
  | active ref =>
    rcases h with ⟨hatt, hcov⟩ | hmem | hcar
    · exact hattached ref hatt hcov
    · exact htodo ref hmem
    · exact hcarries ref hcar
  | parking ref =>
    obtain ⟨x, hx, hr, hpair⟩ := h
    exact hentry ref x hx hr hpair
  | stored ref key =>
    obtain ⟨p, hp, hr, hpair⟩ := h
    exact hstored ref key p hp hr hpair

theorem At.frame (h : s.At n t r o)
    (hattached : ∀ ref, s'.server.attached ref n = s.server.attached ref n)
    (hphase : ∀ ref, (s.phase ref).Quiet (s'.phase ref))
    (hcarries : ∀ ref, s.Carries t.bc n r ref → s'.Carries t.bc n r ref)
    (hstored : ∀ key p, s.server.store.byID.lookup key = some p → (t.bc, r) ∈ p.onEvict →
      s'.server.store.byID.lookup key = some p) : s'.At n t r o := by
  refine h.elim (P := fun o => s'.At n t r o) ?_ ?_ ?_ ?_ ?_
  · intro ref hatt hcov
    exact .inl ⟨(hattached ref).trans hatt, (hphase ref).covers t hcov⟩
  · intro ref hmem
    exact .inr (.inl ((hphase ref).todo ▸ hmem))
  · exact fun ref hcar => .inr (.inr (hcarries ref hcar))
  · exact fun ref x hx hr hpair => ⟨x, (hphase ref).entry ▸ hx, hr, hpair⟩
  · exact fun ref key p hp hr hpair => ⟨p, hstored key p hp hpair, hr, hpair⟩

section

variable {ref : SessionRef} {p p' : Phase} {f : Owner → Owner} (h : s.At n t r o) (hphase : s.phase ref = p)
  (hphase' : s'.phase = update s.phase ref p') (hcalls : s'.calls = s.calls)
  (hothers : ∀ ref', ref' ≠ ref → s'.server.attached ref' n = s.server.attached ref' n)
  (hself : s.server.attached ref n = some r → p.covers t = true →
    s'.server.attached ref n = some r ∧ p'.covers t = true)
  (htodo : ⟨n, r⟩ ∈ p.todo →
    (s'.server.attached ref n = some r ∧ p'.covers t = true) ∨ ⟨n, r⟩ ∈ p'.todo)
include h hphase hphase' hcalls hothers hself htodo

theorem At.pass (hactive : ∀ ref', f (.active ref') = .active ref')
    (hparking : ∀ ref', ref' ≠ ref → f (.parking ref') = .parking ref')
    (hentry : ∀ x ∈ p.entry, x.1.lookup n = some r → (t.bc, r) ∈ x.2 → s'.At n t r (f (.parking ref)))
    (hstored : ∀ ref' key q, s.server.store.byID.lookup key = some q →
      q.receivers.lookup n = some r → (t.bc, r) ∈ q.onEvict → s'.At n t r (f (.stored ref' key))) :
    s'.At n t r (f o) := by
  have hnew : s'.phase ref = p' := by rw [hphase', update_self]
  have hsame : ∀ ref', ref' ≠ ref → s'.phase ref' = s.phase ref' := by
    intro ref' hne
    rw [hphase', update_of_ne hne]
  refine h.elim (P := fun o => s'.At n t r (f o)) ?_ ?_ ?_ ?_ hstored
  · intro ref' hatt hcov
    rw [hactive]
    by_cases heq : ref' = ref
    · subst heq
      exact .inl (hnew ▸ hself hatt (hphase ▸ hcov))
    · exact .inl ⟨(hothers ref' heq).trans hatt, (hsame ref' heq).symm ▸ hcov⟩
  · intro ref' hmem
    rw [hactive]
    by_cases heq : ref' = ref
    · subst heq
      rcases htodo (hphase ▸ hmem) with hatt | hmem'
      · exact .inl (hnew ▸ hatt)
      · exact .inr (.inl (hnew ▸ hmem'))
    · exact .inr (.inl ((hsame ref' heq).symm ▸ hmem))
  · intro ref' hcar
    rw [hactive]
    exact .inr (.inr (by rwa [Carries, hcalls]))
  · intro ref' x hx hr hpair
    by_cases heq : ref' = ref
    · subst heq
      exact hentry x (hphase ▸ hx) hr hpair
    · rw [hparking ref' heq]
      exact ⟨x, (hsame ref' heq).symm ▸ hx, hr, hpair⟩

theorem At.session (hentry : ∀ x ∈ p.entry, x.1.lookup n = some r → (t.bc, r) ∈ x.2 →
      ∃ x' ∈ p'.entry, x'.1.lookup n = some r ∧ (t.bc, r) ∈ x'.2)
    (hstored : ∀ key q, s.server.store.byID.lookup key = some q → (t.bc, r) ∈ q.onEvict →
      s'.server.store.byID.lookup key = some q) : s'.At n t r o := by
  refine h.pass hphase hphase' hcalls hothers hself htodo (f := id) (fun _ => rfl) (fun _ _ => rfl)
    (fun x hx hr hpair => ?_)
    (fun _ key q hq hr hpair => ⟨q, hstored key q hq hpair, hr, hpair⟩)
  show ∃ x ∈ (s'.phase ref).entry, _
  rw [hphase', update_self]
  exact hentry x hx hr hpair

end

theorem At.turn {server : Server} {calls} (h : s.At n t r o)
    (hattached : ∀ ref, s.server.attached ref n = some r → (s.phase ref).covers t = true →
      server.attached ref n = some r) (hcarries : ∀ ref, s.Carries t.bc n r ref →
      At { s with server := server, calls := calls } n t r (.active ref))
    (hstore : server.store = s.server.store) :
    At { s with server := server, calls := calls } n t r o := by
  refine h.elim (P := fun o => At { s with server := server, calls := calls } n t r o) ?_ ?_ ?_ ?_ ?_
  · exact fun ref hatt hcov => .inl ⟨hattached ref hatt hcov, hcov⟩
  · exact fun ref hmem => .inr (.inl hmem)
  · exact hcarries
  · exact fun ref x hx hr hpair => ⟨x, hx, hr, hpair⟩
  · intro ref key p hp hr hpair
    rw [← hstore] at hp
    exact ⟨p, hp, hr, hpair⟩

theorem kept_of_listed {m m' ran} (hstore : Evicts m m' ran) {b} (hr : (b, r) ∉ ran.flatten)
    (key : GoString) (q : PersistedSession) (hq : m.lookup key = some q)
    (hpair : (b, r) ∈ q.onEvict) : m'.lookup key = some q :=
  hstore.kept hq (fun hran => hr (mem_flatten.mpr ⟨_, hran, hpair⟩))

end At

/-! ## Every step -/

def Placed (s : Concurrent) (l : Ledger) : Prop :=
  ∀ n t r, s.server.tracks.lookup n = some t → r ∈ s.server.listed t.bc →
    ∃ o, l.owner r = some o ∧ s.At n t r o

section Step

variable {s s' : Concurrent} {l l' : Ledger}

variable {ok : Bool} {name : GoString} {greeting : Hello} {kind : Kind} {ran : List OnEvict}
  {refs : List SessionRef} {store : MemorySessionStore} {i : Nat} {q : ReceiverId}
  {ref : SessionRef} {t' : TrackEntry} {priority trackID : UInt8}

theorem Accounted.evicted (h : Accounted s l) (hstore : Evicts s.server.store.byID store.byID ran)
    (hserver : (s.server.evict store ran).SameHoldings s'.server)
    (hphase : ∀ ref, (s.phase ref).Quiet (s'.phase ref)) (hcalls : SameFlight s s') : Placed s' l := by
  intro n t r ht hr
  obtain ⟨htr, hst, -, -, -⟩ := s.server.evict_frame store ran
  rw [hserver.tracks, htr] at ht
  rw [hserver.listed, Server.mem_listed_evict] at hr
  obtain ⟨o, ho, hat⟩ := h.placed n t r ht hr.1
  refine ⟨o, ho, hat.frame ?_ hphase (fun ref => (hcalls.carries _ _ _ _).mpr) ?_⟩
  · intro ref
    rw [hserver.attached, Server.attached_evict]
  · rw [hserver.store, hst]
    exact kept_of_listed hstore hr.2

theorem Accounted.resumed (h : Accounted s l) {key p server} {hello : SessionRef → Option Hello}
    (hphase : s.phase ref = .accepted greeting) (hstore : Evicts s.server.store.byID store.byID ran)
    (hentry : store.byID.lookup key = some p)
    (hserver : (s.server.evict { store with byID := store.byID.erase key } ran).SameHoldings server) :
    Placed ⟨server, update s.phase ref (.attaching greeting (.resumed p.receivers) p.receivers.entries),
      hello, s.calls⟩ (l.pass (Owner.resumedBy ref key)) := by
  intro n t r ht hr
  obtain ⟨htr, hst, -, -, -⟩ :=
    s.server.evict_frame { store with byID := store.byID.erase key } ran
  rw [hserver.tracks, htr] at ht
  rw [hserver.listed, Server.mem_listed_evict] at hr
  obtain ⟨o, ho, hat⟩ := h.placed n t r ht hr.1
  have hattached : ∀ ref', server.attached ref' n = s.server.attached ref' n := by
    intro ref'
    rw [hserver.attached, Server.attached_evict]
  refine ⟨_, Ledger.pass_owner ho rfl, ?_⟩
  refine hat.pass (f := Owner.resumedBy ref key) hphase rfl rfl (fun ref' _ => hattached ref')
    (fun hatt _ => ⟨(hattached ref).trans hatt, rfl⟩) nofun (fun _ => rfl) (fun _ _ => rfl) nofun ?_
  intro ref' key' q hq hlook hpair
  have hkept := kept_of_listed hstore hr.2 key' q hq hpair
  by_cases hkey : key' = key
  · -- It is the entry that was resumed.
    subst hkey
    obtain rfl : q = p := mem_unique hkept hentry
    rw [Owner.resumedBy, if_pos rfl]
    refine .inr (.inl ?_)
    simp only [update_self]
    exact mem_entries_iff.mpr hlook
  · rw [Owner.resumedBy, if_neg hkey]
    refine ⟨q, ?_, hlook, hpair⟩
    rw [hserver.store, hst]
    exact lookup_erase_eq_some_iff.mpr ⟨hkey, hkept⟩

theorem Accounted.subscribed (h : Accounted s l) {hello : SessionRef → Option Hello}
    (hphase : s.phase ref = .subscribing greeting) :
    Placed (s.snapshotTaken ref hello greeting)
      (l.grant (.active ref) s.server.nextReceiver s.server.onFreshSession.2.nextReceiver) := by
  intro n t r ht hr
  have hsub := Server.subscribedAll_onFreshSession h.tidy.table.named
  have hattached : ∀ ref', s.server.onFreshSession.2.attached ref' n = s.server.attached ref' n := by
    intro ref'
    rw [Server.attached, hsub.sessionAt, Server.attached]
  rw [hsub.tracks] at ht
  rcases (hsub.listed t.bc r).mp hr with hold | ⟨t', ht', hbc, hm⟩
  · obtain ⟨o, ho, hat⟩ := h.placed n t r ht hold
    refine ⟨o, (l.grant_owner_of_lt _ (h.tidy.born t.bc r hold)).trans ho, ?_⟩
    exact hat.session hphase rfl rfl (fun ref' _ => hattached ref')
      (fun hatt _ => ⟨(hattached ref).trans hatt, rfl⟩) (by rintro ⟨⟩) (fun _ h => by cases h)
      (fun key q hq _ => hsub.store ▸ hq)
  · -- A new receiver: its track has the broadcaster, so it has the name.
    have hlook := (Server.mem_tracks_iff h.tidy.table.named).mp ht'
    obtain rfl := h.tidy.table.distinct t'.name n t' t hlook ht hbc
    obtain ⟨-, hlo, hhi⟩ := hsub.new t'.name r hm
    refine ⟨.active ref, l.grant_owner_of_mem _ hlo hhi, .inr (.inl ?_)⟩
    simp only [update_self]
    exact mem_entries_iff.mpr hm

variable {r : ReceiverId} {n : GoString}

theorem placeable_iff {t} (ht : s.server.tracks.lookup n = some t) (hr : r ∈ s.server.listed t.bc) :
    s.placeable ref n r = true ↔
      s.server.attached ref n = none ∧ (s.phase ref).covers t = true := by
  simp [placeable, ht, hr]

theorem attached_of_placeable {t} (hok : s.placeable ref n r = true)
    (ht : s.server.tracks.lookup n = some t) (hr : r ∈ s.server.listed t.bc) :
    (s.server.onSession ref (fun sess =>
      sess.attachTrackWithKind n kind r priority trackID)).attached ref n = some r ∧
      (s.phase ref).covers t = true := by
  obtain ⟨hnone, hcov⟩ := (placeable_iff ht hr).mp hok
  refine ⟨?_, hcov⟩
  rw [Server.attached_attach, if_pos ⟨rfl, rfl⟩, hnone]
  rfl

theorem attached_attach_of_some {ref'} (h : s.server.attached ref' n = some r) :
    (s.server.onSession ref (fun sess =>
      sess.attachTrackWithKind name kind q priority trackID)).attached ref' n = some r := by
  rw [Server.attached_attach]
  split
  · next heq =>
    obtain ⟨rfl, rfl⟩ := heq
    rw [h]
    rfl
  · exact h

section

variable (h : Accounted s l) {hello : SessionRef → Option Hello}
include h

theorem Accounted.attached {acquired todo} (hok : s.keepsReceivers (.session ref .attach) = true)
    (hphase : s.phase ref = .attaching greeting acquired (⟨name, q⟩ :: todo)) :
    Placed ⟨s.server.onSession ref (fun sess => sess.attachTrackWithKind name kind q priority trackID),
      update s.phase ref (.attaching greeting acquired todo), hello, s.calls⟩ l := by
  intro n t r ht hr
  simp only [keepsReceivers, hphase] at hok
  obtain ⟨o, ho, hat⟩ := h.placed n t r ht hr
  refine ⟨o, ho, hat.session hphase rfl rfl (fun _ hne => by rw [Server.attached_onSession_of_ne _ hne])
    (fun hatt _ => ⟨attached_attach_of_some hatt, rfl⟩) (fun hmem => ?_) nofun (fun _ _ hq _ => hq)⟩
  rcases mem_cons.mp hmem with heq | hmem
  · -- The receiver whose turn it is: the name is free.
    cases heq
    exact .inl ⟨(attached_of_placeable hok ht hr).1, rfl⟩
  · exact .inr hmem

theorem Accounted.snapped (hphase : s.phase ref = .left ok) :
    Placed ⟨s.server, update s.phase ref (.leaving ok (s.server.tracks.entries.map (fun e => e.2))),
      hello, s.calls⟩ l := by
  intro n t r ht hr
  obtain ⟨o, ho, hat⟩ := h.placed n t r ht hr
  refine ⟨o, ho, hat.session hphase rfl rfl (fun _ _ => rfl) (fun hatt _ => ⟨hatt, ?_⟩) nofun nofun
    (fun _ _ hq _ => hq)⟩
  have hname := h.tidy.table.named n t ht
  exact elem_eq_true_of_mem ((Server.mem_tracks_iff h.tidy.table.named).mpr (hname.symm ▸ ht))

theorem Accounted.held {tracks todo receivers onEvict}
    (hphase : s.phase ref = .holding ok tracks (t' :: todo) receivers onEvict) :
    Placed (s.oneHeld ref hello ok tracks todo t' receivers onEvict)
      (l.grant (.parking ref) s.server.nextReceiver (s.server.nextReceiver + 1)) := by
  intro n t r ht hr
  have hhold := h.hold ref
  rw [hphase] at hhold
  rcases (s.server.mem_listed_subscribe t'.bc (fun ps => ps.bc.capacityFor parkedChanCap)).mp hr with
    hold | ⟨hbc, rfl⟩
  · obtain ⟨o, ho, hat⟩ := h.placed n t r ht hold
    refine ⟨o, (l.grant_owner_of_lt _ (h.tidy.born t.bc r hold)).trans ho, ?_⟩
    refine hat.session hphase rfl rfl (fun _ _ => rfl) (fun hatt hcov => ⟨hatt, hcov⟩) nofun ?_
      (fun _ _ hq _ => hq)
    intro x hx hlook hpair
    cases hx
    refine ⟨_, rfl, ?_, mem_append_left _ hpair⟩
    -- The name that is subscribed now has no receiver yet.
    have hne : n ≠ t'.name := by
      rintro rfl
      rw [hhold.new _ rfl t' mem_cons_self] at hlook
      cases hlook
    exact (lookup_insert_ne hne).trans hlook
  · obtain rfl := (hhold.serves t' mem_cons_self).2 n t ht hbc
    refine ⟨.parking ref, l.grant_owner_of_mem _ (le_refl _) (Nat.lt_succ_self _),
      _, by simp only [update_self]; rfl, lookup_insert _, ?_⟩
    rw [hbc]
    exact mem_concat_self

theorem Accounted.released {todo entry} (hphase : s.phase ref = .releasing ok (t' :: todo) entry) :
    Placed ⟨s.server.unsubscribeAll (s.server.activeReceivers ref [t']),
      update s.phase ref (.releasing ok todo entry), hello, s.calls⟩ l := by
  intro n t r ht hr
  obtain ⟨htr, hst, hse, -, -⟩ := s.server.unsubscribeAll_frame (s.server.activeReceivers ref [t'])
  rw [htr] at ht
  rw [Server.mem_listed_unsubscribeAll] at hr
  have hattached : ∀ ref', (s.server.unsubscribeAll (s.server.activeReceivers ref [t'])).attached ref' n =
      s.server.attached ref' n := by
    intro ref'
    rw [Server.attached, hse, Server.attached]
  obtain ⟨o, ho, hat⟩ := h.placed n t r ht hr.1
  refine ⟨o, ho, hat.session hphase rfl rfl (fun ref' _ => hattached ref') (fun hatt hcov => ?_)
    (by rintro ⟨⟩) (fun x hx hlook hpair => ⟨x, hx, hlook, hpair⟩)
    (fun key q hq _ => hst ▸ hq)⟩
  refine ⟨(hattached ref).trans hatt, ?_⟩
  rcases mem_cons.mp (mem_of_elem_eq_true hcov) with rfl | hmem
  · refine absurd (Server.mem_activeReceivers.mpr ⟨rfl, ?_⟩) hr.2
    rw [h.tidy.table.named n t ht]
    exact hatt
  · exact elem_eq_true_of_mem hmem

theorem Accounted.parked {receivers onEvict now later}
    (hok : s.keepsReceivers (.session ref (.park now later)) = true)
    (hphase : s.phase ref = .releasing ok [] (some (receivers, onEvict)))
    (hpark : s.server.store.park now later (s.server.sessionAt ref).tenant
      (s.server.sessionAt ref).sessionID receivers onEvict = (store, ran)) :
    Placed ⟨s.server.evict store ran, update s.phase ref (.parked ok), hello, s.calls⟩
      (l.pass (Owner.parkedBy ref (s.server.parkKey ref))) := by
  intro n t r ht hr
  obtain ⟨htr, hst, -, -, -⟩ := s.server.evict_frame store ran
  obtain ⟨hbyID, hev⟩ := s.server.store.evicts_park now later (s.server.sessionAt ref).tenant
    (s.server.sessionAt ref).sessionID receivers onEvict
  rw [hpark] at hbyID hev
  rw [htr] at ht
  rw [Server.mem_listed_evict] at hr
  have hbyID' : (s.server.evict store ran).store.byID =
      (s.server.store.roomFor now).insert (s.server.parkKey ref)
        { id := (s.server.sessionAt ref).sessionID, receivers := receivers,
          expiresAt := later + s.server.store.resumeTTL, onEvict := onEvict } := by
    rw [hst]
    exact hbyID
  obtain ⟨o, ho, hat⟩ := h.placed n t r ht hr.1
  -- The session has released every track of its copy, so it covers none.
  refine ⟨_, Ledger.pass_owner ho rfl, ?_⟩
  refine hat.pass (f := Owner.parkedBy ref (s.server.parkKey ref)) hphase rfl rfl
    (fun _ _ => Server.attached_evict ..) nofun nofun
    (fun _ => rfl) (fun _ hne => if_neg hne) ?_ ?_
  · intro x hx hlook hpair
    cases hx
    have hnew := congrArg (AList.lookup (s.server.parkKey ref)) hbyID'
    rw [lookup_insert] at hnew
    rw [Owner.parkedBy, if_pos rfl]
    exact ⟨_, hnew, hlook, hpair⟩
  · intro ref' key q hq hlook hpair
    have hkept := kept_of_listed hev hr.2 key q hq hpair
    refine ⟨q, ?_, hlook, hpair⟩
    rw [hbyID']
    refine (lookup_insert_ne ?_).trans hkept
    -- An entry under the key of the park has expired, so it was evicted.
    rintro rfl
    simp only [keepsReceivers, hphase, hq, roomFor_live hkept] at hok
    cases hok

theorem Accounted.turnSubscribed {b}
    (hcall : s.calls[i]? = some (.adding b name kind priority trackID (ref :: refs))) :
    Placed (s.turnSubscribed ref i b name kind priority trackID refs)
      (l.grant (.active ref) s.server.nextReceiver (s.server.nextReceiver + 1)) := by
  intro n t r ht hr
  rcases (s.server.mem_listed_subscribe b (fun ps => ps.bc.chanSize)).mp hr with hold | ⟨hbc, rfl⟩
  · obtain ⟨o, ho, hat⟩ := h.placed n t r ht hold
    refine ⟨o, (l.grant_owner_of_lt _ (h.tidy.born t.bc r hold)).trans ho, ?_⟩
    exact hat.turn (fun _ hatt _ => hatt)
      (fun ref' hcar => .inr (.inr (carries_put (some _) hcall rfl rfl _ _ _ _ hcar))) rfl
  · have hserves := h.tidy.serves b name ref
      ⟨_, mem_of_getElem? hcall, mem_map.mpr ⟨ref, mem_cons_self, rfl⟩⟩
    obtain rfl := hserves.2 n t ht hbc
    refine ⟨.active ref, l.grant_owner_of_mem _ (le_refl _) (Nat.lt_succ_self _),
      .inr (.inr ⟨_, Slots.mem_put_self hcall, ?_⟩)⟩
    rw [hbc]
    rfl

theorem Accounted.turnAttached {accepted b} (hok : s.keepsReceivers (.turn i accepted) = true)
    (hcall : s.calls[i]? = some (.attaching b name kind priority trackID q (ref :: refs))) :
    Placed (s.turnAttached ref i b name kind priority trackID refs q) l := by
  intro n t r ht hr
  simp only [keepsReceivers, hcall] at hok
  obtain ⟨o, ho, hat⟩ := h.placed n t r ht hr
  refine ⟨o, ho, hat.turn (fun _ hatt _ => attached_attach_of_some hatt) ?_ rfl⟩
  intro ref' ⟨c, hc, hcar⟩
  rcases Slots.mem_put_of_mem (o := some _) hcall hc with rfl | hother
  · -- The receiver this call carries is now attached.
    cases hcar
    exact .inl (attached_of_placeable hok ht hr)
  · exact .inr (.inr ⟨c, hother, hcar⟩)

theorem Accounted.turnDetached {accepted} (hok : s.keepsReceivers (.turn i accepted) = true)
    (hcall : s.calls[i]? = some (.removing t' (ref :: refs))) :
    Placed
      { s with
        server := s.server.onSession ref (fun sess => sess.detachTrack t'.name)
        calls := Slots.put s.calls i (some (.unannouncing t' (ref :: refs))) } l := by
  intro n t r (ht : s.server.tracks.lookup n = some t) (hr : r ∈ s.server.listed t.bc)
  simp only [keepsReceivers, hcall] at hok
  obtain ⟨o, ho, hat⟩ := h.placed n t r ht hr
  refine ⟨o, ho, hat.turn ?_
    (fun ref' hcar => .inr (.inr (carries_put (some _) hcall rfl rfl _ _ _ _ hcar))) rfl⟩
  intro ref' hatt _
  rw [Server.attached_detach, if_neg ?_]
  · exact hatt
  · rintro ⟨rfl, rfl⟩
    simp [detachable, hatt, ht, hr] at hok

theorem Accounted.placed_step {ev} (hok : s.keepsReceivers ev = true) (heff : Effect s l ev s' l') :
    Placed s' l' := by
  cases heff with
  | connected =>
    intro n t r ht hr
    obtain ⟨o, ho, hat⟩ := h.placed n t r ht hr
    refine ⟨o, ho, hat.session (h.tidy.unborn _ le_rfl) rfl rfl (fun ref' hne => ?_) nofun nofun nofun
      (fun _ _ hq _ => hq)⟩
    rw [Server.attached_addSession, if_neg hne]
  | evicted hstore hserver hphase hcalls => exact h.evicted hstore hserver hphase hcalls
  | resumed hphase hstore hentry hserver => exact h.resumed hphase hstore hentry hserver
  | subscribed hphase => exact h.subscribed hphase
  | attached hphase => exact h.attached hok hphase
  | snapped hphase => exact h.snapped hphase
  | decided hphase =>
    intro n t r ht hr
    obtain ⟨o, ho, hat⟩ := h.placed n t r ht hr
    exact ⟨o, ho, hat.session hphase rfl rfl (fun _ _ => rfl) (fun hatt hcov => ⟨hatt, hcov⟩) nofun nofun
      (fun _ _ hq _ => hq)⟩
  | held hphase => exact h.held hphase
  | released hphase => exact h.released hphase
  | parked hphase hpark => exact h.parked hok hphase hpark
  | removed hphase =>
    intro n t r ht hr
    obtain ⟨o, ho, hat⟩ := h.placed n t r ht hr
    exact ⟨o, ho, hat.session hphase rfl rfl (fun _ _ => rfl) nofun nofun nofun (fun _ _ hq _ => hq)⟩
  | @registered spec hnew =>
    intro n t r ht hr
    have hlisted := Server.listed_registerTrack hnew (Server.specKind spec)
      (Server.specPriority spec) spec.trackID
    obtain ⟨bc, recorders, -, hreg⟩ := Server.registerTrack_of_none hnew (Server.specKind spec)
      (Server.specPriority spec) spec.trackID
    rw [hlisted] at hr
    rw [hreg] at ht ⊢
    split at hr
    · cases hr
    · next hne =>
      rcases lookup_insert_eq_some_iff.mp ht with ⟨-, rfl⟩ | ⟨-, hold⟩
      · exact absurd rfl hne
      · obtain ⟨o, ho, hat⟩ := h.placed n t r hold hr
        refine ⟨o, ho, hat.turn (fun _ hatt _ => hatt) ?_ rfl⟩
        exact fun ref hcar => .inr (.inr (Slots.exists_snoc hcar))
  | unregistered hold =>
    intro n t r ht hr
    obtain ⟨o, ho, hat⟩ := h.placed n t r (lookup_erase_eq_some_iff.mp ht).2 hr
    refine ⟨o, ho, hat.turn (fun _ hatt _ => hatt) ?_ rfl⟩
    exact fun ref hcar => .inr (.inr (Slots.exists_snoc hcar))
  | turnSubscribed hcall => exact h.turnSubscribed hcall
  | turnAttached hcall => exact h.turnAttached hok hcall
  | turnDetached hcall => exact h.turnDetached hok hcall
  | turnClosed hcall =>
    intro n t r ht hr
    have hsub : r ∈ s.server.listed t.bc := by
      rw [Server.listed_close] at hr
      split at hr
      · cases hr
      · exact hr
    obtain ⟨o, ho, hat⟩ := h.placed n t r ht hsub
    exact ⟨o, ho, hat.turn (fun _ hatt _ => hatt)
      (fun ref' hcar => .inr (.inr (carries_put none hcall rfl rfl _ _ _ _ hcar))) rfl⟩

theorem Accounted.step {ev} (hok : s.keepsReceivers ev = true) (heff : Effect s l ev s' l') :
    Accounted s' l' where
  tidy := h.tidy.step heff
  hold := hold_step h.tidy h.hold heff
  placed := h.placed_step hok heff

end

end Step

/-! ## Runs -/

theorem accounted_of_reachable {codec cfg resumeWindow} :
    ∀ x, LTS.Reachable ((ledgerSystem codec cfg resumeWindow).restrict
      (fun x ev => x.1.keepsReceivers ev = true)) x → Accounted x.1 x.2 := by
  have htidy := tidy_start codec cfg resumeWindow
  refine LTS.invariant_restrict _ ⟨htidy, fun _ => holdOK_of_nil _ rfl,
    fun _ t r _ hr => absurd (htidy.born t.bc r hr) (Nat.not_lt_zero r)⟩ ?_
  intro x ev x' _ h hok hstep
  exact h.step hok (effect_of_step hstep)

def IsParked (s : Concurrent) (l : Ledger) (ref : SessionRef) : Prop :=
  ∃ key p, s.server.store.byID.lookup key = some p ∧
    ∃ x ∈ p.onEvict, l.owner x.2 = some (.stored ref key)

/-- **Nothing is left behind.** If no attach, detach or park loses a receiver: once a
    session is gone, nothing of it is parked, and all calls have returned, no broadcaster of
    a current track lists a receiver of the session. -/
theorem nothing_left_behind {codec : Codec} {cfg : ServerConfig} {resumeWindow : Int}
    {s : Concurrent} {l : Ledger} (h : LTS.Reachable ((ledgerSystem codec cfg resumeWindow).restrict
      (fun x ev => x.1.keepsReceivers ev = true)) (s, l))
    {ref : SessionRef} (hgone : s.isGone ref = true) (hparked : ¬ s.IsParked l ref)
    (hcalls : s.allReturned = true) :
    ∀ n t, s.server.tracks.lookup n = some t → ∀ r ∈ s.server.listed t.bc,
      ∃ o, l.owner r = some o ∧ o.session ≠ ref := by
  intro n t ht r hr
  obtain ⟨ok, hgone⟩ := isGone_iff.mp hgone
  obtain ⟨o, ho, hat⟩ : ∃ o, l.owner r = some o ∧ s.At n t r o :=
    (accounted_of_reachable _ h).placed n t r ht hr
  refine ⟨o, ho, ?_⟩
  refine hat.elim (P := fun o => l.owner r = some o → o.session ≠ ref) ?_ ?_ ?_ ?_ ?_ ho
  · intro ref' _ hcov _ heq
    obtain rfl : ref' = ref := heq
    rw [hgone] at hcov
    cases hcov
  · intro ref' hmem _ heq
    obtain rfl : ref' = ref := heq
    rw [hgone] at hmem
    cases hmem
  · intro ref' ⟨c, hc, hcar⟩ _ _
    -- Only an `AddTrackSpec` carries a receiver.
    rw [(Call.nothing_of_not_changesTracks (allReturned_iff.mp hcalls c hc)).1] at hcar
    cases hcar
  · intro ref' x hx _ _ _ heq
    obtain rfl : ref' = ref := heq
    rw [hgone] at hx
    cases hx
  · intro ref' key p hp _ hpair ho heq
    obtain rfl : ref' = ref := heq
    exact hparked ⟨key, p, hp, _, hpair, ho⟩

theorem not_isParked_of_empty {s : Concurrent} {l ref}
    (h : s.server.store.byID.entries.isEmpty = true) : ¬ s.IsParked l ref := by
  rintro ⟨key, p, hp, -⟩
  have hmem : ⟨key, p⟩ ∈ s.server.store.byID.entries := mem_entries_iff.mpr hp
  rw [isEmpty_iff.mp h] at hmem
  cases hmem

def handshakeRun (ref : SessionRef) (newID : GoString) : List Event :=
  [.connect, .session ref (.hello (plainClient [])), .session ref (.resume 0),
    .session ref (.allocate newID), .session ref .subscribe]

/-- The server is going down, so the session is not parked. -/
def goneRun (tracks : Nat) : List Event :=
  [.session 0 .leave, .session 0 .snapshot, .session 0 (.decide true)] ++
    List.replicate tracks (.session 0 .release) ++ [.session 0 (.park 0 0), .session 0 .remove]

/-- A track is added; the session is parked and expires, and another session is there. -/
def parkedRun : List Event :=
  handshakeRun 0 (str "a") ++
    [.session 0 .attach, .session 0 .offer, .session 0 (.reply true), .session 0 .start,
      .addTrackSpec ⟨str "audio", .audio, 0, 0⟩, .turn 1 true, .turn 1 true, .turn 1 true,
      .turn 1 true, .session 0 .leave, .session 0 .snapshot, .session 0 (.decide false),
      .session 0 .hold, .session 0 .hold, .session 0 .hold, .session 0 .release,
      .session 0 .release, .session 0 (.park 0 0), .session 0 .remove] ++
    handshakeRun 1 (str "b") ++ [.evictExpired 60000000001]

theorem nothing_left_behind_parkedRun :
    ∃ s l, LTS.Reachable ((ledgerSystem plainCodec plainConfig 0).restrict
        (fun x ev => x.1.keepsReceivers ev = true)) (s, l) ∧
      s.isGone 0 = true ∧ ¬ s.IsParked l 0 ∧ s.allReturned = true ∧
      (∃ t r, s.server.tracks.lookup (str "audio") = some t ∧ r ∈ s.server.listed t.bc) ∧
      ∀ n t, s.server.tracks.lookup n = some t → ∀ r ∈ s.server.listed t.bc,
        ∃ o, l.owner r = some o ∧ o.session ≠ 0 := by
  obtain ⟨⟨s, l⟩, hs, hp⟩ := LTS.exists_reachable (start plainCodec plainConfig 0, Ledger.empty)
    (LTS.withHistory (next plainCodec) Ledger.record) (fun x ev => x.1.keepsReceivers ev)
    (fun x => x.1.isGone 0 && x.1.server.store.byID.entries.isEmpty && x.1.allReturned &&
      (x.1.server.tracks.lookup (str "audio")).any (fun t => (x.1.server.listed t.bc).any (fun _ => true)))
    parkedRun (by decide +kernel)
  simp only [Bool.and_eq_true] at hp
  obtain ⟨⟨⟨hgone, hempty⟩, hcalls⟩, hlisted⟩ := hp
  have hparked : ¬ s.IsParked l 0 := not_isParked_of_empty hempty
  refine ⟨s, l, hs, hgone, hparked, hcalls, ?_, nothing_left_behind hs hgone hparked hcalls⟩
  obtain ⟨t, ht, hany⟩ := (any_eq_true _ _).mp hlisted
  obtain ⟨r, hr, -⟩ := any_eq_true.mp hany
  exact ⟨t, r, ht, hr⟩

/-- `AddTrackSpec` attaches its receiver before the handshake attaches its own. -/
def doubleRun : List Event :=
  (handshakeRun 0 (str "a")).take 4 ++
    [.addTrackSpec ⟨str "audio", .audio, 0, 0⟩, .session 0 .subscribe, .turn 0 true, .turn 0 true,
      .turn 0 true, .turn 0 true, .session 0 .attach, .session 0 .attach, .session 0 .offer,
      .session 0 (.reply true), .session 0 .start] ++ goneRun 2

/-- `AddTrackSpec` comes after the session has ended. -/
def lateRun : List Event :=
  handshakeRun 0 (str "a") ++
    [.session 0 .attach, .session 0 .offer, .session 0 (.reply true), .session 0 .start,
      .addTrackSpec ⟨str "audio", .audio, 0, 0⟩] ++ goneRun 2 ++
    [.turn 1 true, .turn 1 true, .turn 1 true, .turn 1 true]

/-- Every call returned and the first session is over and not parked, but a current
    broadcaster still has a receiver of it. -/
def LeavesReceiver (run : List Event) : Prop :=
  ∃ s l, LTS.run (LTS.withHistory (next plainCodec) Ledger.record) (fun _ _ => true)
      (start plainCodec plainConfig 0, Ledger.empty) run = some (s, l) ∧
    LTS.Reachable (ledgerSystem plainCodec plainConfig 0) (s, l) ∧
    s.isGone 0 = true ∧ ¬ s.IsParked l 0 ∧ s.allReturned = true ∧
    ∃ n t r, s.server.tracks.lookup n = some t ∧ r ∈ s.server.listed t.bc ∧
      l.owner r = some (.active 0)

def leavesReceiver (x : Concurrent × Ledger) : Bool :=
  x.1.isGone 0 && x.1.server.store.byID.entries.isEmpty && x.1.allReturned &&
    (x.1.server.tracks.lookup (str "audio")).any (fun t =>
      (x.1.server.listed t.bc).any (fun r => x.2.owner r == some (.active 0)))

theorem leavesReceiver_of_run {run}
    (h : (LTS.run (LTS.withHistory (next plainCodec) Ledger.record) (fun _ _ => true)
      (start plainCodec plainConfig 0, Ledger.empty) run).any leavesReceiver = true) :
    LeavesReceiver run := by
  obtain ⟨⟨s, l⟩, heq, hlast⟩ := (any_eq_true _ _).mp h
  simp only [leavesReceiver, Bool.and_eq_true] at hlast
  obtain ⟨⟨⟨hgone, hempty⟩, hcalls⟩, hlisted⟩ := hlast
  obtain ⟨t, ht, hany⟩ := (any_eq_true _ _).mp hlisted
  obtain ⟨r, hr, howner⟩ := any_eq_true.mp hany
  exact ⟨s, l, heq, (LTS.reachable_of_run heq).of_restrict, hgone, not_isParked_of_empty hempty,
    hcalls, _, t, r, ht, hr, beq_iff_eq.mp howner⟩

/-- A track is added while the client connects, and while it leaves. -/
theorem receiver_left_behind : LeavesReceiver doubleRun ∧ LeavesReceiver lateRun :=
  ⟨leavesReceiver_of_run (by decide +kernel), leavesReceiver_of_run (by decide +kernel)⟩

/-! ## One place for a receiver -/

def InEntry (receivers : GoMap ReceiverId) (onEvict : OnEvict) (r : ReceiverId) : Prop :=
  (∃ n, receivers.lookup n = some r) ∨ ∃ b, (b, r) ∈ onEvict

/-- With a session, attached or on the way, or in the store. -/
def Keeps (s : Concurrent) (r : ReceiverId) : SessionRef ⊕ GoString → Prop
  | .inl ref =>
    (∃ n, s.server.attached ref n = some r ∨ ⟨n, r⟩ ∈ (s.phase ref).todo ∨ ∃ b, s.Carries b n r ref) ∨
      ∃ x ∈ (s.phase ref).entry, InEntry x.1 x.2 r
  | .inr key => ∃ p, s.server.store.byID.lookup key = some p ∧ InEntry p.receivers p.onEvict r

theorem Sound.place {s l} (h : Sound s l) {r a} (ha : s.Keeps r a) :
    ∃ o, l.owner r = some o ∧ o.place = a := by
  cases a with
  | inl ref =>
    rcases ha with ⟨n, hr | hr | ⟨b, hr⟩⟩ | ⟨x, hx, ⟨n, hr⟩ | ⟨b, hr⟩⟩
    · exact ⟨_, h.attached _ _ _ hr, rfl⟩
    · exact ⟨_, (h.phase ref).todo _ hr, rfl⟩
    · exact ⟨_, h.carried _ _ _ _ hr, rfl⟩
    · exact ⟨_, (h.phase ref).receivers x hx n r hr, rfl⟩
    · exact ⟨_, (h.phase ref).onEvict x hx _ hr, rfl⟩
  | inr key =>
    obtain ⟨p, hp, hr⟩ := ha
    obtain ⟨ref, ho⟩ : ∃ ref, l.owner r = some (.stored ref key) :=
      hr.elim (fun ⟨n, hr⟩ => (h.stored key p hp).receivers n r hr)
        (fun ⟨_, hr⟩ => (h.stored key p hp).onEvict _ hr)
    exact ⟨_, ho, rfl⟩

theorem exists_sound {codec cfg resumeWindow s}
    (h : LTS.Reachable (concurrentSystem codec cfg resumeWindow) s) : ∃ l, Tidy s ∧ Sound s l := by
  obtain ⟨l, hl⟩ := LTS.exists_history Ledger.record Ledger.empty h
  exact ⟨l, sound_of_reachable _ hl⟩

/-- **One place for a receiver.** None is with two sessions, with a session and in the
    store, or in two entries. -/
theorem receivers_exclusive {codec : Codec} {cfg : ServerConfig} {resumeWindow : Int}
    {s : Concurrent} (h : LTS.Reachable (concurrentSystem codec cfg resumeWindow) s) :
    ∀ r a b, s.Keeps r a → s.Keeps r b → a = b := by
  intro r a b ha hb
  obtain ⟨l, -, hsound⟩ := exists_sound h
  obtain ⟨o, ho, rfl⟩ := hsound.place ha
  obtain ⟨o', ho', rfl⟩ := hsound.place hb
  rw [ho] at ho'
  exact congrArg Owner.place (some.inj ho')

theorem receivers_exclusive_parkedRun :
    ∃ s, LTS.Reachable (concurrentSystem plainCodec plainConfig 0) s ∧
      ((s.server.attached 1 (str "audio")).isSome = true ∧
        s.server.store.byID.entries.isEmpty = false) ∧
      ∀ r a b, s.Keeps r a → s.Keeps r b → a = b :=
  LTS.exists_run_imp (parkedRun.dropLast ++ [.session 1 .attach, .session 1 .attach])
    (fun s hs hp => ⟨hp, receivers_exclusive hs⟩) (by decide +kernel)

/-- **One broadcaster for a name.** No two current tracks share one, no `RemoveTrack` is
    about to close that of a current track, and no `AddTrackSpec` to subscribe sessions to
    that of another name. -/
theorem broadcasters_exclusive {codec : Codec} {cfg : ServerConfig} {resumeWindow : Int}
    {s : Concurrent} (h : LTS.Reachable (concurrentSystem codec cfg resumeWindow) s) :
    s.server.TableOK ∧ (∀ b, s.WillClose b → Retired s.server b) ∧
      ∀ b n ref, s.WillSubscribe b n ref → Serves s.server b n := by
  obtain ⟨_, htidy, -⟩ := exists_sound h
  exact ⟨htidy.table, htidy.retired, htidy.serves⟩

theorem broadcasters_exclusive_readded :
    ∃ s, LTS.Reachable (concurrentSystem plainCodec plainConfig 0) s ∧
      (s.calls.any (fun c => c.closes.isSome) = true ∧
        (s.server.tracks.lookup (str "audio")).isSome = true) ∧
      ∀ b, s.WillClose b → Retired s.server b :=
  LTS.exists_run_imp [.addTrackSpec ⟨str "audio", .audio, 0, 0⟩, .removeTrack (str "audio"),
    .addTrackSpec ⟨str "audio", .audio, 0, 0⟩]
    (fun s hs hp => ⟨hp, (broadcasters_exclusive hs).2.1⟩) (by decide +kernel)

end Concurrent

end QuicRTC

import QuicRTC.Session.Inbound

/-! # Authorization of Inbound Tracks

With `OnAnnounce` set, `drainInboundStream` is to feed only tracks that are announced and
authorized. It tests this at its gate and looks the entry up afterwards, in a critical section of
its own. Between the two the control reader may remove the entry or reject it.
-/

namespace QuicRTC

open Wire LTS List Registry

namespace Inbound

/-! ## What the gate saw stays so -/

def Keeps (old new : Registry InboundTrack) : Prop :=
  ∀ n t, old.lookup n = some t → new.lookup n = some t ∧
    (new.cell t).announced = (old.cell t).announced ∧
    (new.cell t).authorized = (old.cell t).authorized

theorem Keeps.refl (tracks : Registry InboundTrack) : Keeps tracks tracks :=
  fun _ _ h => ⟨h, rfl, rfl⟩

theorem keeps_getOrAdd (tracks : Registry InboundTrack) (name : GoString) (e : InboundTrack) :
    Keeps tracks (tracks.getOrAdd name e).2 := by
  intro n t hn
  cases h : tracks.lookup name with
  | some r =>
    rw [getOrAdd_of_some e h]
    exact ⟨hn, rfl, rfl⟩
  | none =>
    rw [getOrAdd_of_none e h, cell_add_of_lt _ _ _ (lookup_lt hn)]
    exact ⟨lookup_add_of_some h hn, rfl, rfl⟩

theorem keeps_modify (tracks : Registry InboundTrack) (t : Nat) (f : InboundTrack → InboundTrack)
    (hann : (f (tracks.cell t)).announced = (tracks.cell t).announced)
    (hauth : (f (tracks.cell t)).authorized = (tracks.cell t).authorized) :
    Keeps tracks (tracks.modify t f) := by
  intro n r hn
  refine ⟨hn, ?_⟩
  rw [cell_modify]
  split
  · next heq =>
    subst heq
    exact ⟨hann, hauth⟩
  · exact ⟨rfl, rfl⟩

theorem keeps_send {tracks : Registry InboundTrack} {t au e} (h : (tracks.cell t).send au = some e) :
    Keeps tracks (tracks.modify t (fun _ => e)) := by
  obtain ⟨hann, hauth, -⟩ := InboundTrack.send_spec h
  exact keeps_modify tracks t _ hann hauth

theorem keeps_receive {tracks : Registry InboundTrack} {t au e}
    (h : (tracks.cell t).receive = some (au, e)) : Keeps tracks (tracks.modify t (fun _ => e)) := by
  obtain ⟨hann, hauth, -⟩ := InboundTrack.receive_spec h
  exact keeps_modify tracks t _ hann hauth

theorem admits_iff {s : Inbound} {n} :
    s.admits n = true ↔ ∃ t, s.inboundTracks.lookup n = some t ∧
      (s.inboundTracks.cell t).announced = true ∧ (s.inboundTracks.cell t).authorized = true := by
  unfold admits
  split
  · next h => simp [h]
  · next t h => simp [h]

theorem Keeps.admits {s s' : Inbound} (h : Keeps s.inboundTracks s'.inboundTracks) {n}
    (hn : s.admits n = true) : s'.admits n = true := by
  obtain ⟨t, ht, hann, hauth⟩ := admits_iff.mp hn
  obtain ⟨ht', hann', hauth'⟩ := h n t ht
  exact admits_iff.mpr ⟨t, ht', hann'.trans hann, hauth'.trans hauth⟩

/-! ## The gate over whole runs -/

/-- No stream of the track is between its gate and its lookup. -/
def clear (s : Inbound) (n : GoString) : Bool :=
  s.drains.all (fun d => decide (d ≠ .passed n))

/-- The control reader removes or rejects a track only while no stream of it is between its
    gate and its lookup. -/
def undisturbed (s : Inbound) : Step → Bool
  | .unannounce u => s.clear u.name
  | .record =>
    match s.reader with
    | .recording a _ false => s.clear a.name
    | _ => true
  | _ => true

theorem not_passed_of_clear {s : Inbound} {n} (h : s.clear n = true) :
    Drain.passed n ∉ s.drains := by
  intro hmem
  have := all_eq_true.mp h _ hmem
  exact absurd rfl (of_decide_eq_true this)

/-- Every entry a stream obtained was announced and authorized then, and no stream made one.
    -/
def OnlyAuthorized (s : Inbound) : Prop :=
  ∀ o ∈ s.obtained, o.announced = true ∧ o.authorized = true ∧ o.created = false

structure Gate (s : Inbound) : Prop where
  gated : s.gated = true
  /-- It is still the one the Announce found. -/
  recording : ∀ a t ok, s.reader = .recording a t ok → s.inboundTracks.lookup a.name = some t
  passed : ∀ n, Drain.passed n ∈ s.drains → s.admits n = true
  obtained : OnlyAuthorized s

namespace Gate

variable {s : Inbound}

theorem of_keeps {s' : Inbound} (h : Gate s) (hkeeps : Keeps s.inboundTracks s'.inboundTracks)
    (hgated : s'.gated = s.gated) (hreader : s'.reader = s.reader)
    (hdrains : ∀ n, Drain.passed n ∈ s'.drains → Drain.passed n ∈ s.drains)
    (hobtained : s'.obtained = s.obtained) : Gate s' where
  gated := hgated.trans h.gated
  recording := fun a t ok hr => (hkeeps _ _ (h.recording a t ok (hreader ▸ hr))).1
  passed := fun n hn => hkeeps.admits (h.passed n (hdrains n hn))
  obtained := fun o ho => h.obtained o (hobtained ▸ ho)

theorem passed_of_set {drains : List Drain} {i d n} (hd : d ≠ .passed n)
    (h : Drain.passed n ∈ drains.set i d) : Drain.passed n ∈ drains :=
  (mem_or_eq_of_mem_set h).resolve_right (fun heq => hd heq.symm)

theorem handleAnnounce (h : Gate s) (a : Announce) (verdict : Option GoString) :
    Gate (s.handleAnnounce a verdict) := by
  -- whatever the verdict, either nothing but the error is new or the lookup ran
  have hlookup : ∀ errors t tracks ok, inboundTrackChanWire s.inboundTracks a.name = some (t, tracks) →
      Gate { s with errors := errors, inboundTracks := tracks, reader := .recording a t ok } := by
    intro errors t tracks ok hwire
    obtain ⟨rfl, rfl⟩ := Prod.mk.inj (inboundTrackChanWire_spec hwire)
    have hkeeps := keeps_getOrAdd s.inboundTracks a.name (.fresh a.name)
    refine ⟨h.gated, ?_, fun n hn => Keeps.admits hkeeps (h.passed n hn), h.obtained⟩
    intro a' t' ok' hr
    obtain ⟨rfl, rfl, -⟩ := Reader.recording.inj hr
    exact lookup_getOrAdd _ _ _
  have herror : ∀ errors, Gate { s with errors := errors } := fun errors =>
    h.of_keeps (Keeps.refl _) rfl rfl (fun _ hn => hn) rfl
  unfold Inbound.handleAnnounce
  split
  · split
    · exact herror _
    · next hwire => exact hlookup _ _ _ _ hwire
  · split
    · exact herror _
    · next hwire => exact hlookup _ _ _ _ hwire

theorem recordAnnounce (h : Gate s) {a t ok} (hreader : s.reader = .recording a t ok)
    (hclear : ok = false → s.clear a.name = true) : Gate (s.recordAnnounce a t ok) := by
  have ha := h.recording a t ok hreader
  refine ⟨h.gated, fun a' t' ok' hr => Reader.noConfusion hr, fun n hn => ?_, h.obtained⟩
  by_cases hna : n = a.name
  · -- a stream of this very track is past its gate, so it was accepted
    subst hna
    cases ok with
    | false => exact absurd hn (not_passed_of_clear (hclear rfl))
    | true =>
      refine admits_iff.mpr ⟨t, ha, ?_⟩
      simp [Inbound.recordAnnounce, InboundTrack.record]
  · obtain ⟨r, hr, hflags⟩ := admits_iff.mp (h.passed n hn)
    refine admits_iff.mpr ⟨r, hr, ?_⟩
    have hne : r ≠ t := fun heq => hna (lookup_inj (heq ▸ hr) ha)
    simp only [Inbound.recordAnnounce, cell_modify_of_ne _ _ hne]
    exact hflags

theorem handleUnannounce (h : Gate s) {u : Unannounce} (hidle : s.reader = .idle)
    (hclear : s.clear u.name = true) : Gate (s.handleUnannounce u) := by
  unfold Inbound.handleUnannounce
  split
  · exact h.of_keeps (Keeps.refl _) rfl rfl (fun _ hn => hn) rfl
  · next t ht =>
    refine ⟨h.gated, fun a' t' ok' hr => ?_, fun n hn => ?_, h.obtained⟩
    · rw [hidle] at hr
      cases hr
    · have hne : n ≠ u.name := by
        rintro rfl
        exact not_passed_of_clear hclear hn
      obtain ⟨r, hr, hflags⟩ := admits_iff.mp (h.passed n hn)
      refine admits_iff.mpr ⟨r, lookup_remove_eq_some_iff.mpr ⟨hne, hr⟩, ?_⟩
      have hrt : r ≠ t := fun heq => hne (lookup_inj (heq ▸ hr) ht)
      simp only [cell_remove, cell_modify_of_ne _ _ hrt]
      exact hflags

theorem gate (h : Gate s) (i : Nat) (track : GoString) : Gate (s.gate i track) := by
  unfold Inbound.gate
  split
  · exact h.of_keeps (Keeps.refl _) rfl rfl (fun _ hn => passed_of_set Drain.noConfusion hn) rfl
  · next hadmit =>
    refine ⟨h.gated, h.recording, fun n hn => ?_, h.obtained⟩
    rcases mem_or_eq_of_mem_set hn with hold | hnew
    · exact h.passed n hold
    · obtain rfl := Drain.passed.inj hnew
      rw [h.gated, Bool.true_and, Bool.not_eq_true', Bool.not_eq_false] at hadmit
      exact hadmit

theorem lookupTrack (h : Gate s) {i track} (hpassed : Drain.passed track ∈ s.drains) :
    Gate (s.lookupTrack i track) := by
  obtain ⟨t, ht, hann, hauth⟩ := admits_iff.mp (h.passed track hpassed)
  have hwire : inboundTrackChanWire s.inboundTracks track = some (t, s.inboundTracks) := by
    unfold inboundTrackChanWire
    rw [ht]
  unfold Inbound.lookupTrack
  rw [hwire]
  refine ⟨h.gated, h.recording, fun n hn => ?_, fun o ho => ?_⟩
  · exact h.passed n (passed_of_set Drain.noConfusion hn)
  · rcases Slots.mem_snoc ho with hold | rfl
    · exact h.obtained o hold
    · exact ⟨hann, hauth, by rw [ht]; rfl⟩

theorem step {st s'} (h : Gate s) (hok : s.undisturbed st = true) (hstep : Effect s st s') :
    Gate s' := by
  cases hstep with
  | announce => exact h.handleAnnounce _ _
  | @record a t ok hreader =>
    refine h.recordAnnounce hreader ?_
    rintro rfl
    simpa only [undisturbed, hreader] using hok
  | unannounce hidle => exact h.handleUnannounce hidle hok
  | stream =>
    refine h.of_keeps (Keeps.refl _) rfl rfl (fun n hn => ?_) rfl
    exact (Slots.mem_snoc hn).resolve_right (fun hnew => by cases hnew)
  | gate => exact h.gate _ _
  | lookup hpassed => exact h.lookupTrack hpassed
  | stop => exact h.of_keeps (Keeps.refl _) rfl rfl (fun _ => passed_of_set Drain.noConfusion) rfl
  | drop => exact h
  -- the remaining steps leave the streams alone and keep the flags
  | enqueue _ hsent => exact h.of_keeps (keeps_send hsent) rfl rfl (fun _ hn => hn) rfl
  | recv => exact h.of_keeps (keeps_getOrAdd _ _ _) rfl rfl (fun _ hn => hn) rfl
  | take _ _ hrecv => exact h.of_keeps (keeps_receive hrecv) rfl rfl (fun _ hn => hn) rfl
  | drained _ _ hrecv => exact h.of_keeps (keeps_receive hrecv) rfl rfl (fun _ hn => hn) rfl
  | seeDone => exact h.of_keeps (Keeps.refl _) rfl rfl (fun _ hn => hn) rfl
  | ended => exact h.of_keeps (Keeps.refl _) rfl rfl (fun _ hn => hn) rfl
  | cancel => exact h.of_keeps (Keeps.refl _) rfl rfl (fun _ hn => hn) rfl

end Gate

theorem gate_of_reachable :
    ∀ s, Reachable ((inboundSystem true).restrict (fun s st => s.undisturbed st = true)) s →
      Gate s := by
  refine invariant_restrict _ ⟨rfl, nofun, nofun, nofun⟩ ?_
  intro s st s' _ h hok hstep
  exact h.step hok (effect_of_next hstep)

/-! ## Only authorized entries are obtained -/

/-- **Inbound authorization.** If no track is removed or rejected while a stream of it is
    between its gate and its lookup, streams obtain only authorized entries. -/
theorem onlyAuthorized_of_undisturbed {s : Inbound}
    (h : Reachable ((inboundSystem true).restrict (fun s st => s.undisturbed st = true)) s) :
    OnlyAuthorized s :=
  (gate_of_reachable s h).obtained

def publishBack : List Step :=
  [.announce ⟨str "cam", str "video", []⟩ none, .record, .stream (str "cam"), .gate 0, .lookup 0,
    .enqueue 0 ⟨typeKeyframe, 0, 1, 0, 0, []⟩, .recv (str "cam"), .take 0, .unannounce ⟨str "cam"⟩]

theorem onlyAuthorized_publishBack :
    ∃ s, Reachable ((inboundSystem true).restrict (fun s st => s.undisturbed st = true)) s ∧
      s.obtained = [⟨0, true, true, false⟩] ∧ OnlyAuthorized s :=
  exists_run_given_imp publishBack (fun s hs (hobt : s.obtained = [⟨0, true, true, false⟩]) =>
    ⟨hobt, onlyAuthorized_of_undisturbed hs⟩) (by decide)

def unannouncedAfterGate : List Step :=
  [.announce ⟨str "cam", str "video", []⟩ none, .record, .stream (str "cam"), .gate 0,
    .unannounce ⟨str "cam"⟩, .lookup 0]

def rejectedAfterGate : List Step :=
  [.announce ⟨str "cam", str "video", []⟩ none, .record, .stream (str "cam"), .gate 0,
    .announce ⟨str "cam", str "audio", []⟩ (some (str "denied")), .record, .lookup 0]

/-- The stream makes an entry that nobody announced, or gets a rejected one. -/
theorem unauthorized_obtained :
    (∃ s, Reachable (inboundSystem true) s ∧
      s.obtained = [⟨1, false, false, true⟩] ∧ ¬ OnlyAuthorized s) ∧
    ∃ s, Reachable (inboundSystem true) s ∧
      s.obtained = [⟨0, true, false, false⟩] ∧ ¬ OnlyAuthorized s := by
  constructor
  · refine exists_run_imp unannouncedAfterGate
      (fun s hs (hobt : s.obtained = [⟨1, false, false, true⟩]) => ⟨hobt, fun h => ?_⟩) (by decide)
    exact absurd (h ⟨1, false, false, true⟩ (hobt ▸ mem_singleton_self _)).1 (by decide)
  · refine exists_run_imp rejectedAfterGate
      (fun s hs (hobt : s.obtained = [⟨0, true, false, false⟩]) => ⟨hobt, fun h => ?_⟩) (by decide)
    exact absurd (h ⟨0, true, false, false⟩ (hobt ▸ mem_singleton_self _)).2.1 (by decide)

end Inbound

end QuicRTC

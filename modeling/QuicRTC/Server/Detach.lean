import QuicRTC.Server.RecorderChains

/-! # What Attaching and Detaching a Recorder leave behind

A current track has one interceptor of each attached recorder (`recorder_attached_once`), and a
detached one is written to no more (`detach_final`), on a condition: `detachers` has one place for a
name, and a track removed and added again has another broadcaster.
-/

namespace QuicRTC

open LTS Function List Option Slots GoMap

namespace Recording

/-! ## What the interceptors write -/

/-- An interceptor on a current track writes its name and kind to the recorder of its call.
    -/
def Named (s : Recording) : Prop :=
  ∀ b id x, (id, x) ∈ (s.hooks b).entries →
    (∀ name t, s.tracks.lookup name = some t → t.bc = b →
      x.name = name ∧ x.kind = t.kind.toGoString) ∧
    ∀ rec, (s.entry x.call).recorder = some rec → x.recorder = rec

namespace Named

variable {s s' : Recording}

theorem of_sub (hn : s.Named) (hhooks : ∀ b p, p ∈ (s'.hooks b).entries → p ∈ (s.hooks b).entries)
    (htracks : ∀ name t, s'.tracks.lookup name = some t → s.tracks.lookup name = some t)
    (hentry : ∀ c rec, (s'.entry c).recorder = some rec → (s.entry c).recorder = some rec) :
    s'.Named := by
  intro b id x hx
  obtain ⟨hname, hrec⟩ := hn b id x (hhooks b _ hx)
  exact ⟨fun name t ht => hname name t (htracks name t ht), fun rec he => hrec rec (hentry _ rec he)⟩

theorem create (hn : s.Named) (h : s.Ok) (name : GoString) (kind : Kind)
    (priority trackID : UInt8) : (s.createTrack name kind priority trackID).Named := by
  intro b id x hx
  by_cases hb : b = s.nextBroadcaster
  · subst hb
    have ha := h.attached_create (rfl : _ = s.createTrack name kind priority trackID)
    rcases ha.only id x hx with hold | ⟨k, e, rec, he, hrec, rfl, -⟩
    · cases hold
    · constructor
      · intro n t ht hbc
        rcases lookup_insert_eq_some_iff.mp ht with ⟨rfl, rfl⟩ | ⟨-, hold⟩
        · exact ⟨rfl, rfl⟩
        · exact absurd hbc (Nat.ne_of_lt (h.table n t hold))
      · intro rec' hrec'
        have hentry : s.entry k = e := by unfold entry; rw [he]; rfl
        rw [h.recorder_create rfl, Nat.zero_add, hentry, hrec] at hrec'
        exact some.inj hrec'
  · have hhooks : (s.createTrack name kind priority trackID).hooks b = s.hooks b :=
      update_of_ne hb _ _
    rw [hhooks] at hx
    obtain ⟨hname, hrec⟩ := hn b id x hx
    constructor
    · intro n t ht hbc
      rcases lookup_insert_eq_some_iff.mp ht with ⟨rfl, rfl⟩ | ⟨-, hold⟩
      · exact absurd hbc.symm hb
      · exact hname n t hold hbc
    · rw [h.recorder_create rfl]
      exact hrec

theorem attach (hn : s.Named) (h : s.Ok) (rec : Nat) : (s.attachRecorder rec).Named := by
  obtain ⟨hother, _, hentry, -, hhere⟩ := h.attach_loop rec
  -- an interceptor that was there belongs to an earlier call
  have hold : ∀ b id x, (id, x) ∈ (s.hooks b).entries →
      (∀ name t, s.tracks.lookup name = some t → t.bc = b →
        x.name = name ∧ x.kind = t.kind.toGoString) ∧
      ∀ r, ((s.attachRecorder rec).entry x.call).recorder = some r → x.recorder = r := by
    intro b id x hx
    have hlt := h.past x.call b id ⟨x, hx, rfl⟩
    rw [hentry, if_neg (Nat.ne_of_lt hlt)]
    exact hn b id x hx
  intro b id x hx
  by_cases hcur : ∃ name t, s.tracks.lookup name = some t ∧ t.bc = b
  · obtain ⟨name, t, ht, rfl⟩ := hcur
    rw [(hhere name t ht).1, (h.chain t.bc).entries_add] at hx
    rcases mem_snoc hx with hx | hnew
    · exact hold t.bc id x hx
    · cases hnew
      constructor
      · intro n t' ht' hbc
        obtain rfl := h.apart n name t' t ht' ht hbc
        obtain rfl := mem_unique ht' ht
        exact ⟨rfl, rfl⟩
      · intro r hr
        rw [hentry, if_pos rfl] at hr
        exact some.inj hr
  · rw [hother b (fun name t ht heq => hcur ⟨name, t, ht, heq⟩)] at hx
    exact hold b id x hx

theorem step (hn : s.Named) (h : s.Ok) {l} (he : Effect s l s') : s'.Named := by
  cases he with
  | created spec _ _ => exact hn.create h _ _ _ _
  | removed name =>
    exact hn.of_sub (fun _ _ hp => hp) (sub_erase s.tracks name) (fun _ _ hr => hr)
  | attached rec _ => exact hn.attach h rec
  | lifted c e hd he =>
    refine hn.of_sub (fun _ _ hp => hp) (fun _ _ ht => ht) ?_
    intro j rec hr
    rw [entry_lifted he j] at hr
    split at hr
    · cases hr
    · exact hr
  | unhooked c k b id rest hd hk =>
    refine hn.of_sub ?_ (fun _ _ ht => ht) (fun _ _ hr => hr)
    intro b' p hp
    change p ∈ (update s.hooks b _ b').entries at hp
    by_cases hb : b' = b
    · subst hb
      rw [update_self] at hp
      exact ((h.chain b').mem_entries_remove.mp hp).1
    · rwa [update_of_ne hb] at hp
  | _ => exact hn

end Named

theorem named_of_reachable {s} (h : Reachable recordingSystem s) : s.Named := by
  refine invariant_ofFun Recording.Named ?_ ?_ s h
  · refine Named.create ?_ ok_bare _ _ _ _
    intro b id x hx
    cases hx
  · intro s l s' hs hn hstep
    exact hn.step (ok_of_reachable hs) (effect_of_next hstep)

/-! ## Attached once -/

section once

variable {s : Recording} {c : Nat} {name : GoString} {t : TrackEntry}

def ofCall (c : Nat) (l : List RecordHook) : List RecordHook :=
  l.filter (fun x => x.call = c)

theorem Ok.ofCall_eq (h : s.Ok) {b id x} (hx : (id, x) ∈ (s.hooks b).entries) :
    ofCall x.call (s.hooks b).interceptors = [x] := by
  have hmem : x ∈ (s.hooks b).interceptors := by
    rw [← (h.chain b).map_snd]
    exact mem_map_of_mem hx
  exact filter_key_eq (h.single b) hmem

theorem Ok.ofCall_eq_nil (h : s.Ok) {b} (hno : ∀ id, ¬ s.Installed c b id) :
    ofCall c (s.hooks b).interceptors = [] := by
  apply filter_eq_nil_iff.mpr
  intro x hx hcall
  rw [← (h.chain b).map_snd] at hx
  obtain ⟨⟨id, x'⟩, hmem, rfl⟩ := mem_map.mp hx
  exact hno id ⟨x', hmem, of_decide_eq_true hcall⟩

theorem Ok.handles_done (h : s.Ok) (hd : s.detach[c]? = some .done) : s.handles c = [] := by
  have hphase := phase_eq hd
  have hnone : (s.entry c).recorder = none := by
    have := h.slot c
    rw [hphase] at this
    exact not_isSome_iff_eq_none.mp (Bool.eq_false_iff.mp this)
  unfold handles
  rw [h.lifted c hnone, hphase]
  rfl

end once

end Recording

/-- **One interceptor for a recorder and a track.** -/
theorem recorder_attached_once {s : Recording} (h : Reachable recordingSystem s) (c : Nat)
    {name : GoString} {t : TrackEntry} (ht : s.tracks.lookup name = some t) :
    (s.detach[c]? = some .waiting → ∃ rec detachers, s.recorders[c]? = some ⟨some rec, detachers⟩ ∧
      Recording.ofCall c (s.hooks t.bc).interceptors = [⟨c, rec, name, t.kind.toGoString⟩]) ∧
    (s.detach[c]? = some .done → Recording.ofCall c (s.hooks t.bc).interceptors = []) := by
  have hok := Recording.ok_of_reachable h
  constructor
  · intro hd
    -- the entry is in its slot, and what it has for the name is in the chain
    have hsome : (s.entry c).recorder.isSome := by
      rw [hok.slot c, Recording.phase_eq hd]
      rfl
    obtain ⟨id, -, x, hx, hcall⟩ := hok.live c name t hsome ht
    obtain ⟨rec, hrec⟩ := isSome_iff_exists.mp hsome
    obtain ⟨hname, hto⟩ := Recording.named_of_reachable h t.bc id x hx
    obtain ⟨hn, hk⟩ := hname name t ht rfl
    obtain ⟨⟨recorder, detachers⟩, he⟩ : ∃ e, s.recorders[c]? = some e := by
      have hlt := lt_of_getElem? hd
      rw [hok.slots] at hlt
      exact ⟨_, getElem?_eq_getElem hlt⟩
    have hentry : s.entry c = ⟨recorder, detachers⟩ := by
      unfold Recording.entry
      rw [he]
      rfl
    have hone := hok.ofCall_eq hx
    rw [hcall] at hone hto
    rw [hentry] at hrec
    obtain rfl : recorder = some rec := hrec
    refine ⟨rec, detachers, he, hone.trans ?_⟩
    have hto := hto rec (by rw [hentry])
    rw [← hcall, ← hto, ← hn, ← hk]
  · intro hd
    apply hok.ofCall_eq_nil
    intro id hin
    have hmem := hok.held c name t id ht hin
    rw [hok.handles_done hd] at hmem
    cases hmem

theorem recorder_attached_once_two : ∃ s t, Reachable recordingSystem s ∧
    s.tracks.lookup (str "tokens") = some t ∧ s.detach[0]? = some .done ∧
    s.detach[1]? = some .waiting ∧
    Recording.ofCall 0 (s.hooks t.bc).interceptors = [] ∧
    Recording.ofCall 1 (s.hooks t.bc).interceptors = [⟨1, 8, str "tokens", str "tokens"⟩] := by
  have hrun : ∃ s, Reachable recordingSystem s ∧
      (s.tracks.lookup (str "tokens")).map (·.kind) = some .tokens ∧ s.detach[0]? = some .done ∧
      s.detach[1]? = some .waiting ∧ s.recorders[1]?.map RecorderEntry.recorder = some (some 8) :=
    exists_run [.attachRecorder 7, .addTrackSpec ⟨str "tokens", .tokens, 0, 0⟩, .attachRecorder 8,
      .detach 0, .lift 0, .detach 0, .remove 0 1, .remove 0 0, .detached 0] (by decide +kernel)
  obtain ⟨s, hs, ht, hdone, hwait, hrec⟩ := hrun
  obtain ⟨t, ht, hkind⟩ := map_eq_some_iff.mp ht
  obtain ⟨rec, detachers, he, hone⟩ := (recorder_attached_once hs 1 ht).1 hwait
  rw [he] at hrec
  obtain rfl : rec = 8 := some.inj (some.inj hrec)
  refine ⟨s, t, hs, ht, hdone, hwait, (recorder_attached_once hs 0 ht).2 hdone, ?_⟩
  rw [hone, hkind]
  rfl

namespace Recording

/-! ## Every interceptor has a handle -/

/-- The detach function can reach every interceptor of the call. -/
def Traced (c : Nat) (s : Recording) : Prop :=
  ∀ b id, s.Installed c b id → (b, id) ∈ s.handles c

/-- No track is created under a name that call `c` has a remove function for. -/
def keepsHandles (c : Nat) (s : Recording) : Label → Bool
  | .addTrackSpec spec =>
    (s.tracks.lookup spec.name).isSome || ((s.entry c).detachers.lookup spec.name).isNone
  | _ => true

namespace Traced

variable {s s' : Recording} {c : Nat}

theorem create (ht : s.Traced c) (h : s.Ok) {name kind priority trackID}
    (hname : (s.entry c).detachers.lookup name = none) :
    (s.createTrack name kind priority trackID).Traced c := by
  intro b id hin
  rw [mem_handles]
  by_cases hb : b = s.nextBroadcaster
  · subst hb
    exact .inl ⟨name, (h.installed_create rfl hin).2⟩
  · -- an old handle is under another name, so it was not overwritten
    have hin := (installed_create_of_ne rfl hb).mp hin
    rcases mem_handles.mp (ht b id hin) with ⟨n, hn⟩ | hrest
    · have hne : n ≠ name := by
        rintro rfl
        rw [hname] at hn
        cases hn
      exact .inl ⟨n, ((h.detachers_create rfl c).1 hne).mpr hn⟩
    · exact .inr hrest

theorem attach (ht : s.Traced c) (h : s.Ok) (hlen : s.recorders.length < maxSliceLen) (rec : Nat) :
    (s.attachRecorder rec).Traced c := by
  intro b id hin
  rcases h.installed_attach.mp hin with hold | ⟨-, -, name, t, hlookup, rfl⟩
  · rw [h.handles_attach (Nat.ne_of_lt (h.past c b id hold))]
    exact ht b id hold
  · exact (h.attach hlen).held c name t id hlookup hin

theorem step (ht : s.Traced c) (h : s.Ok) {l} (hl : s.keepsHandles c l = true) (he : Effect s l s') :
    s'.Traced c := by
  cases he with
  | created spec hspec hnone =>
    apply ht.create h
    rw [hspec, keepsHandles, hnone] at hl
    exact isNone_iff_eq_none.mp hl
  | attached rec hlen => exact ht.attach h hlen rec
  | moved j d d' hd _ hrest =>
    intro b id hin
    rw [handles_moved hd hrest]
    exact ht b id hin
  | lifted j e hd he =>
    intro b id hin
    rw [handles_lifted hd he]
    exact ht b id hin
  | missing j hd he =>
    have hlt := lt_of_getElem? hd
    rw [h.slots] at hlt
    exact absurd hlt (Nat.not_lt.mpr (getElem?_eq_none_iff.mp he))
  | unhooked j k b id rest hd hk =>
    intro b' id' hin
    obtain ⟨hin, hne⟩ := (installed_unhooked h).mp hin
    exact (mem_handles_unhooked hd hk hne).mpr (ht b' id' hin)
  | _ => exact ht

end Traced

theorem traced_of_reachable {s c}
    (h : Reachable (recordingSystem.restrict (fun s l => s.keepsHandles c l = true)) s) :
    s.Traced c := by
  refine invariant_restrict (Traced c) ?_ ?_ s h
  · refine Traced.create ?_ ok_bare rfl
    rintro b id ⟨x, hx, -⟩
    cases hx
  · intro s l s' hs ht hok hstep
    exact ht.step (ok_of_reachable hs.of_restrict) hok (effect_of_next hstep)

/-! ## A detached recorder stays detached -/

/-- Its slot is empty, and no chain has an interceptor of it. -/
structure Over (c : Nat) (s : Recording) : Prop where
  past : c < s.recorders.length
  slot : (s.entry c).recorder = none
  chains : ∀ b id, ¬ s.Installed c b id
  quiet : ∀ chain ∈ s.running, ∀ x ∈ chain, x.call ≠ c

namespace Over

variable {s s' : Recording} {c : Nat}

theorem create (ho : s.Over c) (h : s.Ok) {name kind priority trackID} :
    (s.createTrack name kind priority trackID).Over c where
  past := (h.attached_create rfl).length ▸ ho.past
  slot := h.recorder_create rfl c ▸ ho.slot
  chains := by
    intro b id hin
    by_cases hb : b = s.nextBroadcaster
    · subst hb
      have hid := (h.installed_create rfl hin).2
      rw [(h.entry_create rfl c).1 ho.slot, h.lifted c ho.slot] at hid
      cases hid
    · exact ho.chains b id ((installed_create_of_ne rfl hb).mp hin)
  quiet := ho.quiet

theorem attach (ho : s.Over c) (h : s.Ok) (rec : Nat) : (s.attachRecorder rec).Over c := by
  have hne := Nat.ne_of_lt ho.past
  obtain ⟨-, _, hentry, -, -⟩ := h.attach_loop rec
  refine ⟨?_, ?_, ?_, ho.quiet⟩
  · show c < (_ ++ [_]).length
    rw [length_append]
    exact Nat.lt_add_right _ ho.past
  · rw [hentry, if_neg hne]
    exact ho.slot
  · intro b id hin
    rcases h.installed_attach.mp hin with hold | ⟨heq, -⟩
    · exact ho.chains b id hold
    · exact hne heq

theorem step (ho : s.Over c) (h : s.Ok) {l} (he : Effect s l s') :
    s'.Over c ∧ ofCall c s'.writes = ofCall c s.writes := by
  cases he with
  | created spec _ _ => exact ⟨ho.create h, rfl⟩
  | attached rec _ => exact ⟨ho.attach h rec, rfl⟩
  | lifted j e hd he =>
    refine ⟨⟨?_, ?_, ho.chains, ho.quiet⟩, rfl⟩
    · show c < (s.recorders.set j _).length
      rw [length_set]
      exact ho.past
    · rw [entry_lifted he c]
      split
      · rfl
      · exact ho.slot
  | unhooked j k b id rest hd hk =>
    refine ⟨⟨ho.past, ho.slot, ?_, ho.quiet⟩, rfl⟩
    intro b' id' hin
    exact ho.chains b' id' ((installed_unhooked h).mp hin).1
  | publishing b =>
    refine ⟨{ ho with quiet := forall_mem_snoc ho.quiet ?_ }, rfl⟩
    intro x hx hcall
    rw [← (h.chain b).map_snd] at hx
    obtain ⟨⟨id, x'⟩, hmem, rfl⟩ := mem_map.mp hx
    exact ho.chains b id ⟨x', hmem, hcall⟩
  | wrote i x rest hi =>
    have hchain := ho.quiet _ (mem_of_getElem? hi)
    refine ⟨{ ho with quiet := forall_mem_set ho.quiet ?_ }, ?_⟩
    · exact fun y hy => hchain y (mem_cons_of_mem x hy)
    · have hx : ¬ x.call = c := hchain x mem_cons_self
      show (_ ++ [x]).filter _ = _
      rw [filter_append, filter_cons_of_neg (by simpa using hx)]
      exact append_nil _
  | published i =>
    exact ⟨{ ho with quiet := fun chain hc => ho.quiet chain (mem_of_mem_eraseIdx hc) }, rfl⟩
  | same => exact ⟨ho, rfl⟩
  | _ => exact ⟨{ ho with }, rfl⟩

end Over

theorem Traced.over {s : Recording} {c} (ht : s.Traced c) (h : s.Ok)
    (hd : s.detach[c]? = some .done) (hidle : s.running = []) : s.Over c where
  past := h.slots ▸ (lt_of_getElem? hd)
  slot := by
    have hslot := h.slot c
    rw [phase_eq hd] at hslot
    exact not_isSome_iff_eq_none.mp (Bool.eq_false_iff.mp hslot)
  chains := by
    intro b id hin
    have hmem := ht b id hin
    rw [h.handles_done hd] at hmem
    cases hmem
  quiet := by
    rw [hidle]
    exact nofun

end Recording

/-- **Detach is final.** If no track was created under a name that call `c` had a remove
    function for, then once its detach function returned and no `Publish` is under way
    nothing is written through the call any more. -/
theorem detach_final {s s' : Recording} {c : Nat}
    (h : Reachable (recordingSystem.restrict (fun s l => s.keepsHandles c l = true)) s)
    (hd : s.detach[c]? = some .done) (hidle : s.running = [])
    (hlater : recordingSystem.Steps s s') :
    Recording.ofCall c s'.writes = Recording.ofCall c s.writes := by
  have hover := (Recording.traced_of_reachable h).over (Recording.ok_of_reachable h.of_restrict)
    hd hidle
  have hkeeps := h.of_restrict.keeps Recording.Ok
    (fun x => x.Over c ∧ Recording.ofCall c x.writes = Recording.ofCall c s.writes)
    (fun _ => Recording.ok_of_reachable) ?_ ⟨hover, rfl⟩ hlater
  · exact hkeeps.2
  · intro x l x' hok hx hstep
    obtain ⟨ho, hw⟩ := hx.1.step hok (Recording.effect_of_next hstep)
    exact ⟨ho, hw.trans hx.2⟩

/-- Two recorders and two tracks, one removed; the other recorder still gets the units. -/
theorem detach_final_two : ∃ s s',
    Reachable (recordingSystem.restrict (fun s l => s.keepsHandles 0 l = true)) s ∧
    s.detach[0]? = some .done ∧ s.running = [] ∧ recordingSystem.Steps s s' ∧
    s.writes.length = 2 ∧ s'.writes.length = 4 ∧
    Recording.ofCall 0 s'.writes = Recording.ofCall 0 s.writes := by
  obtain ⟨s, s', hs, hsteps, hp⟩ := exists_steps Recording.start Recording.next
    (fun s l => s.keepsHandles 0 l)
    (fun s s' : Recording => decide (s.detach[0]? = some Detach.done ∧ s.running = [] ∧
      s.writes.length = 2 ∧ s'.writes.length = 4))
    [.attachRecorder 7, .addTrackSpec ⟨str "tokens", .tokens, 0, 0⟩, .attachRecorder 8,
      .publish 0, .write 0, .write 0, .published 0, .removeTrack (str "tokens"),
      .detach 0, .lift 0, .remove 0 0, .remove 0 0, .detached 0]
    [.publish 0, .write 0, .publish 1, .write 1] (by decide +kernel)
  obtain ⟨hdone, hidle, hbefore, hafter⟩ := of_decide_eq_true hp
  exact ⟨s, s', hs, hdone, hidle, hsteps.of_restrict, hbefore, hafter,
    detach_final hs hdone hidle hsteps.of_restrict⟩

/-- A track is removed and added again: after the detach a `Publish` through the old handle
    writes. -/
theorem old_publisher_writes : ∃ s s', Reachable recordingSystem s ∧
    s.detach[0]? = some .done ∧ s.running = [] ∧ recordingSystem.Steps s s' ∧
    s.writes = [] ∧ s'.writes = [⟨0, 7, str "primary", str "video"⟩] := by
  obtain ⟨s, s', hs, hsteps, hp⟩ := exists_steps Recording.start Recording.next
    (fun _ _ => true)
    (fun s s' : Recording => decide (s.detach[0]? = some Detach.done ∧ s.running = [] ∧ s.writes = [] ∧
      s'.writes = [⟨0, 7, str "primary", str "video"⟩]))
    [.attachRecorder 7, .removeTrack (str "primary"),
      .addTrackSpec ⟨str "primary", .unset, 0, 0⟩,
      .detach 0, .lift 0, .remove 0 0, .detached 0]
    [.publish 0, .write 0] (by decide +kernel)
  obtain ⟨hdone, hidle, hbefore, hafter⟩ := of_decide_eq_true hp
  exact ⟨s, s', hs.of_restrict, hdone, hidle, hsteps.of_restrict, hbefore, hafter⟩

end QuicRTC

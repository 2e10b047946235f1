import QuicRTC.Server.Recorders

/-! # Where the Recording Interceptors are

An entry keeps one handle for a name. Every current track has an interceptor of every entry in its
slot, under the handle the entry has for the track's name, and a handle leads only to an interceptor
of its own call.
-/

namespace QuicRTC

open LTS Function List Slots GoMap AList

namespace Recording

/-! ## Where the interceptors are -/

/-- None before the call. -/
def entry (s : Recording) (c : Nat) : RecorderEntry := s.recorders[c]?.getD RecorderEntry.zero

def phase (s : Recording) (c : Nat) : Detach := s.detach[c]?.getD .done

/-- What its detach function can still remove. -/
def handles (s : Recording) (c : Nat) : List (BroadcasterId × UInt64) :=
  (s.entry c).detachers.entries.map Sigma.snd ++ (s.phase c).rest

def Installed (s : Recording) (c : Nat) (b : BroadcasterId) (id : UInt64) : Prop :=
  ∃ x, (id, x) ∈ (s.hooks b).entries ∧ x.call = c

variable {s : Recording}

theorem mem_handles {c p} :
    p ∈ s.handles c ↔
      (∃ name, (s.entry c).detachers.lookup name = some p) ∨ p ∈ (s.phase c).rest := by
  unfold handles
  rw [mem_append, mem_map]
  constructor
  · rintro (⟨e, he, rfl⟩ | hrest)
    · exact .inl ⟨e.1, mem_entries_iff.mp he⟩
    · exact .inr hrest
  · rintro (⟨name, hname⟩ | hrest)
    · exact .inl ⟨⟨name, p⟩, mem_entries_iff.mpr hname, rfl⟩
    · exact .inr hrest

structure Ok (s : Recording) : Prop where
  table : ∀ name t, s.tracks.lookup name = some t → t.bc < s.nextBroadcaster
  apart : ∀ name name' t t', s.tracks.lookup name = some t → s.tracks.lookup name' = some t' →
    t.bc = t'.bc → name = name'
  slots : s.detach.length = s.recorders.length
  room : s.recorders.length ≤ maxSliceLen
  chain : ∀ b, (s.hooks b).Issued s.recorders.length
  single : ∀ b, ((s.hooks b).interceptors.map RecordHook.call).Nodup
  fresh : ∀ b, s.nextBroadcaster ≤ b → s.hooks b = Hooks.empty
  past : ∀ c b id, s.Installed c b id → c < s.recorders.length
  slot : ∀ c, (s.entry c).recorder.isSome = (s.phase c).pending
  lifted : ∀ c, (s.entry c).recorder = none → (s.entry c).detachers = ∅
  /-- A remove function can only remove an interceptor of its call. -/
  owns : ∀ c p, p ∈ s.handles c → p.1 < s.nextBroadcaster ∧
    p.2.toNat ≤ (s.hooks p.1).nextInterceptorID.toNat ∧
    ∀ c', s.Installed c' p.1 p.2 → c' = c
  live : ∀ c name t, (s.entry c).recorder.isSome → s.tracks.lookup name = some t →
    ∃ id, (s.entry c).detachers.lookup name = some (t.bc, id) ∧ s.Installed c t.bc id
  held : ∀ c name t id, s.tracks.lookup name = some t → s.Installed c t.bc id →
    (t.bc, id) ∈ s.handles c

namespace Ok

variable {s : Recording} {c : Nat} {b : BroadcasterId} {id id' : UInt64}

theorem unique (h : s.Ok) (hid : s.Installed c b id) (hid' : s.Installed c b id') : id = id' := by
  obtain ⟨x, hx, rfl⟩ := hid
  obtain ⟨y, hy, hcall⟩ := hid'
  have hnd : ((s.hooks b).entries.map (fun p => p.2.call)).Nodup := by
    have := h.single b
    rw [← (h.chain b).map_snd, map_map] at this
    exact this
  exact congrArg Prod.fst (inj_on_of_nodup_map hnd hx hy hcall.symm)

end Ok

/-! ## Steps that leave the interceptors where they are -/

theorem Ok.of_handles {s' : Recording} (h : s.Ok) (htracks : s'.tracks = s.tracks)
    (hhooks : s'.hooks = s.hooks) (hnext : s'.nextBroadcaster = s.nextBroadcaster)
    (hlen : s'.recorders.length = s.recorders.length) (hdetach : s'.detach.length = s.detach.length)
    (hhandles : s'.handles = s.handles)
    (hslot : ∀ c, (s'.entry c).recorder.isSome = (s'.phase c).pending)
    (hentry : ∀ c, s'.entry c = s.entry c ∨ s'.entry c = RecorderEntry.zero) : s'.Ok := by
  have hinst : s'.Installed = s.Installed := by
    funext c b id
    unfold Installed
    rw [hhooks]
  refine ⟨?_, ?_, ?_, ?_, ?_, ?_, ?_, ?_, hslot, ?_, ?_, ?_, ?_⟩
  · rw [htracks, hnext]; exact h.table
  · rw [htracks]; exact h.apart
  · rw [hdetach, hlen]; exact h.slots
  · rw [hlen]; exact h.room
  · rw [hhooks, hlen]; exact h.chain
  · rw [hhooks]; exact h.single
  · rw [hhooks, hnext]; exact h.fresh
  · rw [hinst, hlen]; exact h.past
  · intro c hnone
    rcases hentry c with heq | heq
    · rw [heq] at hnone ⊢
      exact h.lifted c hnone
    · rw [heq]
      rfl
  · rw [hhandles, hnext, hhooks, hinst]; exact h.owns
  · intro c name t hsome ht
    rcases hentry c with heq | heq
    · rw [heq] at hsome ⊢
      rw [hinst]
      exact h.live c name t hsome (htracks ▸ ht)
    · rw [heq] at hsome
      cases hsome
  · rw [htracks, hinst, hhandles]; exact h.held

section phases

variable {s : Recording} {c : Nat} {d d' : Detach} {e : RecorderEntry}

theorem phase_set (hd : s.detach[c]? = some d) (j : Nat) :
    ({ s with detach := s.detach.set c d' } : Recording).phase j =
      if j = c then d' else s.phase j :=
  getD_set (lt_of_getElem? hd) d' .done j

theorem phase_eq (hd : s.detach[c]? = some d) : s.phase c = d := by
  unfold phase
  rw [hd]
  rfl

theorem handles_moved (hd : s.detach[c]? = some d) (hrest : d'.rest = d.rest) :
    ({ s with detach := s.detach.set c d' } : Recording).handles = s.handles := by
  funext j
  unfold handles
  rw [phase_set hd j]
  split
  · next hj =>
    subst hj
    rw [hrest, phase_eq hd]
    rfl
  · rfl

theorem Ok.moved (h : s.Ok) (hd : s.detach[c]? = some d) (hpending : d'.pending = d.pending)
    (hrest : d'.rest = d.rest) : ({ s with detach := s.detach.set c d' } : Recording).Ok := by
  refine h.of_handles rfl rfl rfl rfl length_set (handles_moved hd hrest) ?_
    (fun _ => .inl rfl)
  intro j
  rw [phase_set hd j]
  split
  · next hj =>
    subst hj
    rw [hpending, ← phase_eq hd]
    exact h.slot j
  · exact h.slot j

def lifted (s : Recording) (c : Nat) (e : RecorderEntry) : Recording :=
  { s with
    recorders := s.recorders.set c RecorderEntry.zero
    detach := s.detach.set c (.removing (e.detachers.entries.map Sigma.snd)) }

theorem entry_lifted (he : s.recorders[c]? = some e) (j : Nat) :
    (s.lifted c e).entry j = if j = c then RecorderEntry.zero else s.entry j :=
  getD_set (lt_of_getElem? he) _ _ j

theorem phase_lifted (hd : s.detach[c]? = some d) (j : Nat) : (s.lifted c e).phase j =
    if j = c then .removing (e.detachers.entries.map Sigma.snd) else s.phase j :=
  getD_set (lt_of_getElem? hd) _ _ j

theorem handles_lifted (hd : s.detach[c]? = some .called) (he : s.recorders[c]? = some e) :
    (s.lifted c e).handles = s.handles := by
  funext j
  unfold handles
  rw [entry_lifted he j, phase_lifted hd j]
  split
  · next hj =>
    subst hj
    unfold entry
    rw [phase_eq hd, he]
    exact (append_nil _).symm
  · rfl

theorem Ok.lift (h : s.Ok) (hd : s.detach[c]? = some .called) (he : s.recorders[c]? = some e) :
    (s.lifted c e).Ok := by
  refine h.of_handles rfl rfl rfl length_set length_set (handles_lifted hd he) ?_ ?_
  · intro j
    rw [entry_lifted he j, phase_lifted hd j]
    split
    · rfl
    · exact h.slot j
  · intro j
    rw [entry_lifted he j]
    split
    · exact .inr rfl
    · exact .inl rfl

end phases

theorem Ok.removed (h : s.Ok) (name : GoString) :
    ({ s with tracks := s.tracks.erase name } : Recording).Ok := by
  have hsub : ∀ n t, (s.tracks.erase name).lookup n = some t → s.tracks.lookup n = some t :=
    sub_erase s.tracks name
  exact { h with
    table := fun n t ht => h.table n t (hsub n t ht)
    apart := fun n n' t t' ht ht' => h.apart n n' t t' (hsub n t ht) (hsub n' t' ht')
    live := fun c n t hc ht => h.live c n t hc (hsub n t ht)
    held := fun c n t id ht => h.held c n t id (hsub n t ht) }

/-! ## A remove function -/

section remove

variable {s : Recording} {c k : Nat} {b : BroadcasterId} {id : UInt64}
  {rest : List (BroadcasterId × UInt64)}

def unhooked (s : Recording) (c k : Nat) (b : BroadcasterId) (id : UInt64)
    (rest : List (BroadcasterId × UInt64)) : Recording :=
  { s with
    hooks := update s.hooks b ((s.hooks b).remove id)
    detach := s.detach.set c (.removing (rest.eraseIdx k)) }

theorem installed_unhooked (h : s.Ok) {j b' id'} :
    (s.unhooked c k b id rest).Installed j b' id' ↔
      s.Installed j b' id' ∧ (b', id') ≠ (b, id) := by
  by_cases hb : b' = b
  · subst hb
    have hhooks : (s.unhooked c k b' id rest).hooks b' = (s.hooks b').remove id :=
      update_self _ _ _
    unfold Installed
    rw [hhooks]
    constructor
    · rintro ⟨x, hx, rfl⟩
      obtain ⟨hx, hne⟩ := (h.chain b').mem_entries_remove.mp hx
      exact ⟨⟨x, hx, rfl⟩, fun heq => hne (Prod.mk.inj heq).2⟩
    · rintro ⟨⟨x, hx, rfl⟩, hne⟩
      exact ⟨x, (h.chain b').mem_entries_remove.mpr ⟨hx, fun heq => hne (heq ▸ rfl)⟩, rfl⟩
  · have hhooks : (s.unhooked c k b id rest).hooks b' = s.hooks b' := update_of_ne hb _ _
    unfold Installed
    rw [hhooks]
    exact ⟨fun hx => ⟨hx, fun heq => hb (Prod.mk.inj heq).1⟩, fun hx => hx.1⟩

theorem next_unhooked (b' : BroadcasterId) :
    ((s.unhooked c k b id rest).hooks b').nextInterceptorID = (s.hooks b').nextInterceptorID := by
  show (update s.hooks b _ b').nextInterceptorID = _
  by_cases hb : b' = b
  · subst hb
    rw [update_self, Hooks.next_remove]
  · rw [update_of_ne hb]

theorem phase_unhooked (hd : s.detach[c]? = some (.removing rest)) (j : Nat) :
    (s.unhooked c k b id rest).phase j =
      if j = c then .removing (rest.eraseIdx k) else s.phase j :=
  getD_set (lt_of_getElem? hd) _ _ j

theorem mem_handles_unhooked (hd : s.detach[c]? = some (.removing rest))
    (hk : rest[k]? = some (b, id)) {j p} (hp : p ≠ (b, id)) :
    p ∈ (s.unhooked c k b id rest).handles j ↔ p ∈ s.handles j := by
  have hphase := phase_eq hd
  rw [mem_handles, mem_handles, phase_unhooked hd]
  refine or_congr Iff.rfl ?_
  split
  · next hj =>
    subst hj
    rw [hphase]
    constructor
    · exact mem_of_mem_eraseIdx
    · intro hmem
      obtain ⟨i, hi⟩ := mem_iff_getElem?.mp hmem
      refine mem_eraseIdx_iff_getElem?.mpr ⟨i, ?_, hi⟩
      intro heq
      subst heq
      exact hp (Option.mem_unique hi hk)
  · exact Iff.rfl

theorem handles_unhooked_subset (hd : s.detach[c]? = some (.removing rest)) {j p}
    (hp : p ∈ (s.unhooked c k b id rest).handles j) : p ∈ s.handles j := by
  have hphase := phase_eq hd
  rw [mem_handles, phase_unhooked hd] at hp
  rw [mem_handles]
  rcases hp with hname | hrest
  · exact .inl hname
  · right
    split at hrest
    · next hj =>
      subst hj
      rw [hphase]
      exact mem_of_mem_eraseIdx hrest
    · exact hrest

theorem Ok.unhooked (h : s.Ok) (hd : s.detach[c]? = some (.removing rest))
    (hk : rest[k]? = some (b, id)) : (s.unhooked c k b id rest).Ok := by
  have hphase := phase_eq hd
  have hmem : (b, id) ∈ s.handles c :=
    mem_handles.mpr (.inr (hphase ▸ mem_of_getElem? hk))
  have hgone : (s.entry c).recorder.isSome = false := by rw [h.slot c, hphase]; rfl
  refine ⟨h.table, h.apart, ?_, h.room, ?_, ?_, ?_, ?_, ?_, h.lifted, ?_, ?_, ?_⟩
  · exact (length_set).trans h.slots
  · intro b'
    show (update s.hooks b _ b').Issued _
    by_cases hb : b' = b
    · subst hb
      rw [update_self]
      exact (h.chain b').remove id
    · rw [update_of_ne hb]
      exact h.chain b'
  · intro b'
    show (map _ (update s.hooks b _ b').interceptors).Nodup
    by_cases hb : b' = b
    · subst hb
      rw [update_self]
      exact (h.single b').sublist ((Hooks.interceptors_remove_sublist _ _).map _)
    · rw [update_of_ne hb]
      exact h.single b'
  · intro b' hb'
    have hb : b' ≠ b := by
      rintro rfl
      exact absurd (h.owns c _ hmem).1 (Nat.not_lt.mpr hb')
    exact (update_of_ne hb _ _).trans (h.fresh b' hb')
  · exact fun j b' id' hin => h.past j b' id' ((installed_unhooked h).mp hin).1
  · intro j
    rw [phase_unhooked hd]
    split
    · next hj => subst hj; exact hgone
    · exact h.slot j
  · intro j p hp
    obtain ⟨hlt, hle, hown⟩ := h.owns j p (handles_unhooked_subset hd hp)
    refine ⟨hlt, ?_, fun j' hin => hown j' ((installed_unhooked h).mp hin).1⟩
    rw [next_unhooked]
    exact hle
  · -- the interceptor removed belongs to a call that is no longer live
    intro j name t hsome ht
    obtain ⟨id', hname, hin⟩ := h.live j name t hsome ht
    refine ⟨id', hname, (installed_unhooked h).mpr ⟨hin, ?_⟩⟩
    intro heq
    have hj : j = c := (h.owns c _ hmem).2.2 j (by rw [← heq]; exact hin)
    subst hj
    change (s.entry j).recorder.isSome = true at hsome
    rw [hgone] at hsome
    cases hsome
  · intro j name t id' ht hin
    obtain ⟨hin, hne⟩ := (installed_unhooked h).mp hin
    exact (mem_handles_unhooked hd hk hne).mpr (h.held j name t id' ht hin)

end remove

/-! ## `AttachRecorder` -/

section attach

variable {s : Recording} {rec : Nat}

theorem Ok.attach_loop (h : s.Ok) (rec : Nat) :
    (∀ b, (∀ name t, s.tracks.lookup name = some t → t.bc ≠ b) →
      (s.attachRecorder rec).hooks b = s.hooks b) ∧
    ∃ detachers : GoMap (BroadcasterId × UInt64),
      (∀ j, (s.attachRecorder rec).entry j = if j = s.recorders.length then
        { recorder := some rec, detachers := detachers } else s.entry j) ∧
      (∀ name p, detachers.lookup name = some p → ∃ t, s.tracks.lookup name = some t ∧
        p = (t.bc, (s.hooks t.bc).nextInterceptorID + 1)) ∧
      ∀ name t, s.tracks.lookup name = some t →
        (s.attachRecorder rec).hooks t.bc =
          (s.hooks t.bc).add ⟨s.recorders.length, rec, name, t.kind.toGoString⟩ ∧
        detachers.lookup name = some (t.bc, (s.hooks t.bc).nextInterceptorID + 1) := by
  have hbcs : (s.tracks.entries.map (fun e => e.2.bc)).Nodup := by
    apply Nodup.map_on _ s.tracks.nodupKeys.nodup
    intro e he e' he' heq
    have hname := h.apart e.1 e'.1 e.2 e'.2 (mem_entries_iff.mp he)
      (mem_entries_iff.mp he') heq
    exact s.tracks.nodupKeys.eq_of_fst_eq he he' hname
  obtain ⟨hother, hunder, hhere⟩ := attachLoop_spec s.recorders.length rec
    s.tracks.nodupKeys hbcs s.hooks ∅
  refine ⟨?_, _, getD_snoc _ _ _, ?_, ?_⟩
  · intro b hb
    apply hother
    intro hmem
    obtain ⟨e, he, rfl⟩ := mem_map.mp hmem
    exact hb e.1 e.2 (mem_entries_iff.mp he) rfl
  · intro name p hp
    by_cases hname : name ∈ s.tracks.entries.map Sigma.fst
    · obtain ⟨e, he, rfl⟩ := mem_map.mp hname
      rw [(hhere e he).2] at hp
      exact ⟨e.2, mem_entries_iff.mp he, (Option.some.inj hp).symm⟩
    · rw [hunder name hname] at hp
      cases hp
  · intro name t ht
    exact hhere ⟨name, t⟩ (mem_entries_iff.mpr ht)

theorem Ok.installed_attach (h : s.Ok) {j b id} :
    (s.attachRecorder rec).Installed j b id ↔ s.Installed j b id ∨
      j = s.recorders.length ∧ id = (s.hooks b).nextInterceptorID + 1 ∧
        ∃ name t, s.tracks.lookup name = some t ∧ t.bc = b := by
  obtain ⟨hother, _, -, -, hhere⟩ := h.attach_loop rec
  by_cases hcur : ∃ name t, s.tracks.lookup name = some t ∧ t.bc = b
  · obtain ⟨name, t, ht, rfl⟩ := hcur
    unfold Installed
    rw [(hhere name t ht).1, (h.chain t.bc).entries_add]
    constructor
    · rintro ⟨x, hx, rfl⟩
      rcases mem_snoc hx with hold | hnew
      · exact .inl ⟨x, hold, rfl⟩
      · cases hnew
        exact .inr ⟨rfl, rfl, name, t, ht, rfl⟩
    · rintro (⟨x, hx, rfl⟩ | ⟨rfl, rfl, -⟩)
      · exact ⟨x, mem_append_left _ hx, rfl⟩
      · exact ⟨_, mem_concat_self, rfl⟩
  · have hsame := hother b (fun name t ht heq => hcur ⟨name, t, ht, heq⟩)
    unfold Installed
    rw [hsame]
    exact ⟨.inl, fun hor => hor.resolve_right (fun hnew => hcur hnew.2.2)⟩

theorem Ok.next_attach (h : s.Ok) (hlen : s.recorders.length < maxSliceLen) (b : BroadcasterId) :
    (s.hooks b).nextInterceptorID.toNat ≤
      ((s.attachRecorder rec).hooks b).nextInterceptorID.toNat := by
  obtain ⟨hother, _, -, -, hhere⟩ := h.attach_loop rec
  by_cases hcur : ∃ name t, s.tracks.lookup name = some t ∧ t.bc = b
  · obtain ⟨name, t, ht, rfl⟩ := hcur
    rw [(hhere name t ht).1, (h.chain t.bc).next_add hlen]
    exact Nat.le_succ _
  · rw [hother b (fun name t ht heq => hcur ⟨name, t, ht, heq⟩)]

theorem phase_attach (h : s.Ok) (j : Nat) : (s.attachRecorder rec).phase j =
    if j = s.recorders.length then .waiting else s.phase j := by
  rw [← h.slots]
  exact getD_snoc _ _ _ j

theorem Ok.handles_attach (h : s.Ok) {j} (hj : j ≠ s.recorders.length) :
    (s.attachRecorder rec).handles j = s.handles j := by
  obtain ⟨-, _, hentry, -, -⟩ := h.attach_loop rec
  unfold handles
  rw [hentry j, phase_attach h j, if_neg hj, if_neg hj]

theorem Ok.not_next (h : s.Ok) (hlen : s.recorders.length < maxSliceLen) {b} {id : UInt64}
    (hle : id.toNat ≤ (s.hooks b).nextInterceptorID.toNat) :
    id ≠ (s.hooks b).nextInterceptorID + 1 := by
  intro heq
  have hnext := (h.chain b).next_add hlen ⟨0, 0, [], []⟩
  change ((s.hooks b).nextInterceptorID + 1).toNat = _ at hnext
  rw [← heq] at hnext
  omega

theorem Ok.attach (h : s.Ok) (hlen : s.recorders.length < maxSliceLen) :
    (s.attachRecorder rec).Ok := by
  obtain ⟨hother, detachers, hentry, hkept, hhere⟩ := h.attach_loop rec
  have hlength : (s.attachRecorder rec).recorders.length = s.recorders.length + 1 :=
    length_append
  -- a chain is that of a current track, or as it was
  have hchains : ∀ (P : Hooks RecordHook → Prop) (b : BroadcasterId), P (s.hooks b) →
      (∀ x, x.call = s.recorders.length → P ((s.hooks b).add x)) →
      P ((s.attachRecorder rec).hooks b) := by
    intro P b hold hadd
    by_cases hcur : ∃ name t, s.tracks.lookup name = some t ∧ t.bc = b
    · obtain ⟨name, t, ht, rfl⟩ := hcur
      rw [(hhere name t ht).1]
      exact hadd _ rfl
    · rw [hother b (fun name t ht heq => hcur ⟨name, t, ht, heq⟩)]
      exact hold
  refine ⟨h.table, h.apart, ?_, ?_, ?_, ?_, ?_, ?_, ?_, ?_, ?_, ?_, ?_⟩
  · rw [hlength, ← h.slots]
    exact length_append
  · rw [hlength]
    exact hlen
  · intro b
    rw [hlength]
    exact hchains _ b ((h.chain b).mono (Nat.le_succ _)) (fun x _ => (h.chain b).add hlen x)
  · intro b
    apply hchains (fun c => (c.interceptors.map RecordHook.call).Nodup) b (h.single b)
    intro x hx
    show (map _ (_ ++ [_])).Nodup
    rw [map_append]
    apply Nodup.append (h.single b) (nodup_singleton _)
    intro c hc hnew
    have hcall : c = s.recorders.length := (mem_singleton.mp hnew).trans hx
    obtain ⟨y, hy, hyc⟩ := mem_map.mp hc
    rw [← (h.chain b).map_snd] at hy
    obtain ⟨⟨id, y'⟩, hmem, rfl⟩ := mem_map.mp hy
    have := h.past c b id ⟨_, hmem, hyc⟩
    omega
  · intro b hb
    refine (hother b ?_).trans (h.fresh b hb)
    intro name t ht heq
    exact absurd (heq ▸ h.table name t ht) (Nat.not_lt.mpr hb)
  · intro j b id hin
    rw [hlength]
    rcases h.installed_attach.mp hin with hold | ⟨rfl, -⟩
    · exact Nat.lt_succ_of_lt (h.past j b id hold)
    · exact Nat.lt_succ_self _
  · intro j
    rw [hentry j, phase_attach h j]
    split
    · rfl
    · exact h.slot j
  · intro j
    rw [hentry j]
    split
    · nofun
    · exact h.lifted j
  · intro j p hp
    by_cases hj : j = s.recorders.length
    · -- the new entry: its identifiers are the ones just given out
      subst hj
      rw [mem_handles, hentry, phase_attach h, if_pos rfl, if_pos rfl] at hp
      obtain ⟨name, hname⟩ := hp.resolve_right not_mem_nil
      obtain ⟨t, ht, rfl⟩ := hkept name p hname
      refine ⟨h.table name t ht, ?_, ?_⟩
      · rw [(hhere name t ht).1]
        exact Nat.le_refl _
      · intro c' hin
        rcases h.installed_attach.mp hin with ⟨x, hx, -⟩ | ⟨rfl, -⟩
        · exact absurd rfl (h.not_next hlen ((h.chain t.bc).le_next hx))
        · rfl
    · rw [h.handles_attach hj] at hp
      obtain ⟨hlt, hle, hown⟩ := h.owns j p hp
      refine ⟨hlt, Nat.le_trans hle (h.next_attach hlen p.1), ?_⟩
      intro c' hin
      rcases h.installed_attach.mp hin with hold | ⟨-, hid, -⟩
      · exact hown c' hold
      · exact absurd hid (h.not_next hlen hle)
  · intro j name t hsome ht
    rw [hentry j] at hsome ⊢
    split at hsome
    · next hj =>
      rw [if_pos hj]
      exact ⟨_, (hhere name t ht).2, h.installed_attach.mpr (.inr ⟨hj, rfl, name, t, ht, rfl⟩)⟩
    · next hj =>
      rw [if_neg hj]
      obtain ⟨id, hid, hin⟩ := h.live j name t hsome ht
      exact ⟨id, hid, h.installed_attach.mpr (.inl hin)⟩
  · intro j name t id ht hin
    rcases h.installed_attach.mp hin with hold | ⟨rfl, rfl, -⟩
    · rw [h.handles_attach (Nat.ne_of_lt (h.past j t.bc id hold))]
      exact h.held j name t id ht hold
    · rw [mem_handles, hentry, if_pos rfl]
      exact .inl ⟨name, (hhere name t ht).2⟩

end attach

/-! ## `AddTrackSpec` -/

section create

variable {s s' : Recording} {name : GoString} {kind : Kind} {priority trackID : UInt8}
  (hs : s' = s.createTrack name kind priority trackID)
include hs

theorem Ok.attached_create (h : s.Ok) : Attached name kind.toGoString s.nextBroadcaster 0 0
    Hooks.empty (s'.hooks s.nextBroadcaster) s.recorders s'.recorders := by
  subst hs
  have hhooks : (s.createTrack name kind priority trackID).hooks s.nextBroadcaster =
      (attachRecordersToTrack name kind.toGoString s.nextBroadcaster 0 Hooks.empty
        s.recorders).1 := update_self _ _ _
  have hroom := h.room
  rw [hhooks]
  exact attached_attachRecordersToTrack (Hooks.issued_empty 0) (by omega)

theorem Ok.entry_create (h : s.Ok) (j : Nat) :
    ((s.entry j).recorder = none → s'.entry j = s.entry j) ∧
    ((s.entry j).recorder.isSome → ∃ id, s'.entry j = { s.entry j with
        detachers := (s.entry j).detachers.insert name (s.nextBroadcaster, id) } ∧
      s'.Installed j s.nextBroadcaster id) := by
  have ha := h.attached_create hs
  unfold entry Installed
  cases he : s.recorders[j]? with
  | none =>
    rw [getElem?_eq_none_iff.mpr (ha.length.trans_le (getElem?_eq_none_iff.mp he))]
    exact ⟨fun _ => rfl, nofun⟩
  | some e =>
    constructor
    · intro hnone
      rw [ha.skipped j e he hnone]
    · intro hsome
      obtain ⟨id, hid, x, hx, hcall⟩ := ha.added j e he hsome
      rw [hid]
      exact ⟨id, rfl, x, hx, by omega⟩

theorem Ok.installed_create (h : s.Ok) {j id} (hin : s'.Installed j s.nextBroadcaster id) :
    j < s.recorders.length ∧
      (s'.entry j).detachers.lookup name = some (s.nextBroadcaster, id) := by
  have ha := h.attached_create hs
  obtain ⟨x, hx, rfl⟩ := hin
  rcases ha.only id x hx with hold | ⟨k, e, rec, he, -, rfl, hid⟩
  · cases hold
  · rw [Nat.zero_add]
    refine ⟨(lt_of_getElem? he), ?_⟩
    unfold entry
    rw [hid]
    exact lookup_insert _

theorem installed_create_of_ne {j b id} (hb : b ≠ s.nextBroadcaster) :
    s'.Installed j b id ↔ s.Installed j b id := by
  have hhooks : s'.hooks b = s.hooks b := hs ▸ update_of_ne hb _ _
  unfold Installed
  rw [hhooks]

theorem Ok.detachers_create (h : s.Ok) (j : Nat) {n p} :
    (n ≠ name → ((s'.entry j).detachers.lookup n = some p ↔
      (s.entry j).detachers.lookup n = some p)) ∧
    ((s.entry j).recorder.isSome → (s'.entry j).detachers.lookup name = some p →
      p.1 = s.nextBroadcaster ∧ s'.Installed j s.nextBroadcaster p.2) := by
  obtain ⟨hnone, hsome⟩ := h.entry_create hs j
  cases hrec : (s.entry j).recorder with
  | none =>
    rw [hnone hrec]
    exact ⟨fun _ => Iff.rfl, nofun⟩
  | some rec =>
    obtain ⟨id, hentry, hin⟩ := hsome (by rw [hrec]; rfl)
    rw [hentry]
    constructor
    · intro hn
      exact Eq.congr_left (lookup_insert_ne hn)
    · intro _ hp
      rw [lookup_insert] at hp
      cases hp
      exact ⟨rfl, hin⟩

theorem Ok.recorder_create (h : s.Ok) (j : Nat) :
    (s'.entry j).recorder = (s.entry j).recorder := by
  obtain ⟨hnone, hsome⟩ := h.entry_create hs j
  cases hrec : (s.entry j).recorder with
  | none => rw [hnone hrec, hrec]
  | some rec =>
    obtain ⟨id, hentry, -⟩ := hsome (by rw [hrec]; rfl)
    rw [hentry]
    exact hrec

theorem Ok.owns_created (h : s.Ok) {j id} (hin : s'.Installed j s.nextBroadcaster id) :
    id.toNat ≤ (s'.hooks s.nextBroadcaster).nextInterceptorID.toNat ∧
      ∀ c', s'.Installed c' s.nextBroadcaster id → c' = j := by
  have hissued := (h.attached_create hs).issued
  obtain ⟨x, hx, rfl⟩ := hin
  refine ⟨hissued.le_next hx, ?_⟩
  rintro c' ⟨y, hy, rfl⟩
  rw [hissued.fn_unique hx hy]

theorem Ok.create (h : s.Ok) : s'.Ok := by
  have ha := h.attached_create hs
  have hlength : s'.recorders.length =
      s.recorders.length := ha.length
  -- a current track is the new one or an old one, on another broadcaster
  have hcases : ∀ n t, s'.tracks.lookup n = some t →
      n = name ∧ t.bc = s.nextBroadcaster ∨
      n ≠ name ∧ s.tracks.lookup n = some t ∧ t.bc ≠ s.nextBroadcaster := by
    intro n t ht
    rw [hs] at ht
    rcases lookup_insert_eq_some_iff.mp ht with ⟨rfl, rfl⟩ | ⟨hne, hold⟩
    · exact .inl ⟨rfl, rfl⟩
    · exact .inr ⟨hne, hold, Nat.ne_of_lt (h.table n t hold)⟩
  have hother : ∀ b, b ≠ s.nextBroadcaster →
      s'.hooks b = s.hooks b :=
    fun b hb => hs ▸ update_of_ne hb _ _
  subst hs
  refine ⟨?_, ?_, ?_, ?_, ?_, ?_, ?_, ?_, ?_, ?_, ?_, ?_, ?_⟩
  · intro n t ht
    rcases hcases n t ht with ⟨-, hbc⟩ | ⟨-, hold, -⟩
    · rw [hbc]
      exact Nat.lt_succ_self _
    · exact Nat.lt_succ_of_lt (h.table n t hold)
  · intro n n' t t' ht ht' heq
    rcases hcases n t ht with ⟨rfl, hbc⟩ | ⟨-, hold, hbc⟩ <;>
      rcases hcases n' t' ht' with ⟨rfl, hbc'⟩ | ⟨-, hold', hbc'⟩
    · rfl
    · exact absurd (heq.symm.trans hbc) hbc'
    · exact absurd (heq.trans hbc') hbc
    · exact h.apart n n' t t' hold hold' heq
  · rw [hlength]
    exact h.slots
  · rw [hlength]
    exact h.room
  · intro b
    rw [hlength]
    by_cases hb : b = s.nextBroadcaster
    · rw [hb]
      exact ha.issued.mono (by omega)
    · rw [hother b hb]
      exact h.chain b
  · intro b
    by_cases hb : b = s.nextBroadcaster
    · rw [hb]
      exact ha.single nodup_nil nofun
    · rw [hother b hb]
      exact h.single b
  · intro b hb
    have hlt : s.nextBroadcaster < b := hb
    rw [hother b (Nat.ne_of_gt hlt)]
    exact h.fresh b (Nat.le_of_lt hlt)
  · intro j b id hin
    rw [hlength]
    by_cases hb : b = s.nextBroadcaster
    · subst hb
      exact (h.installed_create rfl hin).1
    · exact h.past j b id ((installed_create_of_ne rfl hb).mp hin)
  · intro j
    rw [h.recorder_create rfl]
    exact h.slot j
  · intro j hnone
    rw [h.recorder_create rfl] at hnone
    rw [(h.entry_create rfl j).1 hnone]
    exact h.lifted j hnone
  · -- a handle is that of the new track, or an old one
    intro j p hp
    have hold : p ∈ s.handles j → p.1 < s.nextBroadcaster + 1 ∧
        p.2.toNat ≤
          ((s.createTrack name kind priority trackID).hooks p.1).nextInterceptorID.toNat ∧
        ∀ c', (s.createTrack name kind priority trackID).Installed c' p.1 p.2 → c' = j := by
      intro hp
      obtain ⟨hlt, hle, hown⟩ := h.owns j p hp
      have hb : p.1 ≠ s.nextBroadcaster := Nat.ne_of_lt hlt
      rw [hother p.1 hb]
      exact ⟨Nat.lt_succ_of_lt hlt, hle, fun c' hin => hown c' ((installed_create_of_ne rfl hb).mp hin)⟩
    rcases mem_handles.mp hp with ⟨n, hn⟩ | hrest
    · by_cases hne : n = name
      · subst hne
        cases hrec : (s.entry j).recorder with
        | none =>
          rw [(h.entry_create rfl j).1 hrec] at hn
          exact hold (mem_handles.mpr (.inl ⟨n, hn⟩))
        | some rec =>
          obtain ⟨hbc, hin⟩ := (h.detachers_create (n := n) rfl j).2
            (by rw [hrec]; rfl) hn
          rw [hbc]
          exact ⟨Nat.lt_succ_self _, h.owns_created rfl hin⟩
      · exact hold (mem_handles.mpr (.inl ⟨n, ((h.detachers_create rfl j).1 hne).mp hn⟩))
    · exact hold (mem_handles.mpr (.inr hrest))
  · intro j n t hsome ht
    rw [h.recorder_create rfl] at hsome
    rcases hcases n t ht with ⟨rfl, hbc⟩ | ⟨hne, hold, hbc⟩
    · obtain ⟨id, hentry, hin⟩ := (h.entry_create rfl j).2 hsome
      rw [hbc, hentry]
      exact ⟨id, lookup_insert _, hin⟩
    · obtain ⟨id, hid, hin⟩ := h.live j n t hsome hold
      exact ⟨id, ((h.detachers_create rfl j).1 hne).mpr hid, (installed_create_of_ne rfl hbc).mpr hin⟩
  · intro j n t id ht hin
    rw [mem_handles]
    rcases hcases n t ht with ⟨rfl, hbc⟩ | ⟨hne, hold, hbc⟩
    · rw [hbc] at hin ⊢
      exact .inl ⟨n, (h.installed_create rfl hin).2⟩
    · have hin := (installed_create_of_ne rfl hbc).mp hin
      cases hrec : (s.entry j).recorder with
      | none =>
        rw [(h.entry_create rfl j).1 hrec]
        exact mem_handles.mp (h.held j n t id hold hin)
      | some rec =>
        -- the handle of the old track is under its own name
        obtain ⟨id', hid', hin'⟩ := h.live j n t (by rw [hrec]; rfl) hold
        obtain rfl := h.unique hin hin'
        exact .inl ⟨n, ((h.detachers_create rfl j).1 hne).mpr hid'⟩

end create

/-! ## Runs -/

/-- A step in a chain is told apart from the others only by the `Publish` calls and by what
    was written. -/
inductive Effect (s : Recording) (l : Label) : Recording → Prop where
  | created (spec : TrackSpec) : l = .addTrackSpec spec → s.tracks.lookup spec.name = none →
      Effect s l (s.createTrack spec.name (Server.specKind spec) (Server.specPriority spec)
        spec.trackID)
  | removed (name : GoString) : Effect s l { s with tracks := s.tracks.erase name }
  | attached (rec : Nat) :
      s.recorders.length < maxSliceLen → Effect s l (s.attachRecorder rec)
  | moved (c : Nat) (d d' : Detach) : s.detach[c]? = some d → d'.pending = d.pending →
      d'.rest = d.rest → Effect s l { s with detach := s.detach.set c d' }
  | lifted (c : Nat) (e : RecorderEntry) : s.detach[c]? = some .called →
      s.recorders[c]? = some e → Effect s l (s.lifted c e)
  | missing (c : Nat) : s.detach[c]? = some .called → s.recorders[c]? = none →
      Effect s l { s with detach := s.detach.set c .done }
  | unhooked (c k : Nat) (b : BroadcasterId) (id : UInt64)
      (rest : List (BroadcasterId × UInt64)) : s.detach[c]? = some (.removing rest) →
      rest[k]? = some (b, id) → Effect s l (s.unhooked c k b id rest)
  | publishing (b : BroadcasterId) :
      Effect s l { s with running := s.running ++ [(s.hooks b).interceptors] }
  | wrote (i : Nat) (x : RecordHook) (rest : List RecordHook) : s.running[i]? = some (x :: rest) →
      Effect s l { s with running := s.running.set i rest, writes := s.writes ++ [x] }
  | published (i : Nat) : Effect s l { s with running := s.running.eraseIdx i }
  | same : Effect s l s

theorem effect_of_next {s' l} : s.next l = some s' → Effect s l s' := by
  fun_cases s.next l <;> intro h <;> cases h
  · unfold addTrackSpec
    split
    · exact .same
    · next hnone => exact .created _ rfl hnone
  · exact .removed _
  · next hlen => exact .attached _ hlen
  · next hd => exact .moved _ _ _ hd rfl rfl
  · exact .same
  · next hd _ he => exact .lifted _ _ hd he
  · next hd he => exact .missing _ hd he
  · next hd _ _ hk => exact .unhooked _ _ _ _ _ hd hk
  · next hd => exact .moved _ _ _ hd rfl rfl
  · exact .publishing _
  · next hi => exact .wrote _ _ _ hi
  · exact .published _

theorem Ok.step {s' l} (h : s.Ok) (he : Effect s l s') : s'.Ok := by
  cases he with
  | created spec _ _ => exact h.create rfl
  | removed name => exact h.removed name
  | attached rec hlen => exact h.attach hlen
  | moved c d d' hd hpending hrest => exact h.moved hd hpending hrest
  | lifted c e hd he => exact h.lift hd he
  | missing c hd he =>
    -- the slice never gets shorter
    have hlt := lt_of_getElem? hd
    rw [h.slots] at hlt
    exact absurd hlt (Nat.not_lt.mpr (getElem?_eq_none_iff.mp he))
  | unhooked c k b id rest hd hk => exact h.unhooked hd hk
  | same => exact h
  | _ => exact { h with }

theorem ok_bare : bare.Ok where
  table := nofun
  apart := nofun
  slots := rfl
  room := Nat.zero_le _
  chain := fun _ => Hooks.issued_empty 0
  single := fun _ => nodup_nil
  fresh := fun _ _ => rfl
  past := fun _ _ _ hin => by
    obtain ⟨x, hx, -⟩ := hin
    cases hx
  slot := fun _ => rfl
  lifted := fun _ _ => rfl
  owns := nofun
  live := nofun
  held := nofun

theorem ok_of_reachable (h : Reachable recordingSystem s) : s.Ok := by
  refine invariant_ofFun Recording.Ok (ok_bare.create rfl) ?_ s h
  intro s l s' _ hok hstep
  exact hok.step (effect_of_next hstep)

end Recording

end QuicRTC

import QuicRTC.Server.Server

/-! # Who Owns a Receiver

A broadcaster creates new receivers or touches its own (`PubSub.Tame`), so that a receiver never
moves from one to another.
-/

namespace QuicRTC

open Wire Function List GoMap

/-! ## Operations of one broadcaster -/

namespace PubSub

/-- What a broadcaster may do to receivers. -/
structure Tame (ps ps' : PubSub) : Prop where
  fresh : ps.fresh ≤ ps'.fresh
  bound : (∀ r ∈ ps.bc.receivers, r < ps.fresh) → ∀ r ∈ ps'.bc.receivers, r < ps'.fresh
  old : ∀ r < ps.fresh, r ∈ ps'.bc.receivers → r ∈ ps.bc.receivers
  frame : ∀ r < ps.fresh, r ∉ ps.bc.receivers → ps'.heap r = ps.heap r

structure Live (ps : PubSub) (r : ReceiverId) : Prop where
  listed : r ∈ ps.bc.receivers
  opened : (ps.heap r).closed = false

theorem tame_subscribeWithCap (ps : PubSub) (chanSize : Nat) :
    Tame ps (ps.subscribeWithCap chanSize) where
  fresh := Nat.le_succ _
  bound := by
    intro h
    exact Slots.forall_mem_snoc (fun r hr => Nat.lt_succ_of_lt (h r hr)) (Nat.lt_succ_self _)
  old := by
    intro r hlt hr
    exact (Slots.mem_snoc hr).resolve_right (Nat.ne_of_lt hlt)
  frame := fun r hlt _ => update_of_ne (Nat.ne_of_lt hlt) _ _

theorem tame_unsubscribe (ps : PubSub) (q : ReceiverId) : Tame ps (ps.unsubscribe q) := by
  unfold unsubscribe
  split
  · next hq =>
    refine ⟨Nat.le_refl _, ?_, ?_, ?_⟩
    · exact fun h r hr => h r (mem_filter.mp hr).1
    · exact fun r _ hr => (mem_filter.mp hr).1
    · intro r _ hr
      have hne : r ≠ q := fun heq => hr (heq ▸ hq)
      exact update_of_ne hne _ _
  · exact ⟨Nat.le_refl _, fun h => h, fun _ _ h => h, fun _ _ _ => rfl⟩

theorem tame_close (ps : PubSub) : Tame ps ps.close where
  fresh := Nat.le_refl _
  bound := nofun
  old := nofun
  frame := fun _ _ hr => if_neg hr

theorem fanoutAll_frame (sc : Bool) (au : AccessUnit) (l : List ReceiverId)
    (heap : ReceiverId → Receiver) (r : ReceiverId) :
    (r ∉ l → fanoutAll sc au l heap r = heap r) ∧
      (fanoutAll sc au l heap r).closed = (heap r).closed := by
  unfold fanoutAll
  induction l generalizing heap with
  | nil => exact ⟨fun _ => rfl, rfl⟩
  | cons q l ih =>
    obtain ⟨hframe, hclosed⟩ := ih (update heap q ((heap q).fanout sc au))
    rw [foldl_cons]
    refine ⟨?_, hclosed.trans ?_⟩
    · intro hr
      rw [hframe (fun h => hr (mem_cons_of_mem _ h))]
      have hne : r ≠ q := fun heq => hr (heq ▸ mem_cons_self)
      exact update_of_ne hne _ _
    · by_cases h : r = q
      · rw [h, update_self]
        exact (Receiver.fanout_spec sc au (heap q)).2.2.2
      · rw [update_of_ne h]

theorem tame_publish (ps : PubSub) (au : AccessUnit) : Tame ps (ps.publish au) := by
  unfold publish
  split
  · exact ⟨Nat.le_refl _, fun h => h, fun _ _ h => h, fun _ _ _ => rfl⟩
  · exact ⟨Nat.le_refl _, fun h => h, fun _ _ h => h,
      fun r _ hr => (fanoutAll_frame _ _ _ _ r).1 hr⟩

theorem Live.subscribeWithCap {ps : PubSub} {r} (h : ps.Live r) (hlt : r < ps.fresh)
    (chanSize : Nat) : (ps.subscribeWithCap chanSize).Live r where
  listed := mem_append_left _ h.listed
  opened := by
    show (update ps.heap ps.fresh _ r).closed = false
    rw [update_of_ne (Nat.ne_of_lt hlt)]
    exact h.opened

theorem Live.unsubscribe {ps : PubSub} {r q} (h : ps.Live r) (hne : r ≠ q) :
    (ps.unsubscribe q).Live r := by
  unfold PubSub.unsubscribe
  split
  · refine ⟨mem_filter.mpr ⟨h.listed, by simpa using hne⟩, ?_⟩
    show (update ps.heap q _ r).closed = false
    rw [update_of_ne hne]
    exact h.opened
  · exact h

theorem Live.publish {ps : PubSub} {r} (h : ps.Live r) (au : AccessUnit) :
    (ps.publish au).Live r := by
  unfold PubSub.publish
  split
  · exact h
  · exact ⟨h.listed, ((fanoutAll_frame _ _ _ _ r).2).trans h.opened⟩

theorem live_subscribeWithCap (ps : PubSub) {chanSize} (hpos : 0 < chanSize) :
    (ps.subscribeWithCap chanSize).Live ps.fresh where
  listed := mem_concat_self
  opened := by
    show (update ps.heap ps.fresh _ ps.fresh).closed = false
    rw [update_self]
    exact (ps.bc.newReceiver_spec hpos).2.2.1

end PubSub

/-! ## The server -/

namespace Server

def Live (s : Server) (b : BroadcasterId) (r : ReceiverId) : Prop := (s.pubsub b).Live r

structure Born (next : ReceiverId) (p : PersistedSession) : Prop where
  receivers : ∀ n r, p.receivers.lookup n = some r → r < next
  onEvict : ∀ x ∈ p.onEvict, x.2 < next

theorem Born.mono {next next' p} (h : Born next p) (hle : next ≤ next') : Born next' p :=
  ⟨fun n r hr => (h.receivers n r hr).trans_le hle, fun x hx => (h.onEvict x hx).trans_le hle⟩

structure TableOK (s : Server) : Prop where
  named : ∀ n t, s.tracks.lookup n = some t → t.name = n
  known : ∀ n t, s.tracks.lookup n = some t → t.bc < s.nextBroadcaster
  distinct : ∀ n n' t t', s.tracks.lookup n = some t → s.tracks.lookup n' = some t' →
               t.bc = t'.bc → n = n'

/-- Everything the server refers to exists, and is referred to once. -/
structure WF (s : Server) : Prop extends TableOK s where
  born : ∀ b, ∀ r ∈ (s.broadcasters b).receivers, r < s.nextReceiver
  owner : ∀ b b', ∀ r ∈ (s.broadcasters b).receivers,
               r ∈ (s.broadcasters b').receivers → b = b'
  stored : ∀ k p, s.store.byID.lookup k = some p → Born s.nextReceiver p
  attached : ∀ ref n tp, (s.sessionAt ref).tracks.lookup n = some tp → tp.recv < s.nextReceiver

/-- No receiver changes its broadcaster. -/
structure Evolves (s s' : Server) : Prop where
  receivers : s.nextReceiver ≤ s'.nextReceiver
  broadcasters : s.nextBroadcaster ≤ s'.nextBroadcaster
  old : ∀ b, ∀ r < s.nextReceiver, r ∈ (s'.broadcasters b).receivers →
                   r ∈ (s.broadcasters b).receivers

theorem pubsub_onBroadcaster_self (s : Server) (b : BroadcasterId) (f : PubSub → PubSub) :
    (s.onBroadcaster b f).pubsub b = f (s.pubsub b) := by
  simp [pubsub, onBroadcaster]

variable {b b' : BroadcasterId} {s : Server}

theorem onBroadcaster_of_ne (s : Server) (h : b' ≠ b)
    (f : PubSub → PubSub) : (s.onBroadcaster b f).broadcasters b' = s.broadcasters b' :=
  update_of_ne h _ _

variable {f : PubSub → PubSub}

theorem evolves_onBroadcaster (hf : PubSub.Tame (s.pubsub b) (f (s.pubsub b))) :
    Evolves s (s.onBroadcaster b f) where
  receivers := hf.fresh
  broadcasters := le_rfl
  old := by
    intro b' r hlt hr
    by_cases hb : b' = b
    · subst hb
      have hself : (s.onBroadcaster b' f).broadcasters b' = (f (s.pubsub b')).bc :=
        update_self ..
      rw [hself] at hr
      exact hf.old r hlt hr
    · rwa [onBroadcaster_of_ne s hb] at hr

theorem WF.onBroadcaster (h : s.WF) (hf : PubSub.Tame (s.pubsub b) (f (s.pubsub b))) :
    (s.onBroadcaster b f).WF := by
  have hev := evolves_onBroadcaster hf
  have hborn : ∀ b', ∀ r ∈ ((s.onBroadcaster b f).broadcasters b').receivers,
      r < (s.onBroadcaster b f).nextReceiver := by
    intro b' r hr
    by_cases hb : b' = b
    · subst hb
      have hself : (s.onBroadcaster b' f).broadcasters b' = (f (s.pubsub b')).bc :=
        update_self ..
      rw [hself] at hr
      exact hf.bound (h.born b') r hr
    · rw [onBroadcaster_of_ne s hb] at hr
      exact (h.born b' r hr).trans_le hev.receivers
  refine ⟨{ h with }, hborn, ?_, ?_, ?_⟩
  · intro b₁ b₂ r hr₁ hr₂
    -- A receiver that existed before was listed by both before; a new
    -- one is listed by `b` alone.
    by_cases hlt : r < s.nextReceiver
    · exact h.owner b₁ b₂ r (hev.old b₁ r hlt hr₁) (hev.old b₂ r hlt hr₂)
    · have hb : ∀ b', r ∈ ((s.onBroadcaster b f).broadcasters b').receivers → b' = b := by
        intro b' hr
        by_contra hne
        rw [onBroadcaster_of_ne s hne] at hr
        exact hlt (h.born b' r hr)
      rw [hb b₁ hr₁, hb b₂ hr₂]
  · exact fun k p hp => (h.stored k p hp).mono hev.receivers
  · exact fun ref n tp htp => (h.attached ref n tp htp).trans_le hev.receivers

theorem Live.onBroadcaster_of_ne (hwf : s.WF) {r} (h : s.Live b r) (hne : b ≠ b')
    (hf : PubSub.Tame (s.pubsub b') (f (s.pubsub b'))) : (s.onBroadcaster b' f).Live b r where
  listed := by
    show r ∈ ((s.onBroadcaster b' f).broadcasters b).receivers
    rw [Server.onBroadcaster_of_ne s hne]
    exact h.listed
  opened := by
    have hnot : r ∉ (s.broadcasters b').receivers :=
      fun hr => hne (hwf.owner b b' r h.listed hr)
    have hsame : (f (s.pubsub b')).heap r = s.heap r :=
      hf.frame r (hwf.born b r h.listed) hnot
    exact (congrArg Receiver.closed hsame).trans h.opened

theorem Live.onBroadcaster (hwf : s.WF) {r} (h : s.Live b r)
    (hf : PubSub.Tame (s.pubsub b') (f (s.pubsub b')))
    (hself : b = b' → (s.pubsub b').Live r → (f (s.pubsub b')).Live r) :
    (s.onBroadcaster b' f).Live b r := by
  by_cases hb : b = b'
  · subst hb
    show ((s.onBroadcaster b f).pubsub b).Live r
    rw [pubsub_onBroadcaster_self]
    exact hself rfl h
  · exact h.onBroadcaster_of_ne hwf hb hf

/-! ## Sessions and the store -/

theorem onSession_self (s : Server) (ref : SessionRef) (f : Session → Session) :
    (s.onSession ref f).sessionAt ref = f (s.sessionAt ref) :=
  update_self ..

theorem onSession_of_ne (s : Server) {ref ref'} (h : ref' ≠ ref) (f : Session → Session) :
    (s.onSession ref f).sessionAt ref' = s.sessionAt ref' :=
  update_of_ne h _ _

theorem WF.onSession (h : s.WF) (ref : SessionRef) {f : Session → Session}
    (hf : ∀ n tp, (f (s.sessionAt ref)).tracks.lookup n = some tp → tp.recv < s.nextReceiver) :
    (s.onSession ref f).WF := by
  refine { h with attached := ?_ }
  intro ref' n tp htp
  by_cases href : ref' = ref
  · rw [href, onSession_self] at htp
    exact hf n tp htp
  · rw [onSession_of_ne s href] at htp
    exact h.attached ref' n tp htp

theorem WF.setStore (h : s.WF) {store : MemorySessionStore}
    (hstored : ∀ k p, store.byID.lookup k = some p → Born s.nextReceiver p) :
    ({ s with store := store } : Server).WF :=
  { h with stored := hstored }

variable {P : Server → Prop}

theorem unsubscribeAll_induction {pairs}
    (hstep : ∀ s, ∀ x ∈ pairs, P s → P (s.onBroadcaster x.1 (fun ps => ps.unsubscribe x.2)))
    (h : P s) : P (s.unsubscribeAll pairs) := by
  unfold unsubscribeAll
  induction pairs generalizing s with
  | nil => exact h
  | cons x pairs ih =>
    exact ih (fun s y hy => hstep s y (mem_cons_of_mem _ hy))
      (hstep s x mem_cons_self h)

theorem unsubscribeAll_frame (s : Server) (pairs : List (BroadcasterId × ReceiverId)) :
    (s.unsubscribeAll pairs).tracks = s.tracks ∧ (s.unsubscribeAll pairs).store = s.store ∧
      (s.unsubscribeAll pairs).sessionAt = s.sessionAt ∧
      (s.unsubscribeAll pairs).nextReceiver = s.nextReceiver ∧
      (s.unsubscribeAll pairs).nextBroadcaster = s.nextBroadcaster := by
  refine unsubscribeAll_induction (P := fun s' => s'.tracks = s.tracks ∧ s'.store = s.store ∧
    s'.sessionAt = s.sessionAt ∧ s'.nextReceiver = s.nextReceiver ∧
    s'.nextBroadcaster = s.nextBroadcaster) ?_ ⟨rfl, rfl, rfl, rfl, rfl⟩
  rintro s' x - ⟨ht, hs, ha, hr, hb⟩
  refine ⟨ht, hs, ha, Eq.trans ?_ hr, hb⟩
  show ((s'.pubsub x.1).unsubscribe x.2).fresh = s'.nextReceiver
  unfold PubSub.unsubscribe
  split <;> rfl

theorem unsubscribeAll_cfg (s : Server) (pairs : List (BroadcasterId × ReceiverId)) :
    (s.unsubscribeAll pairs).cfg = s.cfg :=
  unsubscribeAll_induction (P := fun s' => s'.cfg = s.cfg) (fun _ _ _ h => h) rfl

theorem WF.unsubscribeAll (h : s.WF) (pairs : List (BroadcasterId × ReceiverId)) :
    (s.unsubscribeAll pairs).WF :=
  unsubscribeAll_induction (fun _ _ _ hs => hs.onBroadcaster (PubSub.tame_unsubscribe _ _)) h

/-! ## The track table -/

theorem attachRecordersToTrack_receivers (name : GoString) (b : BroadcasterId) (bc : Broadcaster)
    (es : List RecorderEntry) :
    (attachRecordersToTrack name b bc es).1.receivers = bc.receivers := by
  induction es generalizing bc with
  | nil => rfl
  | cons e es ih =>
    show (attachRecordersToTrack name b (attachRecorder name b bc e).1 es).1.receivers = _
    rw [ih]
    unfold attachRecorder
    cases e.recorder <;> rfl

theorem registerTrack_of_none {name} (h : s.tracks.lookup name = none) (kind : Kind)
    (priority trackID : UInt8) :
    ∃ bc recorders, bc.receivers = [] ∧
      s.registerTrack name kind priority trackID =
        ({ s with
            tracks := s.tracks.insert name
              { name := name, kind := kind, priority := priority, trackID := trackID,
                bc := s.nextBroadcaster }
            broadcasters := update s.broadcasters s.nextBroadcaster bc
            nextBroadcaster := s.nextBroadcaster + 1
            recorders := recorders }, some (s.nextBroadcaster, s.sessions)) := by
  refine ⟨(attachRecordersToTrack name s.nextBroadcaster (s.trackBroadcaster kind) s.recorders).1,
    (attachRecordersToTrack name s.nextBroadcaster (s.trackBroadcaster kind) s.recorders).2, ?_, ?_⟩
  · rw [attachRecordersToTrack_receivers]
    unfold trackBroadcaster
    split <;> rfl
  · simp only [registerTrack, h]

theorem registerTrack_of_some {name t} (h : s.tracks.lookup name = some t) (kind : Kind)
    (priority trackID : UInt8) : s.registerTrack name kind priority trackID = (s, none) := by
  simp only [registerTrack, h]

theorem TableOK.insert (h : s.TableOK) (name : GoString) {t : TrackEntry}
    (hname : t.name = name) (hbc : t.bc = s.nextBroadcaster) :
    ({ s with
        tracks := s.tracks.insert name t
        nextBroadcaster := s.nextBroadcaster + 1 } : Server).TableOK := by
  refine ⟨?_, ?_, ?_⟩
  · intro n t' ht
    rcases lookup_insert_eq_some_iff.mp ht with ⟨rfl, rfl⟩ | ⟨-, hold⟩
    · exact hname
    · exact h.named n t' hold
  · intro n t' ht
    rcases lookup_insert_eq_some_iff.mp ht with ⟨rfl, rfl⟩ | ⟨-, hold⟩
    · exact hbc ▸ Nat.lt_succ_self _
    · exact Nat.lt_succ_of_lt (h.known n t' hold)
  · intro n n' t₁ t₂ ht₁ ht₂ heq
    rcases lookup_insert_eq_some_iff.mp ht₁ with ⟨rfl, rfl⟩ | ⟨-, hold₁⟩ <;>
    rcases lookup_insert_eq_some_iff.mp ht₂ with ⟨rfl, rfl⟩ | ⟨-, hold₂⟩
    · rfl
    · exact absurd (hbc.symm.trans heq).symm (Nat.ne_of_lt (h.known n' t₂ hold₂))
    · exact absurd (heq.trans hbc) (Nat.ne_of_lt (h.known n t₁ hold₁))
    · exact h.distinct n n' t₁ t₂ hold₁ hold₂ heq

theorem TableOK.erase (h : s.TableOK) (name : GoString) :
    ({ s with tracks := s.tracks.erase name } : Server).TableOK where
  named := fun n t ht => h.named n t (lookup_erase_eq_some_iff.mp ht).2
  known := fun n t ht => h.known n t (lookup_erase_eq_some_iff.mp ht).2
  distinct := fun n n' t t' ht ht' => h.distinct n n' t t'
    (lookup_erase_eq_some_iff.mp ht).2 (lookup_erase_eq_some_iff.mp ht').2

theorem WF.registerTrack (h : s.WF) (name : GoString) (kind : Kind)
    (priority trackID : UInt8) : (s.registerTrack name kind priority trackID).1.WF := by
  cases hl : s.tracks.lookup name with
  | some t => rw [registerTrack_of_some hl]; exact h
  | none =>
    obtain ⟨bc, recorders, hbc, heq⟩ := registerTrack_of_none hl kind priority trackID
    rw [heq]
    have hlisted : ∀ b r, r ∈ (update s.broadcasters s.nextBroadcaster bc b).receivers →
        r ∈ (s.broadcasters b).receivers := by
      intro b r hr
      by_cases hb : b = s.nextBroadcaster
      · rw [hb, update_self, hbc] at hr
        cases hr
      · rwa [update_of_ne hb] at hr
    have htable := h.insert name (t := ⟨name, kind, priority, trackID, s.nextBroadcaster⟩) rfl rfl
    refine ⟨{ htable with }, ?_, ?_, h.stored, h.attached⟩
    · exact fun b r hr => h.born b r (hlisted b r hr)
    · exact fun b b' r hr hr' => h.owner b b' r (hlisted b r hr) (hlisted b' r hr')

theorem registerTrack_frame (s : Server) (name : GoString) (kind : Kind)
    (priority trackID : UInt8) :
    (s.registerTrack name kind priority trackID).1.heap = s.heap ∧
      (s.registerTrack name kind priority trackID).1.nextReceiver = s.nextReceiver ∧
      s.nextBroadcaster ≤ (s.registerTrack name kind priority trackID).1.nextBroadcaster ∧
      (s.registerTrack name kind priority trackID).1.store = s.store ∧
      (∀ b < s.nextBroadcaster,
        (s.registerTrack name kind priority trackID).1.broadcasters b = s.broadcasters b) ∧
      ∀ b, ∀ r ∈ ((s.registerTrack name kind priority trackID).1.broadcasters b).receivers,
        r ∈ (s.broadcasters b).receivers := by
  cases hl : s.tracks.lookup name with
  | some t =>
    rw [registerTrack_of_some hl]
    exact ⟨rfl, rfl, le_rfl, rfl, fun _ _ => rfl, fun _ _ h => h⟩
  | none =>
    obtain ⟨bc, recorders, hbc, heq⟩ := registerTrack_of_none hl kind priority trackID
    rw [heq]
    refine ⟨rfl, rfl, Nat.le_succ _, rfl, ?_, ?_⟩
    · exact fun b hb => update_of_ne (Nat.ne_of_lt hb) _ _
    · intro b r hr
      by_cases hb : b = s.nextBroadcaster
      · simp only [hb, update_self, hbc] at hr
        cases hr
      · simpa only [update_of_ne hb] using hr

theorem WF.unregisterTrack (h : s.WF) (name : GoString) : (s.unregisterTrack name).1.WF := by
  unfold Server.unregisterTrack
  cases s.tracks.lookup name with
  | none => exact h
  | some t =>
    exact { h with toTableOK := h.erase name }

/-! ## Adding and removing tracks -/

theorem addTrackInternal_induction (codec : Codec) (accepted : SessionRef → Bool) (name : GoString)
    (kind : Kind) (priority trackID : UInt8)
    (hreg : P (s.registerTrack name kind priority trackID).1)
    (hattach : ∀ s b ref, P s → P (s.attachAdded b name kind priority trackID ref))
    (hsend : ∀ s ref, P s → P (s.onSession ref
      (fun sess => sess.sendAnnounce codec (accepted ref) name kind.toGoString []))) :
    P (s.addTrackInternal codec accepted name kind priority trackID) := by
  unfold addTrackInternal
  cases hr : s.registerTrack name kind priority trackID with
  | mk s₁ found =>
    rw [hr] at hreg
    cases found with
    | none => exact hreg
    | some x =>
      obtain ⟨b, refs⟩ := x
      have hfold : ∀ (refs : List SessionRef) (s : Server), P s →
          P (refs.foldl (fun s ref => (s.attachAdded b name kind priority trackID ref).onSession ref
            (fun sess => sess.sendAnnounce codec (accepted ref) name kind.toGoString [])) s) := by
        intro refs
        induction refs with
        | nil => exact fun _ h => h
        | cons ref refs ih =>
          intro s h
          exact ih _ (hsend _ ref (hattach s b ref h))
      exact hfold refs s₁ hreg

theorem removeTrack_induction (codec : Codec) (accepted : SessionRef → Bool) (name : GoString)
    (hunreg : P (s.unregisterTrack name).1) (hdetach : ∀ s ref, P s → P (s.onSession ref
      (fun sess => (sess.detachTrack name).sendUnannounce codec (accepted ref) name)))
    (hclose : ∀ t, s.tracks.lookup name = some t → ∀ s', P s' → P (s'.onBroadcaster t.bc PubSub.close)) :
    P (s.removeTrack codec accepted name) := by
  unfold removeTrack
  unfold Server.unregisterTrack at hunreg ⊢
  cases hl : s.tracks.lookup name with
  | none =>
    rw [hl] at hunreg
    exact hunreg
  | some t =>
    rw [hl] at hunreg
    have hfold : ∀ (refs : List SessionRef) (s : Server), P s →
        P (refs.foldl (fun s ref => s.onSession ref (fun sess =>
          (sess.detachTrack name).sendUnannounce codec (accepted ref) name)) s) := by
      intro refs
      induction refs with
      | nil => exact fun _ h => h
      | cons ref refs ih =>
        intro s h
        exact ih _ (hdetach s ref h)
    exact hclose t hl _ (hfold _ _ hunreg)

theorem WF.attachAdded (h : s.WF) (b : BroadcasterId) (name : GoString) (kind : Kind)
    (priority trackID : UInt8) (ref : SessionRef) :
    (s.attachAdded b name kind priority trackID ref).WF := by
  have hsub : PubSub.Tame (s.pubsub b) (s.pubsub b).subscribe := PubSub.tame_subscribeWithCap _ _
  unfold Server.attachAdded
  refine (h.onBroadcaster hsub).onSession ref ?_
  intro n tp htp
  rcases Session.attachTrackWithKind_tracks _ _ _ _ _ _ htp with hold | hnew
  · exact (h.onBroadcaster hsub).attached ref n tp hold
  · rw [hnew]
    exact Nat.lt_succ_self _

theorem WF.sendAnnounce (h : s.WF) (codec : Codec) (accepted : Bool)
    (ref : SessionRef) (name kind codecName : GoString) :
    (s.onSession ref (fun sess => sess.sendAnnounce codec accepted name kind codecName)).WF := by
  refine h.onSession ref ?_
  intro n tp htp
  obtain ⟨c, hc⟩ := Session.sendAnnounce_frame codec accepted (s.sessionAt ref) name kind codecName
  rw [hc] at htp
  exact h.attached ref n tp htp

theorem WF.detach (h : s.WF) (codec : Codec) (accepted : Bool) (ref : SessionRef)
    (name : GoString) :
    (s.onSession ref (fun sess =>
      (sess.detachTrack name).sendUnannounce codec accepted name)).WF := by
  refine h.onSession ref ?_
  intro n tp htp
  obtain ⟨c, hc⟩ := Session.sendUnannounce_frame codec accepted ((s.sessionAt ref).detachTrack name) name
  rw [hc] at htp
  exact h.attached ref n tp (Session.detachTrack_tracks htp)

theorem WF.addTrackInternal (h : s.WF) (codec : Codec) (accepted : SessionRef → Bool)
    (name : GoString) (kind : Kind) (priority trackID : UInt8) :
    (s.addTrackInternal codec accepted name kind priority trackID).WF :=
  addTrackInternal_induction codec accepted name kind priority trackID
    (h.registerTrack name kind priority trackID)
    (fun _ b ref hs => hs.attachAdded b name kind priority trackID ref)
    (fun _ ref hs => hs.sendAnnounce codec (accepted ref) ref name kind.toGoString [])

theorem WF.removeTrack (h : s.WF) (codec : Codec) (accepted : SessionRef → Bool)
    (name : GoString) : (s.removeTrack codec accepted name).WF :=
  removeTrack_induction codec accepted name (h.unregisterTrack name)
    (fun _ ref hs => hs.detach codec (accepted ref) ref name)
    (fun _ _ _ hs => hs.onBroadcaster (PubSub.tame_close _))

theorem WF.publish (h : s.WF) (b : BroadcasterId) (au : AccessUnit) : (s.publish b au).WF :=
  h.onBroadcaster (PubSub.tame_publish _ _)

theorem wf_newServer (codec : Codec) (cfg : ServerConfig) (resumeWindow : Int) :
    (newServer codec cfg resumeWindow).WF :=
  have hempty : (emptyServer cfg resumeWindow).WF :=
    ⟨⟨nofun, nofun, nofun⟩, nofun, nofun, nofun, nofun⟩
  hempty.addTrackInternal codec (fun _ => true) _ _ _ _

end Server

end QuicRTC

import QuicRTC.Feed.PumpSet

/-! # What a Receiver Finds on a Stream

The streams of a session, for every pattern of failing opens and writes and every point at which the
scheduler closes: the header, if the track has a name, and complete frames of dequeued units, up to
the item that is being written or whose write failed. What a lane has still to write is the rest of
the item whose first part is its stream's tail.
-/

namespace QuicRTC

open Wire LTS List Option Slots

/-! ## Contents of a stream -/

def StreamItem.IsHeader (cfg : FeedConfig) (it : StreamItem) : Prop :=
  it.unit = none ∧ ∃ ws, writeStreamHeader cfg.trackName = some ws ∧ ws.flatten = it.bytes

def StreamItem.IsFrame (units : List AccessUnit) (cfg : FeedConfig) (it : StreamItem) : Prop :=
  ∃ n au now, it.unit = some n ∧ units[n]? = some au ∧ pumpFrame cfg now au = some it.bytes

def Content (units : List AccessUnit) (cfg : FeedConfig) (items : List StreamItem) : Prop :=
  if cfg.trackName = [] then ∀ it ∈ items, it.IsFrame units cfg
  else
    match items with
    | [] => True
    | h :: rest => h.IsHeader cfg ∧ ∀ it ∈ rest, it.IsFrame units cfg

def Extends (units units' : List AccessUnit) : Prop :=
  ∀ (n : Nat) (au : AccessUnit), units[n]? = some au → units'[n]? = some au

theorem extends_refl (units : List AccessUnit) : Extends units units := fun _ _ h => h

theorem extends_snoc (units : List AccessUnit) (au : AccessUnit) :
    Extends units (units ++ [au]) := by
  intro n x h
  exact getElem?_append_some h

variable {cfg : FeedConfig} {units : List AccessUnit} {it : StreamItem}

theorem StreamItem.IsFrame.mono {units'} (hext : Extends units units') (h : it.IsFrame units cfg) :
    it.IsFrame units' cfg := by
  obtain ⟨n, au, now, hn, hau, hframe⟩ := h
  exact ⟨n, au, now, hn, hext n au hau, hframe⟩

theorem Content.mono {units'} (hext : Extends units units') {items} (h : Content units cfg items) :
    Content units' cfg items := by
  unfold Content at h ⊢
  split at h
  · next hname =>
    rw [if_pos hname]
    exact fun it hit => (h it hit).mono hext
  · next hname =>
    rw [if_neg hname]
    cases items with
    | nil => trivial
    | cons x rest => exact ⟨h.1, fun it hit => (h.2 it hit).mono hext⟩

theorem content_nil (units : List AccessUnit) (cfg : FeedConfig) : Content units cfg [] := by
  unfold Content
  split
  · exact nofun
  · trivial

theorem content_header (hname : cfg.trackName ≠ []) (h : it.IsHeader cfg) : Content units cfg [it] := by
  unfold Content
  rw [if_neg hname]
  exact ⟨h, nofun⟩

theorem Content.snoc {items} (h : Content units cfg items) (hhead : cfg.trackName ≠ [] → items ≠ [])
    (hit : it.IsFrame units cfg) : Content units cfg (items ++ [it]) := by
  unfold Content at h ⊢
  split at h
  · next hname =>
    rw [if_pos hname]
    exact forall_mem_snoc h hit
  · next hname =>
    rw [if_neg hname]
    cases items with
    | nil => exact absurd rfl (hhead hname)
    | cons x rest => exact ⟨h.1, forall_mem_snoc h.2 hit⟩

structure StreamOk (units : List AccessUnit) (st : OutStream) : Prop where
  bytes : st.bytes = st.items.flatMap StreamItem.bytes ++ st.tail
  content : Content units st.cfg (st.items ++ st.cut.toList)
  failed : st.failed = st.cut.isSome
  cut : ∀ it ∈ st.cut, st.tail <+: it.bytes

namespace StreamOk

variable {units : List AccessUnit} {st : OutStream}

theorem fresh (units : List AccessUnit) (cfg : FeedConfig) :
    StreamOk units (OutStream.fresh cfg) where
  bytes := rfl
  content := content_nil units cfg
  failed := rfl
  cut := nofun

theorem mono {units'} (hext : Extends units units') (h : StreamOk units st) :
    StreamOk units' st where
  bytes := h.bytes
  content := h.content.mono hext
  failed := h.failed
  cut := h.cut

theorem complete (h : StreamOk units st) (hcut : st.cut = none) {item}
    (hcontent : Content units st.cfg (st.items ++ [item])) {w} (hw : st.tail ++ w = item.bytes) :
    StreamOk units (st.write item w true .ok) where
  bytes := by
    show st.bytes ++ w = (st.items ++ [item]).flatMap StreamItem.bytes ++ []
    rw [h.bytes, append_assoc, hw, flatMap_append, flatMap_singleton,
      append_nil]
  content := by
    show Content units st.cfg ((st.items ++ [item]) ++ st.cut.toList)
    rw [hcut, toList_none, append_nil]
    exact hcontent
  failed := h.failed
  cut := by
    intro it hit
    have hit : it ∈ st.cut := hit
    rw [hcut] at hit
    cases hit

theorem more (h : StreamOk units st) (hcut : st.cut = none) (item : StreamItem) (w : List UInt8) :
    StreamOk units (st.write item w false .ok) where
  bytes := by
    show st.bytes ++ w = st.items.flatMap StreamItem.bytes ++ (st.tail ++ w)
    rw [h.bytes, append_assoc]
  content := h.content
  failed := h.failed
  cut := by
    intro it hit
    have hit : it ∈ st.cut := hit
    rw [hcut] at hit
    cases hit

theorem fail (h : StreamOk units st) {item} (hcontent : Content units st.cfg (st.items ++ [item]))
    {w} (hw : st.tail ++ w <+: item.bytes) (last : Bool) (n : Nat) :
    StreamOk units (st.write item w last (.failed n)) where
  bytes := by
    show st.bytes ++ w.take n = st.items.flatMap StreamItem.bytes ++ (st.tail ++ w.take n)
    rw [h.bytes, append_assoc]
  content := hcontent
  failed := rfl
  cut := by
    intro it hit
    cases hit
    exact ((prefix_append_right_inj _).mpr ( take_prefix n w)).trans hw

end StreamOk

/-! ## A lane and its stream -/

def Lane.uses (ln : Lane) : Option Nat :=
  match ln.pc with
  | .waiting => ln.current
  | .sending _ _ => ln.current
  | .header i _ _ _ _ => some i
  | .writing i _ _ _ => some i
  | _ => none

def Lane.Writing (ln : Lane) (k : Nat) : Prop :=
  match ln.pc with
  | .header i _ _ _ _ => i = k
  | .writing i _ _ _ => i = k
  | _ => False

structure Clean (cfg : FeedConfig) (st : OutStream) : Prop where
  owner : st.cfg = cfg
  cut : st.cut = none
  tail : st.tail = []
  header : cfg.trackName ≠ [] → st.items ≠ []

structure Within (cfg : FeedConfig) (st : OutStream) (item : StreamItem)
    (rest : List (List UInt8)) : Prop where
  owner : st.cfg = cfg
  cut : st.cut = none
  rest : st.tail ++ rest.flatten = item.bytes

theorem Within.more {cfg st item w rest} (h : Within cfg st item (w :: rest)) :
    Within cfg (st.write item w false .ok) item rest where
  owner := h.owner
  cut := h.cut
  rest := by
    show st.tail ++ w ++ rest.flatten = item.bytes
    rw [← h.rest, flatten_cons, append_assoc]

theorem Within.complete {cfg st item w} (h : Within cfg st item [w]) :
    Clean cfg (st.write item w true .ok) where
  owner := h.owner
  cut := h.cut
  tail := rfl
  header := fun _ => append_ne_nil_of_right_ne_nil _ (cons_ne_nil _ _)

def Known (units : List AccessUnit) (u : Option InHand) : Prop :=
  ∀ x ∈ u, units[x.index]? = some x.au

def LanePc.Fits (units : List AccessUnit) (streams : List OutStream) (cfg : FeedConfig)
    (current : Option Nat) : LanePc → Prop
  | .waiting => ∀ i ∈ current, ∃ st, streams[i]? = some st ∧ Clean cfg st
  | .opening u => Known units u
  | .header i item w rest u =>
    Known units u ∧ cfg.trackName ≠ [] ∧ item.IsHeader cfg ∧
      ∃ st, streams[i]? = some st ∧ st.items = [] ∧ Within cfg st item (w :: rest)
  | .writing i item w rest =>
    item.IsFrame units cfg ∧ current = some i ∧
      ∃ st, streams[i]? = some st ∧ (cfg.trackName ≠ [] → st.items ≠ []) ∧
        Within cfg st item (w :: rest)
  | .sending u _ =>
    Known units (some u) ∧ ∀ i ∈ current, ∃ st, streams[i]? = some st ∧ Clean cfg st
  | .done => True

def Lane.Fits (units : List AccessUnit) (streams : List OutStream) (ln : Lane) : Prop :=
  ln.pc.Fits units streams ln.cfg ln.current

structure Lane.Lands (units : List AccessUnit) (streams : List OutStream) (o : Option Nat)
    (ln : Lane) : Prop where
  fits : ln.Fits units streams
  uses : ∀ k ∈ ln.uses, k ∈ o

namespace Lane

variable {units : List AccessUnit} {streams : List OutStream}

variable {u : InHand} {ln : Lane} {i : Nat}

theorem fits_mono (h : ln.Fits units streams) {units'} {streams' : List OutStream}
    (hext : Extends units units')
    (hstreams : ∀ k ∈ ln.uses, ∀ st, streams[k]? = some st → streams'[k]? = some st) :
    ln.Fits units' streams' := by
  unfold uses at hstreams
  unfold Fits at h ⊢
  cases hpc : ln.pc with
  | waiting =>
    rw [hpc] at h hstreams
    intro i hi
    obtain ⟨st, hst, hclean⟩ := h i hi
    exact ⟨st, hstreams i hi st hst, hclean⟩
  | opening u =>
    rw [hpc] at h
    exact fun x hx => hext _ _ (h x hx)
  | header i item w rest u =>
    rw [hpc] at h hstreams
    obtain ⟨hu, hname, hitem, st, hst, hrest⟩ := h
    exact ⟨fun x hx => hext _ _ (hu x hx), hname, hitem, st, hstreams i rfl st hst, hrest⟩
  | writing i item w rest =>
    rw [hpc] at h hstreams
    obtain ⟨hitem, hcur, st, hst, hrest⟩ := h
    exact ⟨hitem.mono hext, hcur, st, hstreams i rfl st hst, hrest⟩
  | sending u datagram =>
    rw [hpc] at h hstreams
    refine ⟨fun x hx => hext _ _ (h.1 x hx), fun i hi => ?_⟩
    obtain ⟨st, hst, hclean⟩ := h.2 i hi
    exact ⟨st, hstreams i hi st hst, hclean⟩
  | done => trivial

theorem idle_lands (h : ∀ i ∈ ln.current, ∃ st, streams[i]? = some st ∧ Clean ln.cfg st) :
    ln.idle.Lands units streams ln.current := by
  cases hcall : ln.call with
  | true => exact ⟨by simp [idle, hcall, Fits, LanePc.Fits], by simp [idle, hcall, uses]⟩
  | false =>
    refine ⟨?_, by simp [idle, hcall, uses]⟩
    simp only [idle, hcall]
    exact h

theorem giveUp_lands (ln : Lane) (o : Option Nat) : ln.giveUp.Lands units streams o := by
  have h : ln.giveUp.Lands units streams none :=
    @idle_lands units streams { ln with current := none } nofun
  exact ⟨h.fits, fun k hk => nomatch h.uses k hk⟩

theorem write_lands (ln : Lane) {st} (hst : streams[i]? = some st) (hclean : Clean ln.cfg st)
    (now : WallClock) (hu : Known units (some u)) :
    (ln.write i now u).Lands units streams (some i) := by
  unfold write
  split
  · next w rest hws =>
    have hframe := feedWrites_flatten ln.cfg now u.au
    rw [hws, map_some] at hframe
    refine ⟨⟨⟨u.index, u.au, now, rfl, hu u rfl, hframe.symm⟩, rfl, st, hst, hclean.header, ?_⟩, ?_⟩
    · exact { hclean with rest := by rw [hclean.tail]; rfl }
    · exact fun k hk => hk
  · exact giveUp_lands ln _

theorem ready_lands (ln : Lane) {st} (hst : streams[i]? = some st) (hclean : Clean ln.cfg st)
    (now : WallClock) {u} (hu : Known units u) :
    (ln.ready i now u).Lands units streams (some i) := by
  cases u with
  | none =>
    refine @idle_lands units streams { ln with current := some i } (fun k hk => ?_)
    cases hk
    exact ⟨st, hst, hclean⟩
  | some x => exact ln.write_lands hst hclean now hu

theorem opened_lands (ln : Lane) (hst : streams[i]? = some (OutStream.fresh ln.cfg))
    (now : WallClock) {u} (hu : Known units u) :
    (ln.opened i now u).Lands units streams (some i) := by
  unfold opened
  split
  · next hname =>
    split
    · next w rest hws =>
      refine ⟨⟨hu, hname, ⟨rfl, _, hws, rfl⟩, _, hst, rfl, rfl, rfl, rfl⟩, ?_⟩
      exact fun k hk => hk
    · exact giveUp_lands ln _
  · next hname =>
    exact ln.ready_lands hst ⟨rfl, rfl, rfl, fun h => absurd h hname⟩ now hu

theorem opening_lands (ln : Lane) (hu : Known units (some u)) (leading : Bool) (o : Option Nat) :
    Lands units streams o { ln with leadingAllowed := leading, pc := .opening (some u) } :=
  ⟨hu, nofun⟩

theorem start_lands (cfg : FeedConfig) : (start cfg).Lands units streams none := by
  unfold start
  split
  · exact ⟨nofun, nofun⟩
  · exact ⟨nofun, nofun⟩

theorem uses_open (h : ln.Fits units streams) {k} (hk : k ∈ ln.uses) :
    ∃ st, streams[k]? = some st ∧ st.cut = none := by
  unfold uses at hk
  unfold Fits at h
  cases hpc : ln.pc with
  | waiting =>
    rw [hpc] at h hk
    obtain ⟨st, hst, hclean⟩ := h k hk
    exact ⟨st, hst, hclean.cut⟩
  | header i item w rest u =>
    rw [hpc] at h hk
    cases hk
    obtain ⟨-, -, -, st, hst, -, hwithin⟩ := h
    exact ⟨st, hst, hwithin.cut⟩
  | writing i item w rest =>
    rw [hpc] at h hk
    cases hk
    obtain ⟨-, -, st, hst, -, hwithin⟩ := h
    exact ⟨st, hst, hwithin.cut⟩
  | sending u datagram =>
    rw [hpc] at h hk
    obtain ⟨st, hst, hclean⟩ := h.2 k hk
    exact ⟨st, hst, hclean.cut⟩
  | _ => rw [hpc] at hk; cases hk

theorem Writing.uses {k} (h : ln.Writing k) : k ∈ ln.uses := by
  unfold Writing at h
  unfold Lane.uses
  split at h
  · next hpc => rw [hpc]; exact congrArg some h
  · next hpc => rw [hpc]; exact congrArg some h
  · cases h

section Receive

variable (ln : Lane)
  (hcur : ∀ i ∈ ln.current, ∃ st, streams[i]? = some st ∧ Clean ln.cfg st)
  (now : WallClock) {u : InHand} (hu : Known units (some u))

include hcur hu

theorem writeOr_lands {i} (hi : ln.current = some i) :
    (ln.write i now u).Lands units streams ln.current := by
  obtain ⟨st, hst, hclean⟩ := hcur i hi
  rw [hi]
  exact ln.write_lands hst hclean now hu

theorem fallbackOrDrop_lands : (ln.fallbackOrDrop now u).Lands units streams ln.current :=
  fallbackOrDrop_induction (idle_lands hcur) (fun _ hi => ln.writeOr_lands hcur now hu hi)
    (ln.opening_lands hu _ _)

theorem receive_lands (hloop : ln.cfg.loop ≠ .bidiPerCall) :
    (ln.receive now u).Lands units streams ln.current :=
  receive_induction (idle_lands hcur) (fun _ hi => ln.writeOr_lands hcur now hu hi)
    (fun leading => ln.opening_lands hu leading _) (fun _ _ => ⟨⟨hu, hcur⟩, fun _ hk => hk⟩)
    (fallbackOrDrop_lands { ln with seq := ln.seq + 1 } hcur now hu) (fun hb => absurd hb hloop)

end Receive

end Lane

/-! ## Every stream and its lane -/

namespace PumpSet

/-- A stream ends within an item only if that is being written or failed; no two lanes use
    one stream. -/
structure Sound (s : PumpSet) : Prop where
  streams : ∀ st ∈ s.streams, StreamOk s.units st
  lanes : ∀ ln ∈ s.lanes, ln.Fits s.units s.streams
  apart : ∀ (i j : Nat) (ln m : Lane) (k : Nat), s.lanes[i]? = some ln → s.lanes[j]? = some m →
              k ∈ ln.uses → k ∈ m.uses → i = j
  tails : ∀ (k : Nat) (st : OutStream), s.streams[k]? = some st →
              st.tail = [] ∨ st.cut ≠ none ∨ ∃ ln ∈ s.lanes, ln.Writing k

theorem sound_start (cfgs : List FeedConfig) : Sound (PumpSet.start cfgs) where
  streams := nofun
  lanes := by
    intro ln hln
    obtain ⟨cfg, -, rfl⟩ := mem_map.mp hln
    exact (Lane.start_lands cfg).fits
  apart := by
    intro i j ln m k hi _ hk
    obtain ⟨cfg, -, rfl⟩ := mem_map.mp (mem_of_getElem? hi)
    exact nomatch (@Lane.start_lands [] [] cfg).uses k hk
  tails := fun _ _ hst => absurd (mem_of_getElem? hst) not_mem_nil


namespace Sound

variable {s : PumpSet}

variable {m : Lane} {rest : List (List UInt8)} {w : List UInt8} {k : Nat} {u : Option InHand}
  {t : PumpSet} {item : StreamItem} {r : WriteResult}

variable {i : Nat}

theorem apart_set (h : Sound s)
    (hm : ∀ (j : Nat) (ln : Lane) (k : Nat), j ≠ i → s.lanes[j]? = some ln → k ∈ ln.uses →
      k ∉ m.uses) :
    ∀ (j j' : Nat) (ln ln' : Lane) (k : Nat), (s.lanes.set i m)[j]? = some ln →
      (s.lanes.set i m)[j']? = some ln' → k ∈ ln.uses → k ∈ ln'.uses → j = j' := by
  intro j j' ln ln' k hj hj' hk hk'
  rcases getElem?_set_cases hj with ⟨hji, rfl⟩ | ⟨hne, hold⟩
  · rcases getElem?_set_cases hj' with ⟨hji', -⟩ | ⟨hne', hold'⟩
    · exact hji.trans hji'.symm
    · exact absurd hk (hm j' ln' k hne' hold' hk')
  · rcases getElem?_set_cases hj' with ⟨-, rfl⟩ | ⟨-, hold'⟩
    · exact absurd hk' (hm j ln k hne hold hk)
    · exact h.apart j j' ln ln' k hold hold' hk hk'

variable {ln : Lane}

section

variable (h : Sound s)
include h

theorem move (hlane : s.lanes[i]? = some ln) (hext : Extends s.units t.units)
    (hstreams : t.streams = s.streams) (hlanes : t.lanes = s.lanes.set i m)
    (hland : m.Lands t.units s.streams ln.uses) (hkeep : ∀ k, ln.Writing k → m.Writing k) :
    Sound t where
  streams := by
    rw [hstreams]
    exact fun st hst => (h.streams st hst).mono hext
  lanes := by
    rw [hlanes, hstreams]
    apply forall_mem_set _ hland.fits
    exact fun x hx => Lane.fits_mono (h.lanes x hx) hext (fun _ _ _ hst => hst)
  apart := by
    rw [hlanes]
    refine h.apart_set (fun j x k hne hj hk hm => ?_)
    exact hne (h.apart j i x ln k hj hlane hk (hland.uses k hm))
  tails := by
    rw [hstreams, hlanes]
    refine fun k st hst => (h.tails k st hst).imp_right (.imp_right ?_)
    rintro ⟨x, hx, hw⟩
    rcases mem_put_of_mem (o := some m) hlane hx with rfl | hold
    · exact ⟨m, mem_put_self hlane, hkeep k hw⟩
    · exact ⟨x, hold, hw⟩

theorem call (cfg : FeedConfig) (au : AccessUnit) :
    Sound { s with units := s.units ++ [au]
                   lanes := s.lanes ++ [Lane.forCall cfg ⟨s.units.length, au⟩] } where
  streams := fun st hst => (h.streams st hst).mono (extends_snoc _ _)
  lanes := by
    refine forall_mem_snoc ?_ (fun x hx => ?_)
    · exact fun x hx => Lane.fits_mono (h.lanes x hx) (extends_snoc _ _) (fun _ _ _ hst => hst)
    · cases hx
      exact getElem?_concat_length
  apart := by
    intro i j ln m k hi hj hk hk'
    rcases getElem?_snoc_cases hi with hi | ⟨-, rfl⟩
    · rcases getElem?_snoc_cases hj with hj | ⟨-, rfl⟩
      · exact h.apart i j ln m k hi hj hk hk'
      · cases hk'
    · cases hk
  tails := fun k st hst => (h.tails k st hst).imp_right
    (.imp_right (fun ⟨x, hx, hw⟩ => ⟨x, mem_append_left _ hx, hw⟩))

theorem opened (hlane : s.lanes[i]? = some ln) (hpc : ln.pc = .opening u) (cfg : FeedConfig)
    (hland : m.Lands s.units (s.streams ++ [OutStream.fresh cfg]) (some s.streams.length)) :
    Sound ({ s with streams := s.streams ++ [OutStream.fresh cfg] }.setLane i m) where
  streams := forall_mem_snoc h.streams (StreamOk.fresh _ _)
  lanes := by
    apply forall_mem_set _ hland.fits
    refine fun x hx => Lane.fits_mono (h.lanes x hx) (extends_refl _) (fun k _ st hst => ?_)
    exact getElem?_append_some hst
  apart := by
    refine h.apart_set (fun j x k _ hj hk hm => ?_)
    obtain ⟨st, hst, -⟩ := Lane.uses_open (h.lanes x (mem_of_getElem? hj)) hk
    have hlt := lt_of_getElem? hst
    obtain rfl := some.inj (hland.uses k hm)
    exact Nat.lt_irrefl _ hlt
  tails := by
    intro k st hst
    rcases getElem?_snoc_cases hst with hst | ⟨-, rfl⟩
    · refine (h.tails k st hst).imp_right (.imp_right ?_)
      rintro ⟨x, hx, hw⟩
      rcases mem_put_of_mem (o := some m) hlane hx with rfl | hold
      · simp [Lane.Writing, hpc] at hw
      · exact ⟨x, hold, hw⟩
    · exact .inl rfl

variable {st : OutStream}

variable {now : WallClock}

theorem wrote (hlane : s.lanes[i]? = some ln) (hw : ln.Writing k) (hok : StreamOk s.units st)
    (hstreams : written s.streams ln r = s.streams.set k st) (hm : ln.resume now r = m)
    (hland : m.Lands s.units (s.streams.set k st) (some k))
    (htail : st.tail = [] ∨ st.cut ≠ none ∨ m.Writing k) : Sound (s.perform i ln now r) where
  streams := by
    simp only [PumpSet.perform, hstreams]
    exact forall_mem_set h.streams hok
  lanes := by
    simp only [PumpSet.perform, hstreams, hm]
    intro x hx
    obtain ⟨j, hj⟩ := mem_iff_getElem?.mp hx
    rcases getElem?_set_cases hj with ⟨-, rfl⟩ | ⟨hne, hj⟩
    · exact hland.fits
    · -- another lane is at another stream
      refine Lane.fits_mono (h.lanes x (mem_of_getElem? hj)) (extends_refl _) ?_
      intro k' hk' st' hst'
      have hkk : k ≠ k' := by
        rintro rfl
        exact hne (h.apart j i x ln k hj hlane hk' hw.uses)
      rw [getElem?_set_ne hkk]
      exact hst'
  apart := by
    simp only [PumpSet.perform, hm]
    refine h.apart_set (fun j x k' hne hj hk' hm => ?_)
    obtain rfl := some.inj (hland.uses k' hm)
    exact hne (h.apart j i x ln k hj hlane hk' hw.uses)
  tails := by
    simp only [PumpSet.perform, hstreams, hm]
    intro k' st' hst'
    rcases getElem?_set_cases hst' with ⟨rfl, rfl⟩ | ⟨hne, hst'⟩
    · exact htail.imp_right (.imp_right (fun hm => ⟨m, mem_put_self hlane, hm⟩))
    · refine (h.tails k' st' hst').imp_right (.imp_right ?_)
      rintro ⟨x, hx, hw'⟩
      rcases mem_put_of_mem (o := some m) hlane hx with rfl | hold
      · have hk := hw.uses
        rw [hw'.uses] at hk
        exact absurd (some.inj hk) hne
      · exact ⟨x, hold, hw'⟩

theorem piece (hlane : s.lanes[i]? = some ln) (hw : ln.Writing k) (hst : s.streams[k]? = some st)
    (hstreams : written s.streams ln r = s.streams.modify k (·.write item w rest.isEmpty r))
    (hm : ln.resume now r = m) (hcontent : Content s.units st.cfg (st.items ++ [item]))
    (hwithin : Within ln.cfg st item (w :: rest))
    (hland : m.Lands s.units (s.streams.set k (st.write item w rest.isEmpty r)) (some k))
    (hmore : rest ≠ [] → r = .ok → m.Writing k) : Sound (s.perform i ln now r) := by
  rw [modify_eq_set hst] at hstreams
  have hok := h.streams st (mem_of_getElem? hst)
  have hpre : st.tail ++ w <+: item.bytes := by
    rw [← hwithin.rest, flatten_cons, ← append_assoc]
    exact prefix_append _ _
  cases r with
  | failed n =>
    exact h.wrote hlane hw (hok.fail hcontent hpre _ n) hstreams hm hland (.inr (.inl nofun))
  | ok =>
    cases rest with
    | nil =>
      have hend : st.tail ++ w = item.bytes := by
        rw [← hwithin.rest, flatten_cons, flatten_nil, append_nil]
      exact h.wrote hlane hw (hok.complete hwithin.cut hcontent hend) hstreams hm hland (.inl rfl)
    | cons w' rest =>
      exact h.wrote hlane hw (hok.more hwithin.cut item w) hstreams hm hland
        (.inr (.inr (hmore (cons_ne_nil _ _) rfl)))

theorem within_header (hln : ln ∈ s.lanes) (hpc : ln.pc = .header k item w rest u) :
    ∃ st, s.streams[k]? = some st ∧ st.items = [] ∧ Within ln.cfg st item (w :: rest) ∧
      Content s.units st.cfg (st.items ++ [item]) := by
  have hfits := h.lanes ln hln
  unfold Lane.Fits at hfits
  rw [hpc] at hfits
  obtain ⟨-, hname, hitem, st, hst, hitems, hwithin⟩ := hfits
  refine ⟨st, hst, hitems, hwithin, ?_⟩
  rw [hitems, hwithin.owner]
  exact content_header hname hitem

theorem within_frame (hln : ln ∈ s.lanes) (hpc : ln.pc = .writing k item w rest) :
    ∃ st, s.streams[k]? = some st ∧ (ln.cfg.trackName ≠ [] → st.items ≠ []) ∧
      Within ln.cfg st item (w :: rest) ∧ Content s.units st.cfg (st.items ++ [item]) := by
  have hfits := h.lanes ln hln
  unfold Lane.Fits at hfits
  rw [hpc] at hfits
  obtain ⟨hitem, -, st, hst, hhead, hwithin⟩ := hfits
  refine ⟨st, hst, hhead, hwithin, ?_⟩
  have hcontent := (h.streams st (mem_of_getElem? hst)).content
  rw [hwithin.cut, toList_none, append_nil] at hcontent
  rw [hwithin.owner] at hcontent ⊢
  exact hcontent.snoc hhead hitem

section Item

variable (hlane : s.lanes[i]? = some ln) (hm : ln.resume now r = m)
  (hmore : rest ≠ [] → r = .ok → m.Writing k)

include hlane hm hmore

theorem header (hpc : ln.pc = .header k item w rest u)
    (hland : ∀ st, s.streams[k]? = some st → st.items = [] → Within ln.cfg st item (w :: rest) →
      m.Lands s.units (s.streams.set k (st.write item w rest.isEmpty r)) (some k)) :
    Sound (s.perform i ln now r) := by
  obtain ⟨st, hst, hitems, hwithin, hcontent⟩ :=
    h.within_header (mem_of_getElem? hlane) hpc
  exact h.piece hlane (by simp [Lane.Writing, hpc]) hst (by simp [written, hpc]) hm hcontent hwithin
    (hland st hst hitems hwithin) hmore

theorem frame (hpc : ln.pc = .writing k item w rest)
    (hland : ∀ st, s.streams[k]? = some st → (ln.cfg.trackName ≠ [] → st.items ≠ []) →
      Within ln.cfg st item (w :: rest) →
      m.Lands s.units (s.streams.set k (st.write item w rest.isEmpty r)) (some k)) :
    Sound (s.perform i ln now r) := by
  obtain ⟨st, hst, hhead, hwithin, hcontent⟩ :=
    h.within_frame (mem_of_getElem? hlane) hpc
  exact h.piece hlane (by simp [Lane.Writing, hpc]) hst (by simp [written, hpc]) hm hcontent hwithin
    (hland st hst hhead hwithin) hmore

end Item

theorem perform {bytes} (hlane : s.lanes[i]? = some ln) (hat : ln.bytes? = some bytes)
    (now : WallClock) (r : WriteResult) : Sound (s.perform i ln now r) := by
  have hfits := h.lanes ln (mem_of_getElem? hlane)
  unfold Lane.Fits at hfits
  have hres := Lane.resumed hat now r
  -- after a datagram the streams are as they were
  have hsend : ∀ {u datagram}, ln.pc = .sending u datagram →
      (ln.resume now r).Lands s.units s.streams ln.current → Sound (s.perform i ln now r) := by
    intro u datagram hpc hland
    refine h.move hlane (extends_refl _) (by simp [PumpSet.perform, written, hpc]) rfl ?_
      (by simp [Lane.Writing, hpc])
    rw [Lane.uses, hpc]
    exact hland
  generalize hm : ln.resume now r = m at hres hsend
  cases hres with
  | @headerDone k item w u hpc =>
    rw [hpc] at hfits
    refine h.header hlane hm (fun hne => absurd rfl hne) hpc (fun st hst _ hwithin => ?_)
    exact Lane.ready_lands { ln with gate := .free } (getElem?_set_some hst) hwithin.complete
      now hfits.1
  | @headerMore k item w w' rest u hpc =>
    rw [hpc] at hfits
    obtain ⟨hu, hname, hitem, -⟩ := hfits
    refine h.header hlane hm (fun _ _ => rfl) hpc (fun st hst hitems hwithin => ?_)
    exact ⟨⟨hu, hname, hitem, _, getElem?_set_some hst, hitems, hwithin.more⟩, fun _ hk => hk⟩
  | headerFailed hpc => exact h.header hlane hm nofun hpc (fun _ _ _ _ => Lane.giveUp_lands _ _)
  | @frameDone k item w hpc =>
    rw [hpc] at hfits
    obtain ⟨-, hcur, -⟩ := hfits
    refine h.frame hlane hm (fun hne => absurd rfl hne) hpc (fun st hst _ hwithin => ?_)
    rw [← hcur]
    refine @Lane.idle_lands _ _ { ln with gate := .free } (fun j hj => ?_)
    obtain rfl := mem_unique hcur hj
    exact ⟨_, getElem?_set_some hst, hwithin.complete⟩
  | @frameMore k item w w' rest hpc =>
    rw [hpc] at hfits
    obtain ⟨hitem, hcur, -⟩ := hfits
    refine h.frame hlane hm (fun _ _ => rfl) hpc (fun st hst hhead hwithin => ?_)
    exact ⟨⟨hitem, hcur, _, getElem?_set_some hst, hhead, hwithin.more⟩, fun _ hk => hk⟩
  | frameFailed hpc => exact h.frame hlane hm nofun hpc (fun _ _ _ _ => Lane.giveUp_lands _ _)
  | sent hpc =>
    rw [hpc] at hfits
    exact hsend hpc (@Lane.idle_lands _ _ { ln with gate := .free } hfits.2)
  | sendFailed hpc =>
    rw [hpc] at hfits
    exact hsend hpc (Lane.fallbackOrDrop_lands { ln with gate := .free } hfits.2 now hfits.1)

theorem step (hq : Queued s) {l s'} (hstep : Effect s l s') : Sound s' := by
  cases hstep with
  | @dequeue i au now ln hlane hpc hown =>
    have hfits := h.lanes ln (mem_of_getElem? hlane)
    unfold Lane.Fits at hfits
    rw [hpc] at hfits
    refine h.move hlane (extends_snoc _ _) rfl rfl ?_ (by simp [Lane.Writing, hpc])
    simp only [Lane.uses, hpc]
    refine ln.receive_lands hfits now (fun x hx => ?_) hown
    cases hx
    exact getElem?_concat_length
  | call _ _ _ => exact h.call _ _
  | @opened i now ln u hlane hpc =>
    have hfits := h.lanes ln (mem_of_getElem? hlane)
    unfold Lane.Fits at hfits
    rw [hpc] at hfits
    exact h.opened hlane hpc ln.cfg (ln.opened_lands getElem?_concat_length now hfits)
  | openFailed hlane hpc =>
    exact h.move hlane (extends_refl _) rfl rfl (Lane.giveUp_lands _ _)
      (by simp [Lane.Writing, hpc])
  | @queue i ln bytes hlane _ _ _ _ | @refuse i ln bytes hlane _ _ _ _ =>
    have hfits := h.lanes ln (mem_of_getElem? hlane)
    exact h.move hlane (extends_refl _) rfl rfl ⟨hfits, fun _ hk => hk⟩ (fun _ hw => hw)
  | write hlane hat _ => exact h.perform hlane hat _ _
  | @done now r e ln hbusy hlane =>
    have hfinish : Sound (s.finish e) := { h with }
    exact hfinish.perform hlane (hq.busy hbusy hlane) now r
  | @stop i ln hlane hpc =>
    exact h.move (m := { ln with pc := .done }) hlane (extends_refl _) rfl rfl
      ⟨trivial, nofun⟩ (by simp [Lane.Writing, hpc])
  | sched _ _ => exact { h with }

theorem frozen {l s'} (hstep : Effect s l s') (hst : s.streams[k]? = some st)
    (hfailed : st.failed = true) : s'.streams[k]? = some st := by
  have hcut : st.cut ≠ none := by
    have hok := (h.streams st (mem_of_getElem? hst)).failed
    intro hnone
    rw [hfailed, hnone] at hok
    cases hok
  -- a lane writes only on streams in use
  have hwrote : ∀ {i : Nat} {ln : Lane} (r : WriteResult), s.lanes[i]? = some ln →
      (written s.streams ln r)[k]? = some st := by
    intro i ln r hlane
    have hne : ∀ j ∈ ln.uses, j ≠ k := by
      rintro j hj rfl
      obtain ⟨st', hst', hcut'⟩ := Lane.uses_open (h.lanes ln (mem_of_getElem? hlane)) hj
      obtain rfl := mem_unique hst hst'
      exact hcut hcut'
    unfold written
    unfold Lane.uses at hne
    split
    · next hpc =>
      rw [hpc] at hne
      rw [getElem?_modify_ne _ _ (hne _ rfl)]
      exact hst
    · next hpc =>
      rw [hpc] at hne
      rw [getElem?_modify_ne _ _ (hne _ rfl)]
      exact hst
    · exact hst
  cases hstep with
  | opened _ _ =>
    exact getElem?_append_some hst
  | write hlane _ _ | done _ hlane => exact hwrote _ hlane
  | _ => exact hst

end

end Sound

theorem sound_of_reachable {cfgs} : ∀ s, Reachable (pumpSetSystem cfgs) s → Sound s := by
  refine invariant_ofFun Sound (sound_start cfgs) ?_
  intro s l s' hs h hstep
  exact h.step (queued_of_reachable s hs) (effect_of_next hstep)

end PumpSet

/-! ## Every unit once -/

def Lane.hand (ln : Lane) : List Nat :=
  match ln.pc with
  | .opening u => (u.map InHand.index).toList
  | .header _ _ _ _ u => (u.map InHand.index).toList
  | .writing _ item _ _ => item.unit.toList
  | .sending u _ => [u.index]
  | _ => []

/-- The one that was cut among them. -/
def OutStream.begun (st : OutStream) : List Nat :=
  (st.items ++ st.cut.toList).filterMap StreamItem.unit

namespace OutStream

variable {st : OutStream} (item : StreamItem) (w : List UInt8)

theorem begun_complete (hcut : st.cut = none) :
    (st.write item w true .ok).begun = st.begun ++ item.unit.toList := by
  cases hunit : item.unit <;> simp [begun, write, hcut, hunit]

theorem begun_more : (st.write item w false .ok).begun = st.begun := rfl

theorem begun_fail (hcut : st.cut = none) (last : Bool) (n : Nat) :
    (st.write item w last (.failed n)).begun = st.begun ++ item.unit.toList := by
  cases hunit : item.unit <;> simp [begun, write, hcut, hunit]

end OutStream

namespace Lane

variable (ln : Lane) (i : Nat) (now : WallClock)


theorem start_hand (cfg : FeedConfig) : (start cfg).hand = [] := by
  by_cases hloop : cfg.loop = .streamLowLatency <;> simp [start, hand, hloop]

theorem idle_hand : ln.idle.hand = [] := by
  cases hcall : ln.call <;> simp [idle, hand, hcall]

theorem giveUp_hand : ln.giveUp.hand = [] := idle_hand _

theorem write_hand (u : InHand) : (ln.write i now u).hand.Sublist [u.index] := by
  unfold write
  split
  · exact Sublist.refl _
  · rw [giveUp_hand]
    exact nil_sublist _

theorem ready_hand (u : Option InHand) :
    (ln.ready i now u).hand.Sublist (u.map InHand.index).toList := by
  cases u with
  | none =>
    show (idle _).hand.Sublist []
    rw [idle_hand]
  | some x => exact ln.write_hand i now x

theorem opened_hand (u : Option InHand) :
    (ln.opened i now u).hand.Sublist (u.map InHand.index).toList := by
  unfold opened
  split
  · split
    · exact Sublist.refl _
    · rw [giveUp_hand]
      exact nil_sublist _
  · exact ln.ready_hand i now u

theorem fallbackOrDrop_hand (u : InHand) : (ln.fallbackOrDrop now u).hand.Sublist [u.index] :=
  fallbackOrDrop_induction (P := fun m => m.hand.Sublist [u.index])
    (by rw [idle_hand]; exact nil_sublist _) (fun i _ => ln.write_hand i now u) (Sublist.refl _)

theorem receive_hand (hloop : ln.cfg.loop ≠ .bidiPerCall) (u : InHand) :
    (ln.receive now u).hand.Sublist [u.index] :=
  receive_induction (P := fun m => m.hand.Sublist [u.index])
    (by rw [idle_hand]; exact nil_sublist _) (fun i _ => ln.write_hand i now u)
    (fun _ => Sublist.refl _) (fun _ _ => Sublist.refl _) (fallbackOrDrop_hand _ now u)
    (fun hb => absurd hb hloop)

end Lane

namespace PumpSet

def tally (s : PumpSet) (n : Nat) : Nat :=
  s.sent.count n + (s.streams.flatMap OutStream.begun).count n + (s.lanes.flatMap Lane.hand).count n

def Once (s : PumpSet) : Prop := ∀ n, s.tally n ≤ if n < s.units.length then 1 else 0

theorem once_start (cfgs : List FeedConfig) : Once (PumpSet.start cfgs) := by
  intro n
  have hhand : (cfgs.map Lane.start).flatMap Lane.hand = [] := by
    rw [flatMap_eq_nil_iff]
    intro ln hln
    obtain ⟨cfg, -, rfl⟩ := mem_map.mp hln
    exact Lane.start_hand cfg
  show 0 + 0 + ((cfgs.map Lane.start).flatMap Lane.hand).count n ≤ _
  rw [hhand]
  exact Nat.zero_le _

section Tally

variable {s t : PumpSet} {i : Nat} {ln m : Lane}

theorem tally_setLane (hlane : s.lanes[i]? = some ln) (hsent : t.sent = s.sent)
    (hstreams : t.streams = s.streams) (hlanes : t.lanes = s.lanes.set i m) (n : Nat) :
    t.tally n + ln.hand.count n = s.tally n + m.hand.count n := by
  have hcount := count_flatMap_set hlane Lane.hand m n
  unfold tally
  rw [hsent, hstreams, hlanes]
  omega

theorem tally_write (hlane : s.lanes[i]? = some ln) {k st st'} (hst : s.streams[k]? = some st)
    (hsent : t.sent = s.sent) (hstreams : t.streams = s.streams.set k st')
    (hlanes : t.lanes = s.lanes.set i m) (n : Nat) :
    t.tally n + ln.hand.count n + st.begun.count n =
      s.tally n + m.hand.count n + st'.begun.count n := by
  have hcount := count_flatMap_set hlane Lane.hand m n
  have hcount' := count_flatMap_set hst OutStream.begun st' n
  unfold tally
  rw [hsent, hstreams, hlanes]
  omega

theorem tally_piece_le (hlane : s.lanes[i]? = some ln) {k st} (hst : s.streams[k]? = some st)
    (hcut : st.cut = none) {item w} {rest : List (List UInt8)} {r} (hsent : t.sent = s.sent)
    (hstreams : t.streams = s.streams.modify k (·.write item w rest.isEmpty r))
    (hlanes : t.lanes = s.lanes.set i m) (hmore : m.hand.Sublist ln.hand)
    (hend : rest = [] ∨ r ≠ .ok → (m.hand ++ item.unit.toList).Sublist ln.hand) (n : Nat) :
    t.tally n ≤ s.tally n := by
  rw [modify_eq_set hst] at hstreams
  have htally := tally_write hlane hst hsent hstreams hlanes n
  have hmore := hmore.count_le n
  have hend := fun hor => (hend hor).count_le n
  simp only [count_append] at hend
  cases r with
  | failed x =>
    rw [OutStream.begun_fail item w hcut, count_append] at htally
    have := hend (.inr nofun)
    omega
  | ok =>
    cases rest with
    | nil =>
      rw [isEmpty_nil, OutStream.begun_complete item w hcut, count_append] at htally
      have := hend (.inl rfl)
      omega
    | cons w' rest =>
      rw [isEmpty_cons, OutStream.begun_more] at htally
      omega

theorem tally_perform_le (h : Sound s) {bytes} (hlane : s.lanes[i]? = some ln)
    (hat : ln.bytes? = some bytes) (now : WallClock) (r : WriteResult) (n : Nat) :
    (s.perform i ln now r).tally n ≤ s.tally n := by
  have hfits := h.lanes ln (mem_of_getElem? hlane)
  unfold Lane.Fits at hfits
  have hres := Lane.resumed hat now r
  have hlanes : (s.perform i ln now r).lanes = s.lanes.set i (ln.resume now r) := rfl
  generalize ln.resume now r = m at hres hlanes
  -- a piece of a header leaves the unit in hand or drops it
  have hheader : ∀ {k item w rest u}, ln.pc = .header k item w rest u →
      m.hand.Sublist (u.map InHand.index).toList → (s.perform i ln now r).tally n ≤ s.tally n := by
    intro k item w rest u hpc hm
    have hsent : (s.perform i ln now r).sent = s.sent := by simp [perform, delivered, hpc]
    have hstreams : (s.perform i ln now r).streams =
        s.streams.modify k (·.write item w rest.isEmpty r) := by simp [perform, written, hpc]
    rw [hpc] at hfits
    obtain ⟨-, -, ⟨hunit, -⟩, st, hst, -, hwithin⟩ := hfits
    have hhand : ln.hand = (u.map InHand.index).toList := by simp [Lane.hand, hpc]
    rw [← hhand] at hm
    refine tally_piece_le hlane hst hwithin.cut hsent hstreams hlanes hm (fun _ => ?_) n
    rw [hunit, toList_none, append_nil]
    exact hm
  have hframe : ∀ {k item w rest}, ln.pc = .writing k item w rest →
      m.hand.Sublist item.unit.toList → (rest = [] ∨ r ≠ .ok → m.hand = []) →
      (s.perform i ln now r).tally n ≤ s.tally n := by
    intro k item w rest hpc hm hend
    have hsent : (s.perform i ln now r).sent = s.sent := by simp [perform, delivered, hpc]
    have hstreams : (s.perform i ln now r).streams =
        s.streams.modify k (·.write item w rest.isEmpty r) := by simp [perform, written, hpc]
    rw [hpc] at hfits
    obtain ⟨-, -, st, hst, -, hwithin⟩ := hfits
    have hhand : ln.hand = item.unit.toList := by simp [Lane.hand, hpc]
    rw [← hhand] at hm
    refine tally_piece_le hlane hst hwithin.cut hsent hstreams hlanes hm (fun hor => ?_) n
    rw [hend hor, nil_append, hhand]
  cases hres with
  | headerDone hpc => exact hheader hpc (Lane.ready_hand _ _ _ _)
  | headerMore hpc => exact hheader hpc (Sublist.refl _)
  | headerFailed hpc =>
    refine hheader hpc ?_
    rw [Lane.giveUp_hand]
    exact nil_sublist _
  | frameDone hpc =>
    have hm := Lane.idle_hand { ln with gate := .free }
    exact hframe hpc (hm ▸ nil_sublist _) (fun _ => hm)
  | frameMore hpc =>
    refine hframe hpc (Sublist.refl _) ?_
    rintro (hnil | hr)
    · cases hnil
    · exact absurd rfl hr
  | frameFailed hpc =>
    have hm := Lane.giveUp_hand { ln with gate := .free }
    exact hframe hpc (hm ▸ nil_sublist _) (fun _ => hm)
  | @sent u datagram hpc =>
    have hcount := count_flatMap_set hlane Lane.hand { ln with gate := .free }.idle n
    rw [Lane.idle_hand, count_nil] at hcount
    simp only [Lane.hand, hpc] at hcount
    rw [tally, hlanes]
    simp only [tally, perform, written, delivered, hpc, count_append]
    omega
  | @sendFailed u datagram x hpc =>
    have htally := tally_setLane hlane (by simp [perform, delivered, hpc])
      (by simp [perform, written, hpc]) hlanes n
    have hle := (Lane.fallbackOrDrop_hand { ln with gate := .free } now u).count_le n
    rw [show ln.hand = [u.index] by simp [Lane.hand, hpc]] at htally
    omega

end Tally

variable {s : PumpSet}

theorem tally_dequeue_le (h : Once s) {t : PumpSet} {au} (hunits : t.units = s.units ++ [au])
    (htally : ∀ n, t.tally n ≤ s.tally n + [s.units.length].count n) : Once t := by
  intro n
  have hn := h n
  have ht := htally n
  rw [hunits, length_append, length_singleton]
  by_cases heq : n = s.units.length
  · subst heq
    rw [if_neg (Nat.lt_irrefl _)] at hn
    rw [if_pos (Nat.lt_succ_self _)]
    simp only [count_singleton_self] at ht
    omega
  · have hzero : [s.units.length].count n = 0 :=
      count_eq_zero.mpr (fun hmem => heq (mem_singleton.mp hmem))
    split at hn
    · rw [if_pos (by omega)]
      omega
    · omega

theorem Once.step {s'} (h : Once s) (hq : Queued s) (hsound : Sound s) {l} (hstep : Effect s l s') :
    Once s' := by
  -- steps that take no unit
  have hle : s'.units = s.units → (∀ n, s'.tally n ≤ s.tally n) → Once s' := by
    intro hunits htally n
    rw [hunits]
    exact Nat.le_trans (htally n) (h n)
  cases hstep with
  | @dequeue i au now ln hlane hpc hown =>
    refine tally_dequeue_le h rfl (fun n => ?_)
    have htally := @tally_setLane s ({ s with units := s.units ++ [au] }.setLane i
      (ln.receive now ⟨s.units.length, au⟩)) i ln _ hlane rfl rfl rfl n
    have hhand : _ ≤ [s.units.length].count n :=
      (ln.receive_hand now hown ⟨s.units.length, au⟩).count_le n
    omega
  | call _ _ _ =>
    refine tally_dequeue_le h rfl (fun n => ?_)
    unfold tally
    rw [flatMap_append, count_append]
    exact Nat.le_of_eq (Nat.add_assoc _ _ _).symm
  | @opened i now ln u hlane hpc =>
    refine hle rfl (fun n => ?_)
    have hcount := count_flatMap_set hlane Lane.hand (ln.opened s.streams.length now u) n
    have hhand := (ln.opened_hand s.streams.length now u).count_le n
    rw [show ln.hand = (u.map InHand.index).toList by simp [Lane.hand, hpc]] at hcount
    have hstreams : (s.streams ++ [OutStream.fresh ln.cfg]).flatMap OutStream.begun =
        s.streams.flatMap OutStream.begun := by
      rw [flatMap_append]
      exact append_nil _
    unfold tally PumpSet.setLane
    simp only [hstreams]
    omega
  | @openFailed i ln u hlane hpc =>
    refine hle rfl (fun n => ?_)
    have htally := @tally_setLane s (s.setLane i ln.giveUp) i ln _ hlane rfl rfl rfl n
    rw [Lane.giveUp_hand, count_nil] at htally
    omega
  | @queue i ln bytes hlane _ _ _ _ =>
    refine hle rfl (fun n => ?_)
    have htally := @tally_setLane s (s.queue i ln bytes) i ln _ hlane rfl rfl rfl n
    exact Nat.le_of_eq (Nat.add_right_cancel htally)
  | @refuse i ln bytes hlane _ _ _ _ =>
    refine hle rfl (fun n => ?_)
    have htally := @tally_setLane s (s.refuse i ln bytes) i ln _ hlane rfl rfl rfl n
    exact Nat.le_of_eq (Nat.add_right_cancel htally)
  | write hlane hat _ => exact hle rfl (tally_perform_le hsound hlane hat _ _)
  | @done now r e ln hbusy hlane =>
    have hfinish : Sound (s.finish e) := { hsound with }
    exact hle rfl (tally_perform_le hfinish hlane (hq.busy hbusy hlane) now r)
  | @stop i ln hlane hpc =>
    refine hle rfl (fun n => ?_)
    have htally := @tally_setLane s (s.setLane i { ln with pc := .done }) i ln _ hlane rfl rfl rfl n
    simp only [Lane.hand, hpc] at htally
    exact Nat.le_of_eq htally
  | sched _ _ => exact hle rfl (fun _ => Nat.le_refl _)

theorem once_of_reachable {cfgs} : ∀ s, Reachable (pumpSetSystem cfgs) s → Once s := by
  refine invariant_ofFun Once (once_start cfgs) ?_
  intro s l s' hs h hstep
  exact h.step (queued_of_reachable s hs) (sound_of_reachable s hs) (effect_of_next hstep)

/-! ## Results -/

structure Parseable (cfgs : List FeedConfig) (s : PumpSet) : Prop where
  /-- Complete items, the header of a named track first, then perhaps the beginning of one
      that is being written or failed. -/
  shape : ∀ (k : Nat) (st : OutStream), s.streams[k]? = some st →
             st.bytes = st.items.flatMap StreamItem.bytes ++ st.tail ∧
             ∃ last : Option StreamItem, Content s.units st.cfg (st.items ++ last.toList) ∧
               st.tail <+: last.elim [] StreamItem.bytes ∧
               (last ≠ none → st.failed = true ∨ ∃ ln ∈ s.lanes, ln.Writing k)
  frozen : ∀ s', (pumpSetSystem cfgs).Steps s s' → ∀ (k : Nat) (st : OutStream),
             s.streams[k]? = some st → st.failed = true → s'.streams[k]? = some st
  once : (s.streams.flatMap OutStream.begun).Nodup
  /-- What the worker runs is the write its lane waits for. -/
  job : ∀ e, s.sched.worker = .busy e → ∃ ln : Lane, s.lanes[e.act.lane]? = some ln ∧
             ln.gate = .queued ∧ ln.bytes? = some e.act.bytes

theorem Sound.writing (h : Sound s) {ln} (hln : ln ∈ s.lanes) {k} (hw : ln.Writing k) {st}
    (hst : s.streams[k]? = some st) :
    ∃ item : StreamItem, Content s.units st.cfg (st.items ++ [item]) ∧ st.tail <+: item.bytes := by
  have hw' := hw
  unfold Lane.Writing at hw'
  split at hw'
  · next i item w rest u hpc =>
    subst hw'
    obtain ⟨st', hst', -, hwithin, hcontent⟩ := h.within_header hln hpc
    obtain rfl := mem_unique hst hst'
    exact ⟨item, hcontent, hwithin.rest ▸ prefix_append _ _⟩
  · next i item w rest hpc =>
    subst hw'
    obtain ⟨st', hst', -, hwithin, hcontent⟩ := h.within_frame hln hpc
    obtain rfl := mem_unique hst hst'
    exact ⟨item, hcontent, hwithin.rest ▸ prefix_append _ _⟩
  · cases hw'

theorem Sound.last (h : Sound s) {k st} (hst : s.streams[k]? = some st) :
    ∃ last : Option StreamItem, Content s.units st.cfg (st.items ++ last.toList) ∧
      st.tail <+: last.elim [] StreamItem.bytes ∧
      (last ≠ none → st.failed = true ∨ ∃ ln ∈ s.lanes, ln.Writing k) := by
  have hok := h.streams st (mem_of_getElem? hst)
  have hcontent := hok.content
  have hfailed := hok.failed
  cases hcut : st.cut with
  | some item =>
    rw [hcut] at hcontent hfailed
    exact ⟨some item, hcontent, hok.cut item hcut, fun _ => .inl hfailed⟩
  | none =>
    rw [hcut] at hcontent
    rcases h.tails k st hst with htail | hc | ⟨ln, hln, hw⟩
    · exact ⟨none, hcontent, htail ▸ prefix_rfl, fun hne => absurd rfl hne⟩
    · exact absurd hcut hc
    · obtain ⟨item, hitem, hpre⟩ := h.writing hln hw hst
      exact ⟨some item, hitem, hpre, fun _ => .inr ⟨ln, hln, hw⟩⟩

end PumpSet

/-- **Streams are parseable** up to the failure. -/
theorem streams_parseable {cfgs : List FeedConfig} {s : PumpSet}
    (h : Reachable (pumpSetSystem cfgs) s) : s.Parseable cfgs := by
  have hsound := PumpSet.sound_of_reachable s h
  refine ⟨fun k st hst => ?_, fun s' hsteps => ?_, ?_, fun e hbusy => ?_⟩
  · exact ⟨(hsound.streams st (mem_of_getElem? hst)).bytes, hsound.last hst⟩
  · intro k st hst hfailed
    -- along the steps, each from a reachable state
    induction hsteps with
    | refl => exact hst
    | tail hpath hlast ih =>
      obtain ⟨l, hl⟩ := hlast
      have hmid := PumpSet.sound_of_reachable _ (h.steps hpath)
      exact hmid.frozen (PumpSet.effect_of_next hl) ih hfailed
  · rw [nodup_iff_count_le_one]
    intro n
    have hn := PumpSet.once_of_reachable s h n
    unfold PumpSet.tally at hn
    split at hn <;> omega
  · have hq := PumpSet.queued_of_reachable s h
    obtain ⟨ln, hlane, hat, -⟩ := hq.job e (.inr hbusy)
    refine ⟨ln, hlane, (hq.waits _ ln hlane).mpr ?_, hat⟩
    exact PumpSet.mem_outstanding.mpr ⟨e, .inr hbusy, rfl⟩

def namedVideo : FeedConfig := { FeedConfig.zero with trackName := [118], scheduler := true }

/-- The first frame fails after three bytes; the scheduler is closed under the next one. -/
def brokenRun : List PumpLabel :=
  [.sched .start, .dequeue 0 (.bare true 1) firstTick, .opened 0 firstTick,
   .write 0 firstTick .ok, .write 0 firstTick .ok, .submit 0, .sched .lock,
   .done firstTick (.failed 3), .dequeue 0 (.bare true 2) firstTick, .opened 0 firstTick,
   .write 0 firstTick .ok, .write 0 firstTick .ok, .sched .close, .sched .watch, .submit 0,
   .write 0 firstTick .ok]

theorem streams_parseable_broken :
    ∃ s, Reachable (pumpSetSystem [namedVideo]) s ∧
      s.streams.map (fun st => (st.bytes.length, st.failed)) = [(5 + 3, true), (5 + 17, false)] ∧
      s.Parseable [namedVideo] :=
  exists_run_imp brokenRun (fun s hs (hp : s.streams.map (fun st => (st.bytes.length, st.failed)) =
    [(5 + 3, true), (5 + 17, false)]) => ⟨hp, streams_parseable hs⟩) (by decide +kernel)

end QuicRTC

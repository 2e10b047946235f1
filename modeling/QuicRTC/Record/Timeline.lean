import QuicRTC.Record.File

/-! # Seeking in a Recording

`Frames` of `record/timeline.go` is a stable sort by capture time, track name and `Seq`;
`SeekSnapshot` goes through it once and keeps the latest of each track. Of two entries of a track
that agree in time and `Seq` the sort puts the later one last, and the pass keeps the earlier one.
-/

namespace QuicRTC.Record

open List Function Slots

structure Track where
  name : GoString
  kind : GoString
deriving DecidableEq

namespace Entry

/-- Signed. -/
def captured (e : Entry) : Int64 := e.frame.capturedAtMicros.toInt64

def track (e : Entry) : Track := ⟨e.frame.trackName, e.frame.kind⟩

def byTime : Entry → Entry → Ordering := compareLex (compareOn captured) (compareOn (·.frame.seq))

/-- The order of `Frames`. -/
def byTimeAndName : Entry → Entry → Ordering :=
  compareLex (compareOn captured) (compareLex (compareOn (·.frame.trackName)) (compareOn (·.frame.seq)))

instance : Std.TransCmp byTime := inferInstanceAs (Std.TransCmp (compareLex _ _))

instance : Std.TransCmp byTimeAndName := inferInstanceAs (Std.TransCmp (compareLex _ _))

end Entry

def frames (entries : List Entry) : List Entry :=
  entries.mergeSort (fun a b => (a.byTimeAndName b).isLE)

/-- The body of the loop of `SeekSnapshot`. -/
def seekStep (micros : Int64) (out : Track → Option Entry) (e : Entry) : Track → Option Entry :=
  if micros < e.captured then out
  else
    match out e.track with
    | none => update out e.track (some e)
    | some prev => if e.byTime prev = .gt then update out e.track (some e) else out

def seekSnapshot (entries : List Entry) (micros : Int64) : Track → Option Entry :=
  entries.foldl (seekStep micros) (fun _ => none)

def upTo (t : Track) (micros : Int64) (l : List Entry) : List Entry :=
  l.filter (fun e => e.track = t ∧ e.captured ≤ micros)

/-- None if there are no entries. -/
def IsLatest (l : List Entry) : Option Entry → Prop
  | some e => e ∈ l ∧ ∀ x ∈ l, (x.byTime e).isLE
  | none => l = []

def keepLatest (e : Entry) : Option Entry → Option Entry
  | none => some e
  | some prev => if e.byTime prev = .gt then some e else some prev

theorem seekStep_apply (micros : Int64) (out : Track → Option Entry) (e : Entry) (t : Track) :
    seekStep micros out e t =
      if e.track = t ∧ e.captured ≤ micros then keepLatest e (out t) else out t := by
  unfold seekStep
  by_cases hlate : micros < e.captured
  · rw [if_pos hlate, if_neg (fun h => Int64.not_lt.mpr h.2 hlate)]
  · rw [if_neg hlate]
    by_cases ht : e.track = t
    · subst ht
      rw [if_pos ⟨rfl, Int64.not_lt.mp hlate⟩]
      cases hout : out e.track with
      | none => exact update_self ..
      | some prev =>
        simp only [keepLatest]
        split
        · exact update_self ..
        · exact hout
    · rw [if_neg (fun h => ht h.1)]
      have hsame : ∀ o, update out e.track o t = out t := fun o => update_of_ne (Ne.symm ht) _ _
      cases out e.track with
      | none => exact hsame _
      | some prev =>
        simp only
        split
        · exact hsame _
        · rfl

/-- The first of the latest entries. -/
def IsFirst (l : List Entry) : Option Entry → Prop
  | some e => ∃ before after, l = before ++ e :: after ∧
      (∀ x ∈ before, x.byTime e = .lt) ∧ ∀ x ∈ after, (x.byTime e).isLE
  | none => l = []

theorem IsFirst.snoc {l o} (h : IsFirst l o) (e : Entry) : IsFirst (l ++ [e]) (keepLatest e o) := by
  cases o with
  | none =>
    have hnil : l = [] := h
    subst hnil
    exact ⟨[], [], rfl, fun _ hx => (by cases hx), fun _ hx => (by cases hx)⟩
  | some prev =>
    obtain ⟨before, after, rfl, hbefore, hafter⟩ := h
    simp only [keepLatest]
    split
    · next hgt =>
      have hprev : prev.byTime e = .lt := Std.OrientedCmp.lt_of_gt hgt
      refine ⟨before ++ prev :: after, [], rfl, fun x hx => ?_, fun _ hx => (by cases hx)⟩
      rcases mem_append.mp hx with hx | hx
      · exact Std.TransCmp.lt_trans (hbefore x hx) hprev
      · rcases mem_cons.mp hx with rfl | hx
        · exact hprev
        · exact Std.TransCmp.lt_of_isLE_of_lt (hafter x hx) hprev
    · next hgt =>
      refine ⟨before, after ++ [e], by rw [append_assoc, cons_append], hbefore, ?_⟩
      exact forall_mem_snoc hafter (Ordering.isLE_iff_ne_gt.mpr hgt)

theorem seekSnapshot_isFirst (entries : List Entry) (micros : Int64) (t : Track) :
    IsFirst (upTo t micros entries) (seekSnapshot entries micros t) := by
  induction entries using reverseRecOn with
  | nil => rfl
  | append_singleton l e ih =>
    have hsnap : seekSnapshot (l ++ [e]) micros = seekStep micros (seekSnapshot l micros) e :=
      foldl_concat ..
    rw [hsnap, seekStep_apply, upTo, filter_append]
    split
    · next h =>
      rw [filter_cons_of_pos (by simpa using h)]
      exact ih.snoc e
    · next h =>
      rw [filter_cons_of_neg (by simpa using h), filter_nil, append_nil]
      exact ih

theorem Entry.byTimeAndName_eq {a b : Entry} (h : a.frame.trackName = b.frame.trackName) :
    a.byTimeAndName b = a.byTime b := by
  simp [byTimeAndName, byTime, compareLex, compareOn, h]

theorem byTimeAndName_total (a b : Entry) : (a.byTimeAndName b).isLE || (b.byTimeAndName a).isLE := by
  cases h : a.byTimeAndName b with
  | gt => simp [Std.OrientedCmp.lt_of_gt h]
  | _ => rfl

theorem frames_isLatest (entries : List Entry) (micros : Int64) (t : Track) :
    IsLatest (upTo t micros entries) (upTo t micros (frames entries)).getLast? := by
  have hperm : (upTo t micros (frames entries)).Perm (upTo t micros entries) :=
    (mergeSort_perm entries _).filter _
  have hsorted : (frames entries).Pairwise (fun a b => (a.byTimeAndName b).isLE) :=
    pairwise_mergeSort (fun _ _ _ => Std.TransCmp.isLE_trans) byTimeAndName_total entries
  cases hlast : (upTo t micros (frames entries)).getLast? with
  | none =>
    rw [getLast?_eq_none_iff.mp hlast] at hperm
    exact hperm.nil_eq.symm
  | some e =>
    obtain ⟨ys, hys⟩ := getLast?_eq_some_iff.mp hlast
    have hsub : (ys ++ [e]).Pairwise (fun a b => (a.byTimeAndName b).isLE) := hys ▸ hsorted.filter _
    rw [hys] at hperm
    have htrack : ∀ x ∈ ys ++ [e], x.track = t :=
      fun x hx => (of_decide_eq_true (mem_filter.mp (hperm.mem_iff.mp hx)).2).1
    refine ⟨hperm.mem_iff.mp (by simp), fun x hx => ?_⟩
    have hx := hperm.mem_iff.mpr hx
    rcases mem_snoc hx with hold | rfl
    · have hle := (pairwise_append.mp hsub).2.2 x hold e (mem_singleton_self e)
      have hname : x.track = e.track := (htrack x hx).trans (htrack e (by simp)).symm
      rwa [Entry.byTimeAndName_eq (congrArg Track.name hname)] at hle
    · exact Std.ReflCmp.isLE_rfl

theorem frames_sublist {entries : List Entry} {micros : Int64} {t : Track} {a b : Entry}
    (h : [a, b] <+ upTo t micros entries) (heq : a.byTime b = .eq) :
    [a, b] <+ upTo t micros (frames entries) := by
  have hin : ∀ x ∈ [a, b], x.track = t ∧ x.captured ≤ micros :=
    fun x hx => of_decide_eq_true (mem_filter.mp (h.subset hx)).2
  have hname : a.frame.trackName = b.frame.trackName :=
    congrArg Track.name ((hin a (by simp)).1.trans (hin b (by simp)).1.symm)
  -- the sort is stable
  have hsorted : [a, b] <+ frames entries := by
    refine pair_sublist_mergeSort (fun _ _ _ => Std.TransCmp.isLE_trans) byTimeAndName_total ?_
      (h.trans filter_sublist)
    rw [Entry.byTimeAndName_eq hname, heq]
    rfl
  have hfilter := hsorted.filter (fun e => e.track = t ∧ e.captured ≤ micros)
  rwa [filter_eq_self.mpr (fun x hx => decide_eq_true (hin x hx))] at hfilter

/-! ## Where the two agree -/

/-- The latest capture time and `Seq` are those of one entry. -/
def Unshared (l : List Entry) : Prop :=
  l.Pairwise (fun a b => a.byTime b = .eq → ∃ x ∈ l, a.byTime x = .lt)

theorem not_pair_of_last {l : List Entry} {a b : Entry} (hnodup : l.Nodup)
    (hlast : l.getLast? = some a) : ¬ [a, b] <+ l := by
  obtain ⟨init, rfl⟩ := getLast?_eq_some_iff.mp hlast
  intro hsub
  obtain ⟨pre, post, hpair, hpre, hpost⟩ := sublist_append_iff.mp hsub
  cases pre with
  | nil =>
    subst hpair
    exact absurd hpost.length_le (by simp)
  | cons x pre =>
    cases (cons.inj hpair).1
    exact (nodup_append.mp hnodup).2.2 a (hpre.subset mem_cons_self) a (by simp) rfl

theorem unshared_of_eq {entries : List Entry} (hnodup : entries.Nodup) {micros : Int64} {t : Track}
    (h : seekSnapshot entries micros t = (upTo t micros (frames entries)).getLast?) :
    Unshared (upTo t micros entries) := by
  refine pairwise_iff_forall_sublist.mpr (fun {a b} hab heq => ?_)
  by_contra hlatest
  simp only [not_exists, not_and] at hlatest
  have hfirst := seekSnapshot_isFirst entries micros t
  cases hseek : seekSnapshot entries micros t with
  | none =>
    rw [hseek] at hfirst
    rw [show upTo t micros entries = [] from hfirst] at hab
    cases hab
  | some x =>
    rw [hseek] at hfirst h
    obtain ⟨before, after, hl, hbefore, hafter⟩ := hfirst
    have hx : x ∈ upTo t micros entries := by simp [hl]
    have hb : b.byTime x ≠ .lt := fun hlt =>
      hlatest x hx (Std.TransCmp.lt_of_eq_of_lt heq hlt)
    -- neither of the two comes before `x`, so the second comes after it
    have hafter_b : b ∈ after := by
      rw [hl] at hab
      have hrest : [a, b] <+ x :: after := hab.of_sublist_append_right (fun y hy hmem => by
        rcases mem_pair.mp hy with rfl | rfl
        · exact hlatest x hx (hbefore y hmem)
        · exact hb (hbefore y hmem))
      cases hrest with
      | cons _ hrest => exact hrest.subset (by simp)
      | cons_cons _ hrest => exact hrest.subset (by simp)
    have hbx : b.byTime x = .eq := by
      have hle := hafter b hafter_b
      cases hc : b.byTime x with
      | lt => exact absurd hc hb
      | eq => rfl
      | gt => rw [hc] at hle; cases hle
    have hxb : [x, b] <+ upTo t micros entries := by
      rw [hl]
      exact ((singleton_sublist.mpr hafter_b).cons_cons x).trans (sublist_append_right _ _)
    have hnodup' : (upTo t micros (frames entries)).Nodup :=
      ((mergeSort_perm entries _).nodup_iff.mpr hnodup).filter _
    exact not_pair_of_last hnodup' h.symm (frames_sublist hxb (Std.OrientedCmp.eq_symm hbx))

theorem eq_of_unshared {entries : List Entry} {micros : Int64} {t : Track}
    (h : Unshared (upTo t micros entries)) :
    seekSnapshot entries micros t = (upTo t micros (frames entries)).getLast? := by
  have hfirst := seekSnapshot_isFirst entries micros t
  have hlatest := frames_isLatest entries micros t
  cases hseek : seekSnapshot entries micros t with
  | none =>
    rw [hseek] at hfirst
    rw [show upTo t micros entries = [] from hfirst] at hlatest
    cases hlast : (upTo t micros (frames entries)).getLast? with
    | none => rfl
    | some e =>
      rw [hlast] at hlatest
      cases hlatest.1
  | some x =>
    rw [hseek] at hfirst
    obtain ⟨before, after, hl, hbefore, hafter⟩ := hfirst
    rw [hl] at h hlatest
    cases hlast : (upTo t micros (frames entries)).getLast? with
    | none =>
      rw [hlast] at hlatest
      cases before <;> cases hlatest
    | some e =>
      rw [hlast] at hlatest
      obtain ⟨hmem, hle⟩ := hlatest
      have hxe : (x.byTime e).isLE := hle x (by simp)
      rcases mem_append.mp hmem with hmem | hmem
      · rw [Std.OrientedCmp.gt_of_lt (hbefore e hmem)] at hxe
        cases hxe
      · rcases mem_cons.mp hmem with rfl | hmem
        · rfl
        -- an entry after the first of the latest is one of them, and shares its time
        · have heq : x.byTime e = .eq := by
            have hge := hafter e hmem
            cases hc : x.byTime e with
            | lt => rw [Std.OrientedCmp.gt_of_lt hc] at hge; cases hge
            | eq => rfl
            | gt => rw [hc] at hxe; cases hxe
          have hshared := (pairwise_append.mp h).2.1
          obtain ⟨y, hy, hlt⟩ := (pairwise_cons.mp hshared).1 e hmem heq
          have hye := hle y hy
          rw [Std.OrientedCmp.gt_of_lt (Std.TransCmp.lt_of_eq_of_lt (Std.OrientedCmp.eq_symm heq) hlt)]
            at hye
          cases hye

/-! ## Entries of a recording -/

theorem timelineLoop_offsets {fuel off bytes entries}
    (h : timelineLoop fuel off bytes = .ok entries) :
    (∀ e ∈ entries, off ≤ e.offset) ∧ entries.Pairwise (fun a b => a.offset < b.offset) := by
  induction fuel generalizing off bytes entries with
  | zero =>
    cases h
    exact ⟨by simp, .nil⟩
  | succ fuel ih =>
    rw [timelineLoop] at h
    split at h
    · next f rest hrun =>
      have hlt := (decodeFrame_suffix hrun).2
      cases htail : timelineLoop fuel (off + (bytes.length - rest.length)) rest with
      | error _ =>
        rw [htail] at h
        cases h
      | ok tail =>
        rw [htail] at h
        cases h
        obtain ⟨hge, hpair⟩ := ih htail
        have hafter : ∀ e ∈ tail, off < e.offset := fun e he => by
          have := hge e he
          omega
        refine ⟨fun e he => ?_, pairwise_cons.mpr ⟨hafter, hpair⟩⟩
        rcases mem_cons.mp he with rfl | he
        · exact Nat.le_refl off
        · exact Nat.le_of_lt (hafter e he)
    · cases h
    · cases h
      exact ⟨by simp, .nil⟩

theorem buildTimeline_nodup {file entries} (h : buildTimeline file = .ok entries) :
    entries.Nodup := by
  unfold buildTimeline at h
  split at h
  · refine (timelineLoop_offsets h).2.imp (fun hlt heq => ?_)
    exact absurd (congrArg Entry.offset heq) (Nat.ne_of_lt hlt)
  · cases h

/-- **Seeking.** A track is in the snapshot iff it has a frame up to the time, and with the
    last one in the order of `Frames` iff the latest time and `Seq` up to then are those of
    one frame. -/
theorem seekSnapshot_last {file entries} (h : buildTimeline file = .ok entries) (micros : Int64)
    (t : Track) :
    (seekSnapshot entries micros t ≠ none ↔ ∃ e ∈ entries, e.track = t ∧ e.captured ≤ micros) ∧
      (seekSnapshot entries micros t = (upTo t micros (frames entries)).getLast? ↔
        Unshared (upTo t micros entries)) := by
  refine ⟨?_, unshared_of_eq (buildTimeline_nodup h), eq_of_unshared⟩
  have hfirst := seekSnapshot_isFirst entries micros t
  cases hs : seekSnapshot entries micros t with
  | none =>
    rw [hs] at hfirst
    refine ⟨fun hne => absurd rfl hne, fun ⟨e, he, hin⟩ => ?_⟩
    have hmem : e ∈ upTo t micros entries := mem_filter.mpr ⟨he, decide_eq_true hin⟩
    rw [show upTo t micros entries = [] from hfirst] at hmem
    cases hmem
  | some e =>
    rw [hs] at hfirst
    obtain ⟨before, after, hl, -, -⟩ := hfirst
    have hmem : e ∈ upTo t micros entries := by simp [hl]
    obtain ⟨he, hin⟩ := mem_filter.mp hmem
    exact ⟨fun _ => ⟨e, he, of_decide_eq_true hin⟩, fun _ => Option.some_ne_none e⟩

def camFrame (captured : UInt64) (seq : UInt32) : Frame :=
  ⟨str "cam", str "video", 0, seq, true, false, captured, []⟩

def camEntry (captured : UInt64) (seq : UInt32) (offset : Nat) : Entry :=
  ⟨camFrame captured seq, 0, offset⟩

set_option maxRecDepth 2000 in
theorem seekSnapshot_last_tie :
    ∃ entries, buildTimeline (recording [camFrame 5 1, camFrame 5 1, camFrame 6 2]) = .ok entries ∧
      seekSnapshot entries 7 ⟨str "cam", str "video"⟩ =
        (upTo ⟨str "cam", str "video"⟩ 7 (frames entries)).getLast? := by
  have hbuild : buildTimeline (recording [camFrame 5 1, camFrame 5 1, camFrame 6 2]) =
      .ok [camEntry 5 1 12, camEntry 5 1 52, camEntry 6 2 92] := rfl
  exact ⟨_, hbuild, (seekSnapshot_last hbuild 7 _).2.mpr (by unfold Unshared; decide)⟩

/-- Same time and `Seq`: the snapshot has the first of the two frames, playback ends with
    the second. -/
theorem seekSnapshot_first_of_equal :
    ∃ entries, buildTimeline (recording [camFrame 5 1, camFrame 5 1]) = .ok entries ∧
      seekSnapshot entries 7 ⟨str "cam", str "video"⟩ = some (camEntry 5 1 12) ∧
      (upTo ⟨str "cam", str "video"⟩ 7 (frames entries)).getLast? = some (camEntry 5 1 52) := by
  refine ⟨[camEntry 5 1 12, camEntry 5 1 52], rfl, rfl, ?_⟩
  have hsorted : frames [camEntry 5 1 12, camEntry 5 1 52] = [camEntry 5 1 12, camEntry 5 1 52] :=
    mergeSort_of_pairwise (by decide)
  rw [hsorted]
  rfl

end QuicRTC.Record

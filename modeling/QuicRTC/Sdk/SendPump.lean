import QuicRTC.Sdk.Client
import QuicRTC.Sdk.Wire

/-! # The Outbound Pump of the TypeScript SDK

`sendPump` of `ts-sdk/src/client.ts`. The calls of `send` share `currentWriter`. A write is on its
stream when `write` is called; it may still be rejected if the stream is aborted. The track name has
passed `validateLocalTrackName`, so its header fits.

A P-frame sent while the stream of its keyframe is being made is dropped, or comes before its
keyframe. A call whose write was rejected resets the writer, whichever it is by then.
-/

namespace QuicRTC.Sdk

open Wire LTS List Option Slots

/-! ## The pump -/

/-- The `await` of a `send`. -/
inductive SendPc where
  /-- `abort` of the old writer. -/
  | aborting
  | creating
  | header (k : Nat)
  /-- The frame, on the stream. -/
  | writing (k : Nat)
  | failing
  /-- `resetCurrent` after a rejected write. -/
  | clearing
  | done
deriving DecidableEq

/-- It has not come to the write of its frame. -/
def SendPc.opens : SendPc → Bool
  | .aborting => true
  | .creating => true
  | .header _ => true
  | _ => false

/-- Its write was rejected. -/
def SendPc.resets : SendPc → Bool
  | .failing => true
  | .clearing => true
  | _ => false

structure SendCall where
  au : AccessUnit
  pc : SendPc
deriving DecidableEq

inductive PumpItem where
  | header
  /-- What `writeFeedFrame` returned for the unit of the call. -/
  | frame (call : Nat)
deriving DecidableEq

structure PumpStream where
  items : List PumpItem
  aborted : Bool
deriving DecidableEq

structure SendPump where
  streams : List PumpStream
  currentWriter : Option Nat
  calls : List SendCall
deriving DecidableEq

namespace SendPump

def setPc (s : SendPump) (i : Nat) (pc : SendPc) : SendPump :=
  { s with calls := s.calls.modify i (fun c => { c with pc := pc }) }

def abort (s : SendPump) (k : Nat) : SendPump :=
  { s with streams := s.streams.modify k (fun st => { st with aborted := true }) }

def append (s : SendPump) (k : Nat) (item : PumpItem) : SendPump :=
  { s with streams := s.streams.modify k (fun st => { st with items := st.items ++ [item] }) }

def isAborted (s : SendPump) (k : Nat) : Bool := (s.streams[k]?).any PumpStream.aborted

/-- As it should arrive. -/
def feedFrame (au : AccessUnit) : Wire.FeedFrame where
  typ := if au.keyframe then typeKeyframe else typePFrame
  ptsMicro := au.ptsMicro
  seq := au.seq
  flags := (if au.keyframe then flagKeyframe else 0) ||| (if au.discontinuity then flagDiscontinuity else 0)
  pubWallMicro := 0
  payload := au.bytes

def encoded (au : AccessUnit) : Option (List UInt8) :=
  let f := feedFrame au
  Framing.writeFeedFrame f.typ f.ptsMicro f.seq f.flags f.payload

def writeFrame (s : SendPump) (i : Nat) (au : AccessUnit) : SendPump :=
  match s.currentWriter with
  | none => s.setPc i .done
  | some k =>
    -- `writeFeedFrame` throws, outside of the `try`.
    if encoded au = none then s.setPc i .done
    else if s.isAborted k then s.setPc i .failing
    else (s.append k (.frame i)).setPc i (.writing k)

def send (s : SendPump) (au : AccessUnit) : SendPump :=
  let s' : SendPump := { s with calls := s.calls ++ [⟨au, .done⟩] }
  if au.keyframe then
    match s.currentWriter with
    | some k => (s'.abort k).setPc s.calls.length .aborting
    | none => s'.setPc s.calls.length .creating
  else s'.writeFrame s.calls.length au

inductive SendStep where
  | send (au : AccessUnit)
  /-- Resolved, or rejected. -/
  | resume (call : Nat) (ok : Bool)
deriving DecidableEq

/-- Without a failure of the transport only writes to an aborted stream are rejected. -/
def resume (s : SendPump) (i : Nat) (c : SendCall) (ok : Bool) : Option SendPump :=
  match c.pc, ok with
  | .aborting, true => some (setPc { s with currentWriter := none } i .creating)
  | .creating, true =>
    some (setPc { s with
      streams := s.streams ++ [⟨[.header], false⟩]
      currentWriter := some s.streams.length } i (.header s.streams.length))
  | .header _, true => some (s.writeFrame i c.au)
  | .header k, false => if s.isAborted k then some (s.setPc i .done) else none
  | .writing _, true => some (s.setPc i .done)
  | .writing k, false => if s.isAborted k then some (s.setPc i .failing) else none
  | .failing, true =>
    match s.currentWriter with
    | some k => some ((s.abort k).setPc i .clearing)
    | none => some (s.setPc i .done)
  | .clearing, true => some (setPc { s with currentWriter := none } i .done)
  | _, _ => none

def next (s : SendPump) : SendStep → Option SendPump
  | .send au => some (s.send au)
  | .resume i ok => s.calls[i]?.bind (fun c => s.resume i c ok)

def start : SendPump := ⟨[], none, []⟩

def keys (s : SendPump) : List Bool := s.calls.map (fun c => c.au.keyframe)

def Readable (au : AccessUnit) : Prop :=
  ∃ bytes, encoded au = some bytes ∧ Framing.ReadBack bytes (feedFrame au)

/-- The header is first, then a keyframe and the P-frames after it, in the order of the
    calls, with none missing, and all are read back. -/
def Shaped (s : SendPump) (st : PumpStream) : Prop :=
  ∃ frames : List Nat, st.items = .header :: frames.map .frame ∧ frames.Pairwise (· < ·) ∧
    (∀ j, frames.head? = some j → s.keys[j]? = some true) ∧
    (∀ j ∈ frames, s.keys[j]? = some true → ∀ i c, j < i → (∀ i', j < i' → i' ≤ i → s.keys[i']? = some false) →
      s.calls[i]? = some c → c.pc = .done → i ∈ frames) ∧
    ∀ j ∈ frames, ∀ c, s.calls[j]? = some c → Readable c.au

/-- No unit is sent while a keyframe is not written, or too long for its length field; a
    call whose write was rejected resets no live writer. -/
def orderly (s : SendPump) : SendStep → Bool
  | .send au => s.calls.all (fun c => !c.pc.opens) && decide (au.bytes.length ≤ Wire.maxFeedPayload)
  | .resume i _ => (s.calls[i]?).all (fun c => !c.pc.resets) || s.currentWriter.all s.isAborted

structure Gop (ks : List Bool) (st : PumpStream) (j n : Nat) : Prop where
  items : st.items = .header :: (List.range' j (n - j)).map .frame
  lt : j < n
  key : ks[j]? = some true
  delta : ∀ i, j < i → i < n → ks[i]? = some false

variable {s : SendPump} {st : PumpStream} {j n : Nat} {ks : List Bool}

theorem Gop.shaped (h : Gop s.keys st j n)
    (hend : s.keys[n]? = some true ∨ s.keys.length = n) (hread : ∀ c ∈ s.calls, Readable c.au) :
    s.Shaped st := by
  refine ⟨_, h.items, pairwise_lt_range', ?_, ?_, fun _ _ c hc => hread c (mem_of_getElem? hc)⟩
  · intro i hi
    have hlen : n - j = (n - j - 1) + 1 := by
      have := h.lt
      omega
    rw [hlen, range'_succ] at hi
    exact some.inj hi ▸ h.key
  · intro j' hj' hkey i c hlt hbetween hc _
    obtain ⟨hle, hjn⟩ := mem_range'_1.mp hj'
    have heq : j' = j := by
      by_contra hne
      exact absurd (mem_unique hkey (h.delta j' (by omega) (by omega))) (by decide)
    subst heq
    rw [mem_range'_1]
    refine ⟨hlt.le, ?_⟩
    -- the GOP ends before the next keyframe, or with the last call
    by_contra hge
    rcases hend with hnext | hlast
    · exact absurd (mem_unique hnext (hbetween n h.lt (by omega))) (by decide)
    · have hi := lt_of_getElem? hc
      rw [keys, length_map] at hlast
      omega

/-- A keyframe follows. -/
def Over (ks : List Bool) (st : PumpStream) : Prop := ∃ j n, Gop ks st j n ∧ ks[n]? = some true

theorem Gop.concat (h : Gop ks st j n) (b : Bool) : Gop (ks ++ [b]) st j n where
  items := h.items
  lt := h.lt
  key := getElem?_append_some h.key
  delta := fun i hi hn => getElem?_append_some (h.delta i hi hn)

theorem Over.concat (h : Over ks st) (b : Bool) : Over (ks ++ [b]) st := by
  obtain ⟨j, n, hgop, hnext⟩ := h
  exact ⟨j, n, hgop.concat b, getElem?_append_some hnext⟩

theorem Shaped.of_header (h : st.items = [.header]) : s.Shaped st := ⟨[], h, .nil, nofun, nofun, nofun⟩

/-! ## Keyframes that are written before the next call -/

/-- The writer is that of the last stream, which has the last GOP. -/
inductive Standing (ks : List Bool) : List PumpStream → Option Nat → Prop
  | none (hno : ∀ i : Nat, ks[i]? ≠ some true) : Standing ks [] none
  | some {old : List PumpStream} {st : PumpStream} (j : Nat) (hlive : st.aborted = false)
      (hgop : Gop ks st j ks.length) (hall : ∀ x ∈ old, Over ks x) :
      Standing ks (old ++ [st]) (some old.length)

structure Issued (c : SendCall) : Prop where
  pc : c.pc.opens = false
  fits : c.au.bytes.length ≤ Wire.maxFeedPayload

inductive Ordered : SendPump → Prop
  | rest {streams : List PumpStream} {w : Option Nat} {calls : List SendCall}
      (hcalls : ∀ c ∈ calls, Issued c) (h : Standing (calls.map (·.au.keyframe)) streams w) :
      Ordered ⟨streams, w, calls⟩
  | opening {streams : List PumpStream} {w : Option Nat} {pre : List SendCall} {au : AccessUnit}
      {pc : SendPc} (hpre : ∀ c ∈ pre, Issued c) (hfits : au.bytes.length ≤ Wire.maxFeedPayload)
      (hkey : au.keyframe = true) (hpc : pc = .aborting ∨ pc = .creating)
      (hall : ∀ x ∈ streams, Over (pre.map (·.au.keyframe) ++ [true]) x) :
      Ordered ⟨streams, w, pre ++ [⟨au, pc⟩]⟩
  | header {old : List PumpStream} {pre : List SendCall} {au : AccessUnit}
      (hpre : ∀ c ∈ pre, Issued c) (hfits : au.bytes.length ≤ Wire.maxFeedPayload)
      (hkey : au.keyframe = true) (hall : ∀ x ∈ old, Over (pre.map (·.au.keyframe) ++ [true]) x) :
      Ordered ⟨old ++ [⟨[.header], false⟩], some old.length, pre ++ [⟨au, .header old.length⟩]⟩

theorem readable_of_fits {au : AccessUnit} (h : au.bytes.length ≤ Wire.maxFeedPayload) : Readable au := by
  have hflags : (feedFrame au).flags &&& flagPublishWall = 0 := by
    simp only [feedFrame]
    cases au.keyframe <;> cases au.discontinuity <;> decide
  exact ⟨_, if_neg (Nat.not_lt.mpr (h.trans (by decide))), Framing.feedHeader_readBack h hflags rfl⟩

theorem Ordered.readable (h : Ordered s) : ∀ c ∈ s.calls, Readable c.au := by
  intro c hc
  apply readable_of_fits
  cases h with
  | rest hcalls _ => exact (hcalls c hc).fits
  | opening hpre hfits _ _ _ | header hpre hfits _ _ =>
    rcases mem_snoc hc with hold | rfl
    · exact (hpre c hold).fits
    · exact hfits

theorem isAborted_concat {old w calls} (h : st.aborted = false) :
    isAborted ⟨old ++ [st], w, calls⟩ old.length = false := by
  simp [isAborted, h]

theorem writeFrame_concat {old pre} {c : SendCall}
    (hfits : c.au.bytes.length ≤ Wire.maxFeedPayload) (hlive : st.aborted = false) :
    writeFrame ⟨old ++ [st], some old.length, pre ++ [c]⟩ pre.length c.au =
      ⟨old ++ [{ st with items := st.items ++ [.frame pre.length] }], some old.length,
        pre ++ [{ c with pc := .writing old.length }]⟩ := by
  obtain ⟨bytes, hbytes, -⟩ := readable_of_fits hfits
  simp only [writeFrame, hbytes, reduceCtorEq, isAborted_concat hlive, append, setPc, modify_concat,
    Bool.false_eq_true, if_false]

theorem Over.shaped (h : Over s.keys st) (hread : ∀ c ∈ s.calls, Readable c.au) : s.Shaped st := by
  obtain ⟨j, n, hgop, hnext⟩ := h
  exact hgop.shaped (.inl hnext) hread

theorem Standing.shaped (h : Standing s.keys s.streams s.currentWriter)
    (hread : ∀ c ∈ s.calls, Readable c.au) : ∀ st ∈ s.streams, s.Shaped st := by
  obtain ⟨streams, w, calls⟩ := s
  intro st hst
  cases h with
  | none => cases hst
  | some j _ hgop hall =>
    rcases mem_snoc hst with hold | rfl
    · exact Over.shaped (hall st hold) hread
    · exact hgop.shaped (.inr rfl) hread

theorem keys_last (streams : List PumpStream) (w : Option Nat) (pre : List SendCall) (c : SendCall) :
    keys ⟨streams, w, pre ++ [c]⟩ = pre.map (·.au.keyframe) ++ [c.au.keyframe] := map_append

theorem Ordered.shaped (h : Ordered s) : ∀ st ∈ s.streams, s.Shaped st := by
  have hread := h.readable
  cases h with
  | @rest streams w calls _ h => exact Standing.shaped (s := ⟨streams, w, calls⟩) h hread
  | opening _ _ hkey _ hall =>
    intro st hst
    refine Over.shaped ?_ hread
    rw [keys_last, hkey]
    exact hall st hst
  | header _ _ hkey hall =>
    refine forall_mem_snoc (fun st hst => Over.shaped ?_ hread) (.of_header rfl)
    rw [keys_last, hkey]
    exact hall st hst

theorem Issued.set {calls : List SendCall} {i : Nat} {c : SendCall} {pc : SendPc}
    (hcalls : ∀ x ∈ calls, Issued x) (hc : calls[i]? = some c) (hpc : pc.opens = false) :
    (∀ x ∈ calls.set i { c with pc := pc }, Issued x) ∧
      (calls.set i { c with pc := pc }).map (·.au.keyframe) = calls.map (·.au.keyframe) := by
  constructor
  · exact forall_mem_set hcalls ⟨hpc, (hcalls c (mem_of_getElem? hc)).fits⟩
  · exact map_set_eq hc rfl

/-- Past its write a call changes its own state and an aborted writer at most. -/
theorem resume_issued {i : Nat} {c : SendCall} {ok} {s' : SendPump} (hc : s.calls[i]? = some c)
    (hpc : c.pc.opens = false) (hok : s.orderly (.resume i ok) = true)
    (hres : s.resume i c ok = some s') :
    ∃ streams w pc, s' = ⟨streams, w, s.calls.set i { c with pc := pc }⟩ ∧ pc.opens = false ∧
      (streams = s.streams ∧ w = s.currentWriter ∨
        ∃ k, s.currentWriter = some k ∧ s.isAborted k = true ∧
          (streams = s.streams ∨ streams = (s.abort k).streams)) := by
  have hreset (k) (hresets : c.pc.resets = true) (hw : s.currentWriter = some k) :
      s.isAborted k = true := by
    simpa [orderly, hc, hresets, hw] using hok
  have hset (pc) : s.calls.modify i (fun c => { c with pc := pc }) = s.calls.set i { c with pc := pc } :=
    Slots.modify_eq_set hc _
  cases hcpc : c.pc with
  | aborting | creating | header =>
    rw [hcpc] at hpc
    cases hpc
  | done => simp [SendPump.resume, hcpc] at hres
  | writing k =>
    cases ok with
    | true =>
      simp only [SendPump.resume, hcpc, setPc, hset] at hres
      cases hres
      exact ⟨_, _, .done, rfl, rfl, .inl ⟨rfl, rfl⟩⟩
    | false =>
      simp only [SendPump.resume, hcpc, setPc, hset] at hres
      split at hres
      · cases hres
        exact ⟨_, _, .failing, rfl, rfl, .inl ⟨rfl, rfl⟩⟩
      · cases hres
  | failing =>
    cases ok with
    | false => simp [SendPump.resume, hcpc] at hres
    | true =>
      simp only [SendPump.resume, hcpc] at hres
      split at hres
      · next k hw =>
        cases hres
        exact ⟨_, _, .clearing, by simp only [setPc, abort, hset]; rfl, rfl,
          .inr ⟨k, hw, hreset k (by rw [hcpc]; rfl) hw, .inr rfl⟩⟩
      · cases hres
        exact ⟨_, _, .done, by simp only [setPc, hset], rfl, .inl ⟨rfl, rfl⟩⟩
  | clearing =>
    cases ok with
    | false => simp [SendPump.resume, hcpc] at hres
    | true =>
      simp only [SendPump.resume, hcpc, setPc, hset] at hres
      cases hres
      refine ⟨_, _, .done, rfl, rfl, ?_⟩
      cases hw : s.currentWriter with
      | none => exact .inl ⟨rfl, rfl⟩
      | some k => exact .inr ⟨k, rfl, hreset k (by rw [hcpc]; rfl) hw, .inl rfl⟩

theorem Over.abort {k : Nat} (hall : ∀ x ∈ s.streams, Over ks x) : ∀ x ∈ (s.abort k).streams, Over ks x := by
  refine forall_mem_modify hall (fun x hx => ?_)
  obtain ⟨j, n, hgop, hnext⟩ := hall x (mem_of_getElem? hx)
  exact ⟨j, n, { hgop with items := hgop.items }, hnext⟩

theorem Ordered.send {streams w} {calls : List SendCall}
    (h : Standing (calls.map (·.au.keyframe)) streams w) (hcalls : ∀ c ∈ calls, Issued c) {au}
    (hfits : au.bytes.length ≤ Wire.maxFeedPayload) :
    Ordered (SendPump.send ⟨streams, w, calls⟩ au) := by
  have hlen : (calls.map (·.au.keyframe)).length = calls.length := length_map _
  unfold SendPump.send
  cases hkey : au.keyframe with
  | true =>
    cases h with
    | none =>
      simp only [if_true, setPc, modify_concat]
      exact .opening hcalls hfits hkey (.inr rfl) nofun
    | @some old st j _ hgop hall =>
      simp only [if_true, setPc, abort, modify_concat]
      refine .opening hcalls hfits hkey (.inl rfl) ?_
      -- the new keyframe ends the GOP of the stream that is aborted
      refine forall_mem_snoc (fun x hx => (hall x hx).concat true) ?_
      exact ⟨j, _, { hgop.concat true with items := hgop.items }, getElem?_concat_length⟩
  | false =>
    cases h with
    | none hno =>
      simp only [Bool.false_eq_true, if_false, SendPump.writeFrame, setPc, modify_concat]
      refine .rest (forall_mem_snoc hcalls ⟨rfl, hfits⟩) (.none ?_)
      intro i
      rw [map_append]
      intro hi
      rcases mem_append.mp (mem_of_getElem? hi) with hold | hnew
      · obtain ⟨i', hi'⟩ := mem_iff_getElem?.mp hold
        exact hno i' hi'
      · rw [map_singleton, mem_singleton, hkey] at hnew
        cases hnew
    | @some old st j hlive hgop hall =>
      simp only [Bool.false_eq_true, if_false]
      rw [writeFrame_concat hfits hlive]
      refine .rest (forall_mem_snoc hcalls ⟨rfl, hfits⟩) ?_
      rw [map_append, map_singleton, hkey]
      refine .some j hlive ?_ (fun x hx => (hall x hx).concat _)
      have hlt := hgop.lt
      refine ⟨?_, ?_, getElem?_append_some hgop.key, ?_⟩
      · have hsucc : calls.length + 1 - j = calls.length - j + 1 := by omega
        simp only [hgop.items, length_append, length_map, length_singleton, hsucc,
          range'_concat, map_append, cons_append, map_singleton]
        have : j + 1 * (calls.length - j) = calls.length := by omega
        rw [this]
      · rw [length_append]
        exact Nat.lt_add_right _ hlt
      · intro i hji hi
        rcases Nat.lt_or_ge i (calls.map (·.au.keyframe)).length with hlt' | hge
        · exact getElem?_append_some (hgop.delta i hji hlt')
        · rw [length_append, length_singleton] at hi
          obtain rfl : i = (calls.map (·.au.keyframe)).length := by omega
          exact getElem?_concat_length

theorem Ordered.resume (h : Ordered s) {i : Nat} {c : SendCall} {ok : Bool} {s' : SendPump}
    (hc : s.calls[i]? = some c) (hok : s.orderly (.resume i ok) = true)
    (hres : s.resume i c ok = some s') : Ordered s' := by
  cases h with
  | rest hcalls h =>
    obtain ⟨streams, w, pc, rfl, hpc, hsame⟩ :=
      resume_issued hc (hcalls c (mem_of_getElem? hc)).pc hok hres
    obtain ⟨hcalls', hkeys⟩ := Issued.set hcalls hc hpc
    rcases hsame with ⟨rfl, rfl⟩ | ⟨k, hw, haborted, -⟩
    · exact .rest hcalls' (hkeys ▸ h)
    · cases h with
      | none => cases hw
      | some j hlive =>
        cases hw
        exact absurd ((isAborted_concat hlive).symm.trans haborted) (by decide)
  | @opening streams w pre au pc hpre hfits hkey hopen hall =>
    rcases (getElem?_snoc_cases hc).symm with ⟨rfl, rfl⟩ | hget
    · rcases hopen with rfl | rfl
      · cases ok with
        | false => cases hres
        | true =>
          cases hres
          rw [setPc, modify_concat]
          exact .opening hpre hfits hkey (.inr rfl) hall
      · cases ok with
        | false => cases hres
        | true =>
          cases hres
          rw [setPc, modify_concat]
          exact .header hpre hfits hkey hall
    · obtain ⟨streams', w', pc', rfl, hpc, hsame⟩ :=
        resume_issued hc (hpre c (mem_of_getElem? hget)).pc hok hres
      obtain ⟨hpre', hkeys⟩ := Issued.set hpre hget hpc
      simp only [set_append_left _ _ (lt_of_getElem? hget)]
      refine .opening hpre' hfits hkey hopen ?_
      rw [hkeys]
      rcases hsame with ⟨rfl, -⟩ | ⟨k, -, -, rfl | rfl⟩
      · exact hall
      · exact hall
      · exact Over.abort hall
  | @header old pre au hpre hfits hkey hall =>
    have hlive : (⟨[.header], false⟩ : PumpStream).aborted = false := rfl
    rcases (getElem?_snoc_cases hc).symm with ⟨rfl, rfl⟩ | hget
    · cases ok with
      | false => simp [SendPump.resume, isAborted_concat hlive] at hres
      | true =>
        cases hres
        rw [writeFrame_concat hfits rfl]
        refine .rest (forall_mem_snoc hpre ⟨rfl, hfits⟩) ?_
        rw [map_append, map_singleton, hkey]
        refine .some pre.length rfl ?_ hall
        have hlen : (pre.map (·.au.keyframe) ++ [true]).length = pre.length + 1 := by simp
        rw [hlen]
        refine ⟨by simp, Nat.lt_succ_self _, ?_, fun i h₁ h₂ => by omega⟩
        simp
    · obtain ⟨streams', w', pc', rfl, hpc, hsame⟩ :=
        resume_issued hc (hpre c (mem_of_getElem? hget)).pc hok hres
      obtain ⟨hpre', hkeys⟩ := Issued.set hpre hget hpc
      rcases hsame with ⟨rfl, rfl⟩ | ⟨k, hw, haborted, -⟩
      · simp only [set_append_left _ _ (lt_of_getElem? hget)]
        exact .header hpre' hfits hkey (hkeys ▸ hall)
      · cases hw
        exact absurd ((isAborted_concat hlive).symm.trans haborted) (by decide)

def unit (keyframe : Bool) (seq : UInt32) : AccessUnit := ⟨[], keyframe, 0, seq, false, none⟩

end SendPump

end QuicRTC.Sdk

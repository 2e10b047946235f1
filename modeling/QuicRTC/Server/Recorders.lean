import QuicRTC.Pubsub.Handles
import QuicRTC.Server.Server

/-! # Recorders

`AttachRecorder` in `server/server.go` adds an interceptor to the broadcaster of every track, and
`attachRecordersToTrack` one to that of a track added later. `detachers[name]` is the remove
function of the interceptor on the track of that name.

A step is one critical section or a call of the recorder's `Write`. `AddInterceptor` is only called
with both locks held, so the calls of one section are one step.
-/

namespace QuicRTC

open LTS Function List Slots

/-! ## State -/

/-- It calls `rec.Write(name, kind, au)` and passes the unit on. `call` numbers the
    `AttachRecorder` calls. -/
structure RecordHook where
  call : Nat
  recorder : Nat
  name : GoString
  kind : GoString
  deriving DecidableEq

inductive Detach where
  | waiting
  /-- Inside `detachOnce.Do`, before `recorderMu`. -/
  | called
  /-- `rest` are the remove functions to call. -/
  | removing (rest : List (BroadcasterId × UInt64))
  | done
  deriving DecidableEq

namespace Detach

/-- The entry is still in its slot. -/
def pending : Detach → Bool
  | waiting | called => true
  | removing _ | done => false

def rest : Detach → List (BroadcasterId × UInt64)
  | removing rest => rest
  | waiting | called | done => []

end Detach

def RecorderEntry.zero : RecorderEntry where
  recorder := none
  detachers := ∅

structure Recording where
  tracks : GoMap TrackEntry
  /-- Of every broadcaster ever created. -/
  hooks : BroadcasterId → Hooks RecordHook
  nextBroadcaster : BroadcasterId
  recorders : List RecorderEntry
  /-- By the number of the call. -/
  detach : List Detach
  /-- Each with what is left of its chain. -/
  running : List (List RecordHook)
  /-- History. -/
  writes : List RecordHook

namespace Recording

/-! ## Steps -/

/-- From slot `i` on. -/
def attachRecordersToTrack (name kind : GoString) (b : BroadcasterId) :
    Nat → Hooks RecordHook → List RecorderEntry → Hooks RecordHook × List RecorderEntry
  | _, h, [] => (h, [])
  | i, h, e :: es =>
    match e.recorder with
    | none =>
      let (h, es) := attachRecordersToTrack name kind b (i + 1) h es
      (h, e :: es)
    | some rec =>
      let h := h.add { call := i, recorder := rec, name := name, kind := kind }
      let e := { e with detachers := e.detachers.insert name (b, h.nextInterceptorID) }
      let (h, es) := attachRecordersToTrack name kind b (i + 1) h es
      (h, e :: es)

/-- When the name is free. -/
def createTrack (s : Recording) (name : GoString) (kind : Kind) (priority trackID : UInt8) :
    Recording :=
  let b := s.nextBroadcaster
  let (h, recorders) := attachRecordersToTrack name kind.toGoString b 0 Hooks.empty s.recorders
  { s with
    tracks := s.tracks.insert name
      { name := name, kind := kind, priority := priority, trackID := trackID, bc := b }
    hooks := update s.hooks b h
    nextBroadcaster := b + 1
    recorders := recorders }

/-- Its `trackMu` section. -/
def addTrackSpec (s : Recording) (spec : TrackSpec) : Recording :=
  match s.tracks.lookup spec.name with
  -- The caller gets the publisher of the track that is there.
  | some _ => s
  | none => s.createTrack spec.name (Server.specKind spec) (Server.specPriority spec) spec.trackID

/-- The chains, and the entry's map. -/
def attachLoop (call rec : Nat) :
    List ((_ : GoString) × TrackEntry) →
      (BroadcasterId → Hooks RecordHook) × GoMap (BroadcasterId × UInt64) →
      (BroadcasterId → Hooks RecordHook) × GoMap (BroadcasterId × UInt64)
  | [], st => st
  | ⟨name, t⟩ :: es, (hooks, detachers) =>
    let h := (hooks t.bc).add
      { call := call, recorder := rec, name := name, kind := t.kind.toGoString }
    attachLoop call rec es
      (update hooks t.bc h, detachers.insert name (t.bc, h.nextInterceptorID))

/-- The entry in the slice shares the map the loop fills. -/
def attachRecorder (s : Recording) (rec : Nat) : Recording :=
  let idx := s.recorders.length
  let (hooks, detachers) := attachLoop idx rec s.tracks.entries (s.hooks, ∅)
  { s with
    hooks := hooks
    recorders := s.recorders ++ [{ recorder := some rec, detachers := detachers }]
    detach := s.detach ++ [.waiting] }

inductive Label where
  | addTrackSpec (spec : TrackSpec)
  | removeTrack (name : GoString)
  | attachRecorder (rec : Nat)
  | detach (c : Nat)
  /-- It takes its entry out of the slice. -/
  | lift (c : Nat)
  /-- The order of a map is open. -/
  | remove (c k : Nat)
  | detached (c : Nat)
  | publish (b : BroadcasterId)
  | write (i : Nat)
  | published (i : Nat)

def next (s : Recording) : Label → Option Recording
  | .addTrackSpec spec => some (s.addTrackSpec spec)
  | .removeTrack name => some { s with tracks := s.tracks.erase name }
  | .attachRecorder rec =>
    -- `append` does not return when the slice cannot grow.
    if s.recorders.length < maxSliceLen then some (s.attachRecorder rec) else none
  | .detach c =>
    match s.detach[c]? with
    | some .waiting => some { s with detach := s.detach.set c .called }
    -- `detachOnce.Do` waits for the first call or returns at once.
    | some _ => some s
    | none => none
  | .lift c =>
    match s.detach[c]? with
    | some .called =>
      match s.recorders[c]? with
      | some e => some { s with
          recorders := s.recorders.set c RecorderEntry.zero
          detach := s.detach.set c (.removing (e.detachers.entries.map Sigma.snd)) }
      | none => some { s with detach := s.detach.set c .done }
    | _ => none
  | .remove c k =>
    match s.detach[c]? with
    | some (.removing rest) =>
      match rest[k]? with
      | some (b, id) => some { s with
          hooks := update s.hooks b ((s.hooks b).remove id)
          detach := s.detach.set c (.removing (rest.eraseIdx k)) }
      | none => none
    | _ => none
  | .detached c =>
    match s.detach[c]? with
    | some (.removing []) => some { s with detach := s.detach.set c .done }
    | _ => none
  | .publish b =>
    if b < s.nextBroadcaster then
      some { s with running := s.running ++ [(s.hooks b).interceptors] }
    else none
  | .write i =>
    match s.running[i]? with
    | some (x :: rest) =>
      some { s with running := s.running.set i rest, writes := s.writes ++ [x] }
    | _ => none
  | .published i =>
    match s.running[i]? with
    | some [] => some { s with running := s.running.eraseIdx i }
    | _ => none

def bare : Recording where
  tracks := ∅
  hooks := fun _ => Hooks.empty
  nextBroadcaster := 0
  recorders := []
  detach := []
  running := []
  writes := []

/-- `primary` exists. -/
def start : Recording :=
  bare.addTrackSpec { name := str "primary", kind := .unset, priority := 0, trackID := 0 }

end Recording

def recordingSystem : System Recording Recording.Label := ofFun Recording.start Recording.next

namespace Recording

/-! ## The loops -/

section loops

variable {name kind : GoString} {b : BroadcasterId}

/-- From slot `i` on: a slot is skipped, or gets an interceptor and keeps its identifier. -/
structure Attached (name kind : GoString) (b : BroadcasterId) (i n : Nat) (h h' : Hooks RecordHook)
    (es es' : List RecorderEntry) : Prop where
  length : es'.length = es.length
  issued : h'.Issued (n + es.length)
  keeps : ∀ p ∈ h.entries, p ∈ h'.entries
  skipped : ∀ (k : Nat) (e : RecorderEntry), es[k]? = some e → e.recorder = none →
    es'[k]? = some e
  added : ∀ (k : Nat) (e : RecorderEntry), es[k]? = some e → e.recorder.isSome →
    ∃ id, es'[k]? = some { e with detachers := e.detachers.insert name (b, id) } ∧
      ∃ x, (id, x) ∈ h'.entries ∧ x.call = i + k
  only : ∀ (id : UInt64) (x : RecordHook), (id, x) ∈ h'.entries → (id, x) ∈ h.entries ∨
    ∃ (k : Nat) (e : RecorderEntry) (rec : Nat), es[k]? = some e ∧ e.recorder = some rec ∧
      x = ⟨i + k, rec, name, kind⟩ ∧
      es'[k]? = some { e with detachers := e.detachers.insert name (b, id) }
  single : (h.interceptors.map RecordHook.call).Nodup →
    (∀ x ∈ h.interceptors, x.call < i) → (h'.interceptors.map RecordHook.call).Nodup

variable {h : Hooks RecordHook}

theorem attached_nil {i n} (hi : h.Issued n) : Attached name kind b i n h h [] [] where
  length := rfl
  issued := hi
  keeps := fun _ hp => hp
  skipped := nofun
  added := nofun
  only := fun _ _ hx => .inl hx
  single := fun hnd _ => hnd

variable {es : List RecorderEntry}

theorem Attached.skip {i n h'} {e : RecorderEntry} {es'}
    (ha : Attached name kind b (i + 1) n h h' es es') (he : e.recorder = none) :
    Attached name kind b i n h h' (e :: es) (e :: es') where
  length := congrArg Nat.succ ha.length
  issued := ha.issued.mono (by rw [length_cons]; omega)
  keeps := ha.keeps
  skipped := by
    intro k x hx hnone
    cases k with
    | zero => exact hx
    | succ k => exact ha.skipped k x hx hnone
  added := by
    intro k x hx hsome
    cases k with
    | zero =>
      cases hx
      rw [he] at hsome
      cases hsome
    | succ k =>
      obtain ⟨id, hid, y, hy, hcall⟩ := ha.added k x hx hsome
      exact ⟨id, hid, y, hy, by omega⟩
  only := by
    intro id x hx
    rcases ha.only id x hx with hold | ⟨k, y, r, hy, hsome, rfl, hid⟩
    · exact .inl hold
    · exact .inr ⟨k + 1, y, r, hy, hsome, by rw [Nat.add_right_comm]; rfl, hid⟩
  single := fun hnd hlt => ha.single hnd (fun x hx => Nat.lt_succ_of_lt (hlt x hx))

theorem Attached.turn {i n rec h'} {e : RecorderEntry} {es'} (hi : h.Issued n)
    (he : e.recorder = some rec) (ha : Attached name kind b (i + 1) (n + 1)
      (h.add { call := i, recorder := rec, name := name, kind := kind }) h' es es') :
    Attached name kind b i n h h' (e :: es)
      ({ e with detachers := e.detachers.insert name (b, h.nextInterceptorID + 1) } :: es') where
  length := congrArg Nat.succ ha.length
  issued := ha.issued.mono (by rw [length_cons]; omega)
  keeps := by
    intro p hp
    apply ha.keeps
    rw [hi.entries_add]
    exact mem_append_left _ hp
  skipped := by
    intro k x hx hnone
    cases k with
    | zero =>
      cases hx
      rw [he] at hnone
      cases hnone
    | succ k => exact ha.skipped k x hx hnone
  added := by
    intro k x hx hsome
    cases k with
    | zero =>
      cases hx
      refine ⟨h.nextInterceptorID + 1, rfl,
        { call := i, recorder := rec, name := name, kind := kind }, ha.keeps _ ?_, rfl⟩
      rw [hi.entries_add]
      exact mem_concat_self
    | succ k =>
      obtain ⟨id, hid, y, hy, hcall⟩ := ha.added k x hx hsome
      exact ⟨id, hid, y, hy, by omega⟩
  only := by
    intro id x hx
    rcases ha.only id x hx with hold | ⟨k, y, r, hy, hsome, rfl, hid⟩
    · rw [hi.entries_add] at hold
      rcases mem_snoc hold with hold | hnew
      · exact .inl hold
      · cases hnew
        exact .inr ⟨0, e, rec, rfl, he, rfl, rfl⟩
    · exact .inr ⟨k + 1, y, r, hy, hsome, by rw [Nat.add_right_comm]; rfl, hid⟩
  single := by
    intro hnd hlt
    apply ha.single
    · show (map _ (_ ++ [_])).Nodup
      rw [map_append]
      apply Nodup.append hnd (nodup_singleton _)
      intro c hc hnew
      obtain ⟨x, hx, rfl⟩ := mem_map.mp hc
      have hcall : x.call = i := mem_singleton.mp hnew
      have := hlt x hx
      omega
    · exact forall_mem_snoc (fun x hx => Nat.lt_succ_of_lt (hlt x hx)) (Nat.lt_succ_self i)

theorem attached_attachRecordersToTrack {i n} (hi : h.Issued n) (hn : n + es.length ≤ maxSliceLen) :
    Attached name kind b i n h (attachRecordersToTrack name kind b i h es).1 es
      (attachRecordersToTrack name kind b i h es).2 := by
  induction es generalizing i n h with
  | nil => exact attached_nil hi
  | cons e es ih =>
    rw [length_cons] at hn
    unfold attachRecordersToTrack
    split
    · next hnone => exact (ih hi (by omega)).skip hnone
    · next rec hsome => exact Attached.turn hi hsome (ih (hi.add (by omega) _) (by omega))

end loops

theorem attachLoop_spec (call rec : Nat) {es : List ((_ : GoString) × TrackEntry)}
    (hkeys : (es.map Sigma.fst).Nodup) (hbcs : (es.map (fun e => e.2.bc)).Nodup)
    (hooks : BroadcasterId → Hooks RecordHook) (detachers : GoMap (BroadcasterId × UInt64)) :
    (∀ b, b ∉ es.map (fun e => e.2.bc) →
      (attachLoop call rec es (hooks, detachers)).1 b = hooks b) ∧
    (∀ name, name ∉ es.map Sigma.fst →
      (attachLoop call rec es (hooks, detachers)).2.lookup name = detachers.lookup name) ∧
    ∀ e ∈ es,
      (attachLoop call rec es (hooks, detachers)).1 e.2.bc = (hooks e.2.bc).add
        { call := call, recorder := rec, name := e.1, kind := e.2.kind.toGoString } ∧
      (attachLoop call rec es (hooks, detachers)).2.lookup e.1 =
        some (e.2.bc, (hooks e.2.bc).nextInterceptorID + 1) := by
  induction es generalizing hooks detachers with
  | nil => exact ⟨fun _ _ => rfl, fun _ _ => rfl, nofun⟩
  | cons d es ih =>
    obtain ⟨name, t⟩ := d
    obtain ⟨hname, hkeys⟩ := nodup_cons.mp hkeys
    obtain ⟨hbc, hbcs⟩ := nodup_cons.mp hbcs
    obtain ⟨hother, hunder, hhere⟩ := ih hkeys hbcs (update hooks t.bc ((hooks t.bc).add
      { call := call, recorder := rec, name := name, kind := t.kind.toGoString }))
      (detachers.insert name (t.bc, (hooks t.bc).nextInterceptorID + 1))
    refine ⟨?_, ?_, ?_⟩
    · intro b hb
      obtain ⟨hne, hb⟩ := not_or.mp (fun hor => hb (mem_cons.mpr hor))
      exact (hother b hb).trans (update_of_ne hne _ _)
    · intro n hn
      obtain ⟨hne, hn⟩ := not_or.mp (fun hor => hn (mem_cons.mpr hor))
      exact (hunder n hn).trans (AList.lookup_insert_ne hne)
    · intro e he
      rcases mem_cons.mp he with rfl | he
      · -- the later tracks have other names and other broadcasters
        exact ⟨(hother _ hbc).trans (update_self _ _ _),
          (hunder _ hname).trans (AList.lookup_insert _)⟩
      · have hne : e.2.bc ≠ t.bc := fun heq => hbc (mem_map.mpr ⟨e, he, heq⟩)
        have hold : update hooks t.bc ((hooks t.bc).add
            { call := call, recorder := rec, name := name, kind := t.kind.toGoString }) e.2.bc
            = hooks e.2.bc := update_of_ne hne _ _
        rw [← hold]
        exact hhere e he

end Recording

end QuicRTC

import QuicRTC.Relay.Upstream

/-! # The Resume Cursor of the Relay

Each session of `runUpstream` has a client of its own, which starts with an empty `lastSeenSeq`.
Over a chain of sessions the map has only what the last of them received, since `runUpstream`
replaces its own map by the client's and does not merge the two.
-/

namespace QuicRTC

open Wire Client LTS List Option Slots

/-! ## Cursors -/

structure IsHighest (received : List Receipt) (track : GoString) (m : UInt32) : Prop where
  attained : ∃ y ∈ received, y.track = track ∧ y.seq = m
  bound : ∀ y ∈ received, y.track = track → y.seq ≤ m

/-- It has the highest Seq of every track something was received on. -/
def Covers (cursor : GoMap UInt32) (received : List Receipt) : Prop :=
  ∀ x ∈ received, ∃ m, cursor.lookup x.track = some m ∧ IsHighest received x.track m

structure Exact (cursor : GoMap UInt32) (received : List Receipt) : Prop where
  absent : ∀ track, cursor.lookup track = none → ∀ y ∈ received, y.track ≠ track
  present : ∀ track m, cursor.lookup track = some m → IsHighest received track m

def own (i : Nat) (received : List Receipt) : List Receipt :=
  received.filter (fun x => x.session = i)

variable {received : List Receipt} {i : Nat} {x : Receipt}

theorem mem_own : x ∈ own i received ↔ x ∈ received ∧ x.session = i := by
  simp [own]

theorem own_snoc_self (i : Nat) (received : List Receipt) (track : GoString) (seq : UInt32) :
    own i (received ++ [⟨i, track, seq⟩]) = own i received ++ [⟨i, track, seq⟩] := by
  simp [own]

theorem own_snoc_ne {j} (h : j ≠ i) (received : List Receipt) (track : GoString) (seq : UInt32) :
    own i (received ++ [⟨j, track, seq⟩]) = own i received := by
  simp [own, h]

theorem IsHighest.single
    (h : ∀ y ∈ received, y.track ≠ x.track) : IsHighest (received ++ [x]) x.track x.seq := by
  refine ⟨⟨x, mem_concat_self, rfl, rfl⟩, forall_mem_snoc (fun y hy htrack => ?_) ?_⟩
  · exact absurd htrack (h y hy)
  · exact fun _ => UInt32.le_refl _

theorem IsHighest.raise {m} (h : IsHighest received x.track m) (hlt : m < x.seq) :
    IsHighest (received ++ [x]) x.track x.seq := by
  refine ⟨⟨x, mem_concat_self, rfl, rfl⟩, forall_mem_snoc (fun y hy htrack => ?_) ?_⟩
  · exact UInt32.le_of_lt (UInt32.lt_of_le_of_lt (h.bound y hy htrack) hlt)
  · exact fun _ => UInt32.le_refl _

theorem IsHighest.keep {track m} (h : IsHighest received track m)
    (hle : x.track = track → x.seq ≤ m) : IsHighest (received ++ [x]) track m := by
  obtain ⟨y, hy, htrack, hseq⟩ := h.attained
  refine ⟨⟨y, mem_append_left _ hy, htrack, hseq⟩, ?_⟩
  exact forall_mem_snoc h.bound hle

theorem Exact.observeSeq {c : Client} (h : Exact c.lastSeenSeq received) (x : Receipt) :
    Exact (c.observeSeq x.track x.seq).lastSeenSeq (received ++ [x]) := by
  -- the entry of another track does not change
  have hother : ∀ track m, track ≠ x.track → c.lastSeenSeq.lookup track = some m →
      IsHighest (received ++ [x]) track m :=
    fun track m hne hm => (h.present track m hm).keep (fun heq => absurd heq.symm hne)
  -- inserting the new Seq, where that is the highest
  have hinsert (hhigh : IsHighest (received ++ [x]) x.track x.seq) :
      Exact (c.lastSeenSeq.insert x.track x.seq) (received ++ [x]) := by
    refine ⟨fun track hnone => ?_, fun track m hm => ?_⟩
    · have hne : track ≠ x.track := by
        rintro rfl
        rw [AList.lookup_insert] at hnone
        cases hnone
      rw [AList.lookup_insert_ne hne] at hnone
      exact forall_mem_snoc (h.absent track hnone) hne.symm
    · rcases GoMap.lookup_insert_eq_some_iff.mp hm with ⟨rfl, rfl⟩ | ⟨hne, hold⟩
      · exact hhigh
      · exact hother track m hne hold
  unfold Client.observeSeq
  split
  · next hnone => exact hinsert (.single (h.absent x.track hnone))
  · next prev hprev =>
    split
    · next hlt => exact hinsert ((h.present x.track prev hprev).raise hlt)
    · next hge =>
      refine ⟨fun track hnone => ?_, fun track m hm => ?_⟩
      · have hne : x.track ≠ track := by
          rintro rfl
          rw [hprev] at hnone
          cases hnone
        exact forall_mem_snoc (h.absent track hnone) hne
      · apply (h.present track m hm).keep
        rintro rfl
        rw [hprev] at hm
        exact some.inj hm ▸ UInt32.not_lt.mp hge

theorem Exact.empty : Exact ∅ [] :=
  ⟨nofun, fun track m hm => by
    cases hm⟩

theorem Exact.covers {cursor} (h : Exact cursor (own i received))
    (hcaught : ∀ x ∈ received, ∃ y ∈ own i received, y.track = x.track ∧ x.seq ≤ y.seq) :
    Covers cursor received := by
  intro x hx
  obtain ⟨y, hy, htrack, -⟩ := hcaught x hx
  obtain hnone | ⟨m, hm⟩ := eq_none_or_eq_some (cursor.lookup x.track)
  · exact absurd htrack (h.absent x.track hnone y hy)
  · obtain ⟨⟨z, hz, hzt, hzm⟩, hbound⟩ := h.present x.track m hm
    refine ⟨m, hm, ⟨z, (mem_own.mp hz).1, hzt, hzm⟩, fun w hw hwt => ?_⟩
    -- the session has received something at least as high as `w`
    obtain ⟨v, hv, hvt, hle⟩ := hcaught w hw
    exact UInt32.le_trans hle (hbound v hv (hvt.trans hwt))

theorem Client.lastSeenSeq_of_effect {c c' st} (h : Client.Effect c st c') :
    (c.receipt st = none ∧ c'.lastSeenSeq = c.lastSeenSeq) ∨
      ∃ track seq, c.receipt st = some (track, seq) ∧
        c'.lastSeenSeq = (c.observeSeq track seq).lastSeenSeq := by
  cases h with
  | @observe i call au hget htaken =>
    refine .inr ⟨call.track, au.seq, ?_, rfl⟩
    simp only [Client.receipt, hget, htaken]
  | _ => exact .inl ⟨rfl, rfl⟩

theorem Relay.lastSeenSeq_of_next {r r' a} (h : Relay.next r a = some r') :
    (r.receipt a = none ∧ r'.client.lastSeenSeq = r.client.lastSeenSeq) ∨
      ∃ track seq, r.receipt a = some (track, seq) ∧
        r'.client.lastSeenSeq = (r.client.observeSeq track seq).lastSeenSeq := by
  cases Relay.effect_of_next h with
  | client hnext => exact Client.lastSeenSeq_of_effect (Client.effect_of_next hnext)
  | poll =>
    refine .inl ⟨rfl, ?_⟩
    rw [Relay.client_startPump]
  | _ => exact .inl ⟨rfl, rfl⟩

theorem Relay.observe_of_receipt {r : Relay} {a x} (h : r.receipt a = some x) :
    ∃ i, a = .client (.observe i) := by
  cases a with
  | client st =>
    cases st with
    | observe i => exact ⟨i, rfl⟩
    | _ => cases h
  | _ => cases h

/-! ## The invariant -/

/-- Its cursor has not been read yet. -/
def UpstreamPhase.isOpen : UpstreamPhase → Bool
  | .running | .ended _ => true
  | _ => false

namespace Upstream

def resumed (u : Upstream) : Label → Bool
  | .dialed sessionID _ =>
    decide (sessionID ≠ []) && (decide (u.sessionID = []) || decide (sessionID = u.sessionID))
  | _ => true

/-- When the cursor is read, the session has caught up with the chain, and afterwards its
    pumps receive nothing. -/
def caughtUp (u : Upstream) : Label → Bool
  | .snapshot =>
    u.received.all (fun x => (own (u.sessions.length - 1) u.received).any (fun y =>
      decide (y.track = x.track) && decide (x.seq ≤ y.seq)))
  | .session i (.client (.observe _)) => u.phase.isOpen && decide (i + 1 = u.sessions.length)
  | _ => true

/-- Cursors are exact, and that of the last session covers the chain once read. -/
structure CursorInv (u : Upstream) : Prop where
  exact : ∀ i r, u.sessions[i]? = some r → Exact r.client.lastSeenSeq (own i u.received)
  session : ∀ x ∈ u.received, x.session < u.sessions.length
  resumes : u.sessions ≠ [] → u.sessionID ≠ []
  cursor : u.phase.isOpen = false → Covers u.lastSeenSeq u.received
  hellos : ∀ h ∈ u.hellos, Covers h.lastSeenSeq h.before

namespace CursorInv

variable {u : Upstream}

theorem init (cfg : UpstreamConfig) : CursorInv (start cfg) :=
  ⟨nofun, nofun, fun hne => absurd rfl hne,
    nofun, nofun⟩

theorem setPhase (h : CursorInv u) {phase : UpstreamPhase}
    (hopen : phase.isOpen = false → u.phase.isOpen = false) : CursorInv { u with phase := phase } :=
  { h with cursor := fun hp => h.cursor (hopen hp) }

theorem options (h : CursorInv u) (hphase : u.phase.isOpen = false) : Covers u.options.2 u.received := by
  by_cases hsessions : u.sessions = []
  · -- there was no session yet, so nothing was received
    intro x hx
    have hlt := h.session x hx
    rw [hsessions] at hlt
    exact absurd hlt (Nat.not_lt_zero _)
  · have heq : u.options = (u.sessionID, u.lastSeenSeq) := if_pos (h.resumes hsessions)
    rw [heq]
    exact h.cursor hphase

theorem dial (h : CursorInv u) (hphase : u.phase = .dialing) : CursorInv u.dial := by
  have hopen : u.phase.isOpen = false := by rw [hphase]; rfl
  exact { h with cursor := fun _ => h.cursor hopen, hellos := forall_mem_snoc h.hellos (h.options hopen) }

theorem dialFailed (h : CursorInv u) (hphase : u.phase = .handshaking) : CursorInv u.dialFailed := by
  have hopen : u.phase.isOpen = false := by rw [hphase]; rfl
  exact { h with cursor := fun _ => h.cursor hopen }

theorem dialed (h : CursorInv u) {sessionID} (claimed : Bool) (hid : sessionID ≠ []) :
    CursorInv (u.dialed sessionID claimed) := by
  -- nothing is on record for the new session
  have hnew : own u.sessions.length u.received = [] := by
    apply eq_nil_iff_forall_not_mem.mpr
    intro x hx
    obtain ⟨hmem, heq⟩ := mem_own.mp hx
    exact Nat.ne_of_lt (h.session x hmem) heq
  refine ⟨?_, fun x hx => ?_, fun _ => hid, fun hopen => Bool.noConfusion hopen, h.hellos⟩
  · apply forall_getElem?_snoc h.exact
    rw [hnew, Relay.start, Relay.client_startPump]
    exact Exact.empty
  · show x.session < (u.sessions ++ [_]).length
    rw [length_append]
    exact Nat.lt_of_lt_of_le (h.session x hx) (Nat.le_add_right _ _)

variable {r : Relay}

theorem quiet (h : CursorInv u) {i} {r' : Relay} {a} (hget : u.sessions[i]? = some r)
    (hnone : r.receipt a = none) (hseq : r'.client.lastSeenSeq = r.client.lastSeenSeq) :
    CursorInv (u.advance i r a r') := by
  have hreceived : (u.advance i r a r').received = u.received := by
    simp only [advance, receipts, hnone, append_nil]
  have hexact : Exact r'.client.lastSeenSeq (own i u.received) := hseq ▸ h.exact i r hget
  refine ⟨?_, ?_, fun hne => h.resumes ?_, ?_, h.hellos⟩
  · rw [hreceived]
    exact forall_getElem?_set h.exact hexact
  · rw [hreceived]
    show ∀ x ∈ u.received, x.session < (u.sessions.set i r').length
    rw [length_set]
    exact h.session
  · rintro hnil
    rw [hnil] at hget
    cases hget
  · rw [hreceived]
    exact h.cursor

theorem receive (h : CursorInv u) {i} {r' : Relay} {a track seq} (hget : u.sessions[i]? = some r)
    (hsome : r.receipt a = some (track, seq))
    (hseq : r'.client.lastSeenSeq = (r.client.observeSeq track seq).lastSeenSeq)
    (hopen : u.phase.isOpen = true) : CursorInv (u.advance i r a r') := by
  have hreceived : (u.advance i r a r').received = u.received ++ [⟨i, track, seq⟩] := by
    simp only [advance, receipts, hsome]
  have hlt := lt_of_getElem? hget
  have hlen : (u.advance i r a r').sessions.length = u.sessions.length := length_set
  have hself : Exact r'.client.lastSeenSeq (own i (u.received ++ [⟨i, track, seq⟩])) := by
    rw [own_snoc_self, hseq]
    exact (h.exact i r hget).observeSeq ⟨i, track, seq⟩
  refine ⟨fun j s hj => ?_, ?_, fun _ => h.resumes ?_, fun hclosed => ?_, h.hellos⟩
  · rw [hreceived]
    by_cases hij : i = j
    · subst hij
      have hs : (u.sessions.set i r')[i]? = some r' := getElem?_set_self hlt
      exact mem_unique hs hj ▸ hself
    · have hs : (u.sessions.set i r')[j]? = u.sessions[j]? := getElem?_set_ne hij
      rw [own_snoc_ne hij]
      exact h.exact j s (hs.symm.trans hj)
  · rw [hreceived, hlen]
    exact forall_mem_snoc h.session hlt
  · rintro hnil
    rw [hnil] at hget
    cases hget
  · have : u.phase.isOpen = false := hclosed
    rw [hopen] at this
    cases this

theorem snapshot (h : CursorInv u) {failed} (hcurrent : u.current = some r)
    (hcaught : u.caughtUp .snapshot = true) : CursorInv (u.snapshot failed r) := by
  refine { h with cursor := fun _ => ?_ }
  have hget : u.sessions[u.sessions.length - 1]? = some r := getLast?_eq_getElem? ▸ hcurrent
  apply (h.exact _ r hget).covers
  intro x hx
  obtain ⟨y, hy, hxy⟩ := any_eq_true.mp (all_eq_true.mp hcaught x hx)
  simp only [Bool.and_eq_true, decide_eq_true_eq] at hxy
  exact ⟨y, hy, hxy⟩

theorem closeClient (h : CursorInv u) {failed} (hphase : u.phase = .closing failed)
    (hcurrent : u.current = some r) : CursorInv (u.closeClient failed r) := by
  have hget : u.sessions[u.sessions.length - 1]? = some r := getLast?_eq_getElem? ▸ hcurrent
  have hopen : u.phase.isOpen = false := by rw [hphase]; rfl
  refine ⟨?_, ?_, fun _ => h.resumes ?_, fun _ => h.cursor hopen, h.hellos⟩
  · exact forall_getElem?_set h.exact (h.exact _ r hget)
  · show ∀ x ∈ u.received, x.session < (u.sessions.set _ _).length
    rw [length_set]
    exact h.session
  · rintro hnil
    rw [hnil] at hget
    cases hget

theorem step {l u'} (h : CursorInv u) (hresumed : u.resumed l = true)
    (hcaught : u.caughtUp l = true) (hstep : Effect u l u') : CursorInv u' := by
  cases hstep with
  | dial hphase => exact h.dial hphase
  | dialFailed hphase => exact h.dialFailed hphase
  | @dialed sessionID claimed hphase =>
    simp only [resumed, Bool.and_eq_true, decide_eq_true_eq] at hresumed
    exact h.dialed claimed hresumed.1
  | @session i a r r' hget hallowed hnext =>
    rcases Relay.lastSeenSeq_of_next hnext with ⟨hnone, hseq⟩ | ⟨track, seq, hsome, hseq⟩
    · exact h.quiet hget hnone hseq
    · -- only an `observe` step receives
      obtain ⟨n, rfl⟩ := Relay.observe_of_receipt hsome
      obtain ⟨hopen, -⟩ := Bool.and_eq_true_iff.mp hcaught
      exact h.receive hget hsome hseq hopen
  | loopEnds hphase => exact h.setPhase (fun hopen => Bool.noConfusion hopen)
  | snapshot hphase hcurrent => exact h.snapshot hcurrent hcaught
  | closeClient hphase hcurrent => exact h.closeClient hphase hcurrent
  | wake hphase | cancelled hphase => exact h.setPhase (fun _ => by rw [hphase]; rfl)

end CursorInv

/-! ## The cursor of every HELLO -/

/-- **The resume cursor never regresses.** If each reconnect is accepted as a resume, each
    session has caught up with the chain when its cursor is read, and its pumps receive
    nothing after that, every HELLO has the highest Seq received so far on every track. -/
theorem cursor_covers_chain {cfg : UpstreamConfig} {u : Upstream}
    (h : Reachable ((upstreamSystem cfg).restrict
      (fun u l => (u.resumed l && u.caughtUp l) = true)) u) :
    ∀ hello ∈ u.hellos, Covers hello.lastSeenSeq hello.before := by
  have hinv : CursorInv u := by
    refine invariant_restrict CursorInv (CursorInv.init cfg) ?_ u h
    intro u l u' _ hu hok hnext
    obtain ⟨hresumed, hcaught⟩ := Bool.and_eq_true_iff.mp hok
    exact hu.step hresumed hcaught (effect_of_next hnext)
  exact hinv.hellos

/-- The first stream of session `i`, with one keyframe on `primary`. -/
def receiveOn (i : Nat) (seq : UInt32) : List Label :=
  [.session i (.client (.stream [])), .session i (.client (.lookup 0)),
    .session i (.client (.decode 0 ⟨typeKeyframe, 0, seq, 0, 0, [1]⟩)), .session i (.client (.deliver 0)),
    .session i (.receive 0), .session i (.client (.findDone 0)), .session i (.client (.take 0)),
    .session i (.client (.observe 0)), .session i (.publish 0)]

/-- Up to the next HELLO. -/
def lose (i : Nat) : List Label :=
  [.session i (.client (.acceptError (str "gone"))), .loopEnds true, .snapshot, .closeClient, .wake, .dial]

def bothReceive : List Label :=
  [.dial, .dialed (str "s") true] ++ receiveOn 0 7 ++ lose 0 ++ [.dialFailed, .wake, .dial] ++
    [.dialed (str "s") true] ++ receiveOn 1 8 ++ lose 1

theorem cursor_covers_chain_bothReceive :
    ∃ u, Reachable ((upstreamSystem .fresh).restrict
        (fun u l => (u.resumed l && u.caughtUp l) = true)) u ∧
      u.hellos.map (fun h => h.lastSeenSeq.lookup (str "primary")) = [none, some 7, some 7, some 8] ∧
      ∀ hello ∈ u.hellos, Covers hello.lastSeenSeq hello.before :=
  exists_run_given_imp bothReceive (fun u hu (hp : u.hellos.map (fun h => h.lastSeenSeq.lookup
    (str "primary")) = [none, some 7, some 7, some 8]) => ⟨hp, cursor_covers_chain hu⟩)
    (by decide +kernel)

/-- The first session receives a unit, the second dies before it receives any. -/
def secondDies : List Label :=
  [.dial, .dialed (str "s") true] ++ receiveOn 0 7 ++ lose 0 ++ [.dialed (str "s") true] ++ lose 1

/-- The third HELLO has no cursor: the unit of the first session is forgotten. -/
theorem cursor_forgotten :
    ∃ u, Reachable ((upstreamSystem .fresh).restrict (fun u l => u.resumed l = true)) u ∧
      u.received = [⟨0, str "primary", 7⟩] ∧
      u.hellos.map (fun h => (h.sessionID, h.lastSeenSeq.lookup (str "primary"))) =
        [([], none), (str "s", some 7), (str "s", none)] ∧
      ¬ ∀ hello ∈ u.hellos, Covers hello.lastSeenSeq hello.before := by
  refine exists_run_given_imp secondDies (fun u hu (hp : u.received = [⟨0, str "primary", 7⟩] ∧
    u.hellos.map (fun h => (h.sessionID, h.lastSeenSeq.lookup (str "primary"))) =
      [([], none), (str "s", some 7), (str "s", none)] ∧
    ∃ h ∈ u.hellos, h.before = [⟨0, str "primary", 7⟩] ∧
      h.lastSeenSeq.lookup (str "primary") = none) => ⟨hp.1, hp.2.1, fun hall => ?_⟩)
    (by decide +kernel)
  obtain ⟨hello, hmem, hbefore, hnone⟩ := hp.2.2
  obtain ⟨m, hm, -⟩ := hall hello hmem ⟨0, str "primary", 7⟩ (by rw [hbefore]; exact List.mem_singleton_self _)
  rw [hnone] at hm
  cases hm

end Upstream

end QuicRTC

import QuicRTC.Pubsub.ChannelSafety

/-! # Everything goes through the Interceptors

Whatever is in a queue, the keyframe cache or the replay ring is the output of the whole chain its
`Publish` read, until an identifier of 64 bits is given out twice (`reused_handle`).
-/

namespace QuicRTC

open LTS Function List Option Slots

/-! ## The chain and the handles -/

namespace Registration

variable {F : Type}

def liveIDs (l : List (Registration F)) : List UInt64 :=
  l.filterMap (fun e => if e.removed then none else e.handle)

/-- Nil functions are not. -/
def added (l : List (Registration F)) : Nat := l.countP (fun e => e.fn.isSome)

variable {l : List (Registration F)} {k : Nat} {e : Registration F}

theorem remove_live (hpair : ∀ e ∈ l, e.fn.isSome = e.handle.isSome)
    (hdist : (l.filterMap handle).Nodup) {id} (hk : l[k]? = some e) (hid : e.handle = some id)
    (hlive : e.removed = false) :
    ∃ i, (liveIDs l).findIdx? (fun gotID => gotID == id) = some i ∧
      (live l).eraseIdx i = live (l.set k { e with removed := true }) ∧
      (liveIDs l).eraseIdx i = liveIDs (l.set k { e with removed := true }) := by
  induction l generalizing k with
  | nil => cases hk
  | cons d l ih =>
    have hpairs : ∀ x ∈ l, x.fn.isSome = x.handle.isSome := fun x hx =>
      hpair x (mem_cons_of_mem d hx)
    cases k with
    | zero =>
      -- it is the first: nothing before it has its identifier
      obtain rfl := some.inj hk
      obtain ⟨fn, hfn⟩ : ∃ fn, d.fn = some fn := by
        rw [← isSome_iff_exists, hpair d mem_cons_self, hid]
        rfl
      exact ⟨0, by simp [liveIDs, hlive, hid, findIdx?_cons], by simp [live, hlive, hfn],
        by simp [liveIDs, hlive, hid]⟩
    | succ k =>
      have hk : l[k]? = some e := hk
      have hmem : id ∈ l.filterMap handle :=
        mem_filterMap.mpr ⟨e, mem_of_getElem? hk, hid⟩
      cases hd : d.removed with
      | true =>
        have hdist' : (l.filterMap handle).Nodup :=
          hdist.sublist (Sublist.filterMap _ (sublist_cons_self d l))
        obtain ⟨i, hfind, hfns, hids⟩ := ih hpairs hdist' hk
        exact ⟨i, by simpa [liveIDs, hd] using hfind, by simpa [live, hd] using hfns,
          by simpa [liveIDs, hd] using hids⟩
      | false =>
        cases hh : d.handle with
        | none =>
          have hfn : d.fn = none := by simpa [hh] using hpair d mem_cons_self
          have hdist' : (l.filterMap handle).Nodup := by simpa [filterMap_cons, hh] using hdist
          obtain ⟨i, hfind, hfns, hids⟩ := ih hpairs hdist' hk
          exact ⟨i, by simpa [liveIDs, hd, hh] using hfind, by simpa [live, hd, hfn] using hfns,
            by simpa [liveIDs, hd, hh] using hids⟩
        | some other =>
          obtain ⟨fn, hfn⟩ : ∃ fn, d.fn = some fn := by
            rw [← isSome_iff_exists, hpair d mem_cons_self, hh]
            rfl
          rw [filterMap_cons, hh] at hdist
          obtain ⟨hout, hdist'⟩ := nodup_cons.mp hdist
          have hne : other ≠ id := fun heq => hout (heq ▸ hmem)
          obtain ⟨i, hfind, hfns, hids⟩ := ih hpairs hdist' hk
          simp only [live, liveIDs] at hfind hfns hids
          exact ⟨i + 1, by simp [liveIDs, hd, hh, findIdx?_cons, hne, hfind],
            by simp [live, hd, hfn, hfns], by simp [liveIDs, hd, hh, hids]⟩

theorem removed_gone (hdist : (l.filterMap handle).Nodup) {id} (hk : l[k]? = some e)
    (hid : e.handle = some id) (hgone : e.removed = true) :
    (liveIDs l).findIdx? (fun gotID => gotID == id) = none := by
  rw [findIdx?_eq_none_iff]
  intro other hother
  obtain ⟨d, hd, hlive⟩ := mem_filterMap.mp hother
  split at hlive
  · cases hlive
  · next hd' =>
    obtain ⟨j, hj⟩ := getElem?_of_mem hd
    have hne : j ≠ k := by
      rintro rfl
      rw [mem_unique hj hk] at hd'
      exact hd' hgone
    -- the two registrations have different identifiers
    have hpw := pairwise_filterMap.mp hdist
    obtain ⟨hjl, hj'⟩ := List.getElem?_eq_some_iff.mp hj
    obtain ⟨hkl, hk'⟩ := List.getElem?_eq_some_iff.mp hk
    rw [beq_eq_false_iff_ne]
    rcases Nat.lt_or_gt_of_ne hne with hlt | hgt
    · exact pairwise_iff_getElem.mp hpw j k hjl hkl hlt other (hj' ▸ hlive) id (hk' ▸ hid)
    · exact (pairwise_iff_getElem.mp hpw k j hkl hjl hgt id (hk' ▸ hid) other (hj' ▸ hlive)).symm

end Registration

/-- The chain is what the calls so far have made of it. -/
structure ChainOk {F : Type} (h : Hooks F) (l : List (Registration F)) : Prop where
  live : h.interceptors = Registration.live l
  ids : h.interceptorIDs = Registration.liveIDs l
  next : h.nextInterceptorID = UInt64.ofNat (Registration.added l)
  pair : ∀ e ∈ l, e.fn.isSome = e.handle.isSome
  handles : l.filterMap Registration.handle =
    (List.range (Registration.added l)).map (fun k => UInt64.ofNat (k + 1))
  few : Registration.added l ≤ UInt64.size

namespace ChainOk

variable {F : Type} {h : Hooks F} {l : List (Registration F)}

theorem nil : ChainOk (Hooks.empty : Hooks F) [] :=
  ⟨rfl, rfl, rfl, nofun, rfl, Nat.zero_le _⟩

theorem distinct (hr : ChainOk h l) : (l.filterMap Registration.handle).Nodup := by
  rw [hr.handles]
  refine Nodup.map_on ?_ nodup_range
  intro i hi j hj heq
  have hi := mem_range.mp hi
  have hj := mem_range.mp hj
  have hfew := hr.few
  have hmod := congrArg UInt64.toNat heq
  simp only [UInt64.toNat_ofNat', UInt64.size] at hmod hfew
  omega

theorem addNil (hr : ChainOk h l) :
    ChainOk h (l ++ [{ fn := none, handle := none, removed := false }]) where
  live := by simpa [Registration.live] using hr.live
  ids := by simpa [Registration.liveIDs] using hr.ids
  next := by simpa [Registration.added] using hr.next
  pair := forall_mem_snoc hr.pair rfl
  handles := by simpa [Registration.added] using hr.handles
  few := by simpa [Registration.added] using hr.few

theorem add (hr : ChainOk h l) (hfew : Registration.added l < UInt64.size) (fn : F) :
    ChainOk (h.add fn)
      (l ++ [{ fn := some fn, handle := some (h.nextInterceptorID + 1), removed := false }]) where
  live := by simp [Hooks.add, Registration.live, hr.live]
  ids := by simp [Hooks.add, Registration.liveIDs, hr.ids]
  next := by
    simp only [Hooks.add, hr.next]
    simp [Registration.added]
  pair := forall_mem_snoc hr.pair rfl
  handles := by
    have hold := hr.handles
    simp [Registration.added, range_succ, hold, hr.next]
  few := by simpa [Registration.added] using Nat.succ_le_of_lt hfew

theorem call (hr : ChainOk h l) {k e} (hk : l[k]? = some e) :
    ChainOk (h.call e.handle) (l.set k { e with removed := true }) := by
  have hadded : Registration.added (l.set k { e with removed := true }) = Registration.added l := by
    have := countP_set_add hk (fun e => e.fn.isSome) { e with removed := true }
    simpa [Registration.added] using this
  have hhandles : (l.set k { e with removed := true }).filterMap Registration.handle =
      l.filterMap Registration.handle := filterMap_set_eq hk rfl
  have hpair : ∀ d ∈ l.set k { e with removed := true }, d.fn.isSome = d.handle.isSome :=
    forall_mem_set hr.pair (hr.pair e (mem_of_getElem? hk))
  suffices hslices : (h.call e.handle).interceptors =
        Registration.live (l.set k { e with removed := true }) ∧
      (h.call e.handle).interceptorIDs =
        Registration.liveIDs (l.set k { e with removed := true }) ∧
      (h.call e.handle).nextInterceptorID = h.nextInterceptorID by
    obtain ⟨hlive, hids, hnext⟩ := hslices
    exact ⟨hlive, hids, by rw [hnext, hr.next, hadded], hpair, by rw [hhandles, hr.handles, hadded],
      hadded ▸ hr.few⟩
  obtain hid | ⟨id, hid⟩ := eq_none_or_eq_some e.handle
  · -- a nil interceptor was never in the chain
    have hfn : e.fn = none := by simpa [hid] using hr.pair e (mem_of_getElem? hk)
    have hcall : h.call e.handle = h := by rw [hid]; rfl
    rw [hcall]
    refine ⟨hr.live.trans ?_, hr.ids.trans ?_, rfl⟩
    · exact (filterMap_set_eq hk (by simp [hfn])).symm
    · exact (filterMap_set_eq hk (by simp [hid])).symm
  · have hcall : h.call e.handle = h.remove id := by rw [hid]; rfl
    rw [hcall]
    unfold Hooks.remove
    cases hrem : e.removed with
    | true =>
      rw [hr.ids, Registration.removed_gone hr.distinct hk hid hrem, ← hrem, set_self hk]
      exact ⟨hr.live, hr.ids, rfl⟩
    | false =>
      obtain ⟨i, hfind, hfns, hids⟩ := Registration.remove_live hr.pair hr.distinct hk hid hrem
      rw [hr.ids, hr.live, hfind]
      exact ⟨hfns, hids, rfl⟩

end ChainOk

/-! ## What an accepted unit went through -/

/-- One reply after the other. -/
inductive Through {F : Type} (returned : List (Reply F)) : List F → AccessUnit → AccessUnit → Prop
  | nil (au : AccessUnit) : Through returned [] au au
  | snoc {chain : List F} {fn : F} {au mid out : AccessUnit} (h : Through returned chain au mid)
      (hcall : { fn := fn, au := mid, out := some out } ∈ returned) :
      Through returned (chain ++ [fn]) au out

theorem Through.mono {F returned chain au out} (h : Through returned chain au out) (x : Reply F) :
    Through (returned ++ [x]) chain au out := by
  induction h with
  | nil au => exact .nil au
  | snoc _ hcall ih => exact .snoc ih (mem_append_left _ hcall)

/-- The `p.1`-th `Publish` stored `p.2`: the output of the chain it read, within the cap. -/
def Passed {F : Type} (max : Int) (published : List (AccessUnit × List F))
    (returned : List (Reply F)) (p : Nat × AccessUnit) : Prop :=
  ∃ input chain, published[p.1]? = some (input, chain) ∧ Through returned chain input p.2 ∧
    (0 < max → (p.2.size : Int) ≤ max)

/-- It has been through those it has called. -/
def InChain {F : Type} (published : List (AccessUnit × List F)) (returned : List (Reply F))
    (x : Running F) : Prop :=
  ∃ input before, published[x.pub]? = some (input, before ++ x.rest) ∧
    Through returned before input x.au

/-- Each `Publish` so far is running, accepted or rejected. -/
structure Verdicts {F : Type} (max : Int) (running : List (Running F))
    (published : List (AccessUnit × List F)) (returned : List (Reply F))
    (accepted : List (Nat × AccessUnit)) (rejected : List Nat) : Prop where
  inChain : ∀ x ∈ running, InChain published returned x
  names : (running.map Running.pub).Nodup
  open_ : ∀ x ∈ running, x.pub < published.length ∧ (∀ p ∈ accepted, p.1 ≠ x.pub) ∧
    x.pub ∉ rejected
  passed : ∀ p ∈ accepted, Passed max published returned p
  known : ∀ p ∈ accepted, p.1 < published.length
  known' : ∀ n ∈ rejected, n < published.length
  disjoint : ∀ p ∈ accepted, p.1 ∉ rejected

namespace Verdicts

variable {F : Type} {max : Int} {running : List (Running F)}
  {published : List (AccessUnit × List F)} {returned : List (Reply F)}
  {accepted : List (Nat × AccessUnit)} {rejected : List Nat}

theorem publish (h : Verdicts max running published returned accepted rejected) (au : AccessUnit)
    (chain : List F) :
    Verdicts max (running ++ [{ pub := published.length, au := au, rest := chain }])
      (published ++ [(au, chain)]) returned accepted rejected where
  inChain := by
    refine forall_mem_snoc (fun x hx => ?_) ⟨au, [], ?_, .nil au⟩
    · obtain ⟨input, before, hpub, hthrough⟩ := h.inChain x hx
      exact ⟨input, before, getElem?_append_some hpub, hthrough⟩
    · exact getElem?_concat_length
  names := by
    rw [map_append, map_singleton]
    refine pairwise_snoc h.names (fun n hn => ?_)
    obtain ⟨x, hx, rfl⟩ := mem_map.mp hn
    exact Nat.ne_of_lt (h.open_ x hx).1
  open_ := by
    refine forall_mem_snoc (fun x hx => ?_) ⟨by simp, ?_, ?_⟩
    · obtain ⟨hlt, hacc, hrej⟩ := h.open_ x hx
      exact ⟨by simp; omega, hacc, hrej⟩
    · intro p hp heq
      exact Nat.ne_of_lt (h.known p hp) heq
    · intro hrej
      exact Nat.lt_irrefl _ (h.known' _ hrej)
  passed := by
    intro p hp
    obtain ⟨input, ch, hpub, hrest⟩ := h.passed p hp
    exact ⟨input, ch, getElem?_append_some hpub, hrest⟩
  known := fun p hp => by have := h.known p hp; simp; omega
  known' := fun n hn => by have := h.known' n hn; simp; omega
  disjoint := h.disjoint

theorem returns (h : Verdicts max running published returned accepted rejected) (x : Reply F) :
    Verdicts max running published (returned ++ [x]) accepted rejected where
  inChain := by
    intro y hy
    obtain ⟨input, before, hpub, hthrough⟩ := h.inChain y hy
    exact ⟨input, before, hpub, hthrough.mono x⟩
  names := h.names
  open_ := h.open_
  passed := by
    intro p hp
    obtain ⟨input, chain, hpub, hthrough, hcap⟩ := h.passed p hp
    exact ⟨input, chain, hpub, hthrough.mono x, hcap⟩
  known := h.known
  known' := h.known'
  disjoint := h.disjoint

variable {i : Nat} {x : Running F}

section

variable (h : Verdicts max running published returned accepted rejected)
include h

theorem pass (hx : running[i]? = some x) {fn : F} {rest} (hrest : x.rest = fn :: rest) {au}
    (hcall : { fn := fn, au := x.au, out := some au } ∈ returned) :
    Verdicts max (running.set i { x with au := au, rest := rest }) published returned accepted
      rejected where
  inChain := by
    refine forall_mem_set h.inChain ?_
    obtain ⟨input, before, hpub, hthrough⟩ := h.inChain x (mem_of_getElem? hx)
    refine ⟨input, before ++ [fn], ?_, hthrough.snoc hcall⟩
    rw [hpub, hrest, append_assoc]
    rfl
  names := by
    rw [map_set_eq hx]
    · exact h.names
    · rfl
  open_ := forall_mem_set h.open_ (h.open_ x (mem_of_getElem? hx))
  passed := h.passed
  known := h.known
  known' := h.known'
  disjoint := h.disjoint

theorem others (hx : running[i]? = some x) :
    ∀ y ∈ running.eraseIdx i, y ∈ running ∧ y.pub ≠ x.pub := fun _ hy =>
  ⟨mem_of_mem_eraseIdx hy, ne_of_mem_eraseIdx h.names hx hy⟩

theorem reject (hx : running[i]? = some x) :
    Verdicts max (running.eraseIdx i) published returned accepted (rejected ++ [x.pub]) where
  inChain := fun y hy => h.inChain y (h.others hx y hy).1
  names := h.names.sublist ((eraseIdx_sublist _ _).map _)
  open_ := by
    intro y hy
    obtain ⟨hmem, hne⟩ := h.others hx y hy
    obtain ⟨hlt, hacc, hrej⟩ := h.open_ y hmem
    exact ⟨hlt, hacc, by simp [hrej, hne]⟩
  passed := h.passed
  known := h.known
  known' := forall_mem_snoc h.known' (h.open_ x (mem_of_getElem? hx)).1
  disjoint := by
    intro p hp
    have hne := (h.open_ x (mem_of_getElem? hx)).2.1 p hp
    simp [h.disjoint p hp, hne]

theorem accept (hx : running[i]? = some x) (hrest : x.rest = [])
    (hcap : 0 < max → (x.au.size : Int) ≤ max) :
    Verdicts max (running.eraseIdx i) published returned (accepted ++ [(x.pub, x.au)])
      rejected where
  inChain := fun y hy => h.inChain y (h.others hx y hy).1
  names := h.names.sublist ((eraseIdx_sublist _ _).map _)
  open_ := by
    intro y hy
    obtain ⟨hmem, hne⟩ := h.others hx y hy
    obtain ⟨hlt, hacc, hrej⟩ := h.open_ y hmem
    exact ⟨hlt, forall_mem_snoc hacc hne.symm, hrej⟩
  passed := by
    refine forall_mem_snoc h.passed ?_
    obtain ⟨input, before, hpub, hthrough⟩ := h.inChain x (mem_of_getElem? hx)
    rw [hrest, append_nil] at hpub
    exact ⟨input, before, hpub, hthrough, hcap⟩
  known := forall_mem_snoc h.known (h.open_ x (mem_of_getElem? hx)).1
  known' := h.known'
  disjoint := forall_mem_snoc h.disjoint (h.open_ x (mem_of_getElem? hx)).2.2

end

end Verdicts

/-! ## The three stores -/

namespace Hub

variable {F : Type}

/-- Only accepted units are stored, or on their way. -/
structure Stores (units : List AccessUnit) (s : Hub F) : Prop where
  records : s.ps.bc.Records units
  flights : ∀ f ∈ s.flights, f.au ∈ units
  replays : ∀ l ∈ s.replays, l ⊆ units
  queues : ∀ r, r < s.ps.fresh → (s.recvAt r).queue ⊆ units

namespace Stores

variable {units : List AccessUnit} {s : Hub F} {r : ReceiverId} {x : Receiver}

section

variable (h : Stores units s)
include h

theorem of_eq {s' : Hub F} (hps : s'.ps = s.ps) (hf : s'.flights = s.flights)
    (hr : s'.replays = s.replays) : Stores units s' where
  records := hps ▸ h.records
  flights := hf ▸ h.flights
  replays := hr ▸ h.replays
  queues := by
    intro r hlt
    unfold recvAt
    rw [hps] at hlt ⊢
    exact h.queues r hlt

theorem setRecv (hx : x.queue ⊆ units) : Stores units (s.setRecv r x) where
  records := h.records
  flights := h.flights
  replays := h.replays
  queues := by
    intro q hq
    show (update s.ps.heap r x q).queue ⊆ units
    by_cases hqr : q = r
    · rw [hqr, update_self]
      exact hx
    · rw [update_of_ne hqr]
      exact h.queues q hq

theorem withFlights {l} (hl : ∀ f ∈ l, f ∈ s.flights ∨ f.au ∈ units) :
    Stores units { s with flights := l } where
  records := h.records
  flights := by
    intro f hf
    rcases hl f hf with hold | hnew
    · exact h.flights f hold
    · exact hnew
  replays := h.replays
  queues := h.queues

theorem move {i f} (hf : s.flights[i]? = some f) (hx : x.queue ⊆ units) {o}
    (ho : ∀ g ∈ o, g.au = f.au) :
    Stores units { s.setRecv r x with flights := Slots.put s.flights i o } := by
  refine (h.setRecv (r := r) hx).withFlights (fun g hg => ?_)
  rcases mem_of_mem_put hg with hold | hnew
  · exact .inl hold
  · right
    rw [ho g hnew]
    exact h.flights f (mem_of_getElem? hf)

theorem enter (au : AccessUnit) (l : List Flight) (hl : ∀ f ∈ l, f ∈ s.flights ∨ f.au = au) :
    Stores (units ++ [au])
      { s with ps := { s.ps with bc := s.ps.bc.publishLocked au }, flights := l } where
  records := (h.records.publishLocked au).1
  flights := by
    intro f hf
    rcases hl f hf with hold | rfl
    · exact mem_append_left _ (h.flights f hold)
    · simp
  replays := fun l hl x hx => mem_append_left _ (h.replays l hl hx)
  queues := fun r hr x hx => mem_append_left _ (h.queues r hr hx)

theorem register {n} (hn : 0 < n) : Stores units (s.register (s.ps.bc.newReceiver n)) where
  records := { h.records with }
  flights := h.flights
  replays := h.replays
  queues := by
    intro q hq
    have hq : q < s.ps.fresh + 1 := hq
    show (update s.ps.heap s.ps.fresh (s.ps.bc.newReceiver n) q).queue ⊆ units
    by_cases hqr : q = s.ps.fresh
    · rw [hqr, update_self, (s.ps.bc.newReceiver_spec hn).1]
      intro au hau
      exact (h.records.cached_mem (mem_toList.mp hau)).1
    · rw [update_of_ne hqr]
      exact h.queues q (Nat.lt_of_le_of_ne (Nat.le_of_lt_succ hq) hqr)

theorem withReceivers (receivers : List ReceiverId) (teardowns : List (List ReceiverId)) :
    Stores units
      { s with
        ps := { s.ps with bc := { s.ps.bc with receivers := receivers } }
        teardowns := teardowns } where
  records := { h.records with }
  flights := h.flights
  replays := h.replays
  queues := h.queues

end

end Stores

/-! ## The invariant -/

def rejects (s : Hub F) : HubLabel F → Option Nat
  | .reply i none => (s.running[i]?).map Running.pub
  | .enter i =>
    match s.running[i]? with
    | some x => if s.ps.bc.oversize x.au then some x.pub else none
    | none => none
  | _ => none

/-- What a subscriber can see has passed the chain. -/
structure Intercepted (s : Hub F) : Prop where
  chain : s.hooks.interceptors = Registration.live s.registered
  queues : ∀ r, r < s.ps.fresh → ∀ au ∈ (s.recvAt r).queue, ∃ p ∈ s.accepted, p.2 = au
  cache : ∀ au ∈ s.ps.bc.latestKeyframe, ∃ p ∈ s.accepted, p.2 = au
  ring : ∀ au ∈ s.ps.bc.replay.snapshot, ∃ p ∈ s.accepted, p.2 = au
  passed : ∀ p ∈ s.accepted, Passed s.ps.bc.maxAUBytes s.published s.returned p
  disjoint : ∀ p ∈ s.accepted, p.1 ∉ s.rejected
  /-- It changes no queue, not the cache and not the ring. -/
  rejected : ∀ l s' n, s.step l = some (.ok s') → s.rejects l = some n →
    s'.ps = s.ps ∧ n ∈ s'.rejected

structure ChainInv (s : Hub F) : Prop where
  safe : s.Safe
  registry : ChainOk s.hooks s.registered
  verdicts : Verdicts s.ps.bc.maxAUBytes s.running s.published s.returned s.accepted s.rejected
  stores : Stores (s.accepted.map Prod.snd) s

theorem rejected_unchanged {s : Hub F} {s' l n} (hstep : s.step l = some (.ok s')) :
    s.rejects l = some n → s'.ps = s.ps ∧ n ∈ s'.rejected := by
  fun_cases s.rejects l <;> intro hrej
  all_goals try cases hrej
  · obtain ⟨x, hx, rfl⟩ := map_eq_some_iff.mp hrej
    simp only [step, hx] at hstep
    split at hstep
    · cases hstep
      exact ⟨rfl, by simp [reply]⟩
    · cases hstep
  · next hx hover =>
    simp only [step, hx] at hstep
    split at hstep
    · cases hstep
      simp [enter, hover]
    · cases hstep

theorem ChainInv.intercepted {s : Hub F} (h : s.ChainInv) : s.Intercepted := by
  have hunit : ∀ au ∈ s.accepted.map Prod.snd, ∃ p ∈ s.accepted, p.2 = au := fun au hau =>
    mem_map.mp hau
  exact
    { chain := h.registry.live
      queues := fun r hr au hau => hunit au (h.stores.queues r hr hau)
      cache := fun au hau => hunit au (h.stores.records.cached_mem hau).1
      ring := fun au hau => hunit au (h.stores.records.window.subset hau)
      passed := h.verdicts.passed
      disjoint := h.verdicts.disjoint
      rejected := fun l s' n hstep hrej => rejected_unchanged hstep hrej }

/-- At most 2^64 interceptors, and `SpliceFront` of results of `ReplaySince`. -/
def orderly (s : Hub F) : HubLabel F → Bool
  | .addInterceptor (some _) => decide (Registration.added s.registered < UInt64.size)
  | .spliceFront _ replay => decide (replay ∈ s.replays)
  | _ => true

namespace ChainInv

variable {s : Hub F}

theorem enter (h : s.ChainInv) {i x} (hx : s.running[i]? = some x) (hrest : x.rest = []) :
    (s.enter i x).ChainInv := by
  have hsafe := h.safe.enter i x
  unfold Hub.enter at hsafe ⊢
  split at hsafe
  · next hover =>
    rw [if_pos hover]
    exact ⟨hsafe, h.registry, h.verdicts.reject hx, h.stores.of_eq rfl rfl rfl⟩
  · next hover =>
    rw [if_neg hover]
    have hcap : 0 < s.ps.bc.maxAUBytes → (x.au.size : Int) ≤ s.ps.bc.maxAUBytes := by
      intro hpos
      simp only [Broadcaster.oversize, decide_eq_true_eq, not_and] at hover
      exact Int.not_lt.mp (hover hpos)
    refine ⟨hsafe, h.registry, h.verdicts.accept hx hrest hcap, ?_⟩
    have hstores := h.stores.enter x.au (s.flights ++ (Flight.settle
        { au := x.au
          selfContained := s.ps.bc.selfContained
          pending := s.ps.bc.receivers
          current := none }).toList) (by
      intro f hf
      rcases mem_append.mp hf with hold | hnew
      · exact .inl hold
      · right
        rw [Flight.eq_of_settle (mem_toList.mp hnew)])
    simp only [map_append, map_singleton]
    exact hstores.of_eq rfl rfl rfl

theorem reply (h : s.ChainInv) {i x} {fn : F} {rest} (hx : s.running[i]? = some x)
    (hrest : x.rest = fn :: rest) (out : Option AccessUnit) (hsafe : (s.reply i x fn rest out).Safe) :
    (s.reply i x fn rest out).ChainInv := by
  have hback := h.verdicts.returns { fn := fn, au := x.au, out := out }
  cases out with
  | none =>
    exact ⟨hsafe, h.registry, hback.reject hx, h.stores.of_eq rfl rfl rfl⟩
  | some au =>
    exact ⟨hsafe, h.registry, hback.pass hx hrest (by simp), h.stores.of_eq rfl rfl rfl⟩

/-- **The step lemma.** -/
theorem effect (h : s.ChainInv) {l s'} (hok : s.orderly l = true) (he : Effect s l s') :
    s'.ChainInv := by
  have hsafe := h.safe.effect he
  have hstores := h.stores
  cases he with
  | addInterceptor fn =>
    cases fn with
    | none =>
      exact ⟨hsafe, h.registry.addNil, h.verdicts, hstores.of_eq rfl rfl rfl⟩
    | some fn =>
      have hfew : Registration.added s.registered < UInt64.size := of_decide_eq_true hok
      exact ⟨hsafe, h.registry.add hfew fn, h.verdicts, hstores.of_eq rfl rfl rfl⟩
  | remove hk =>
    exact ⟨hsafe, h.registry.call hk, h.verdicts, hstores.of_eq rfl rfl rfl⟩
  | publish au =>
    have hverdicts := h.verdicts.publish au (Registration.live s.registered)
    rw [← h.registry.live] at hverdicts
    refine ⟨hsafe, h.registry, ?_, hstores.of_eq rfl rfl rfl⟩
    simp only [Hub.publish, ← h.registry.live]
    exact hverdicts
  | reply out hx hrest => exact h.reply hx hrest out hsafe
  | enter hx hrest => exact h.enter hx hrest
  | @fanout i f r hf hcur hr hlock =>
    have hlt := h.safe.pending f (mem_of_getElem? hf) r hr
    have hau := hstores.flights f (mem_of_getElem? hf)
    refine ⟨hsafe, h.registry, h.verdicts, hstores.move hf (fun au hin => ?_) (fun g hg => ?_)⟩
    · rcases Receiver.mem_fanoutTry hin with hold | rfl
      · exact hstores.queues r hlt hold
      · exact hau
    · rw [Flight.eq_of_settle hg]
  | @evict i f r hf hcur =>
    have hlt := (h.safe.current f (mem_of_getElem? hf) _ hcur).1
    refine ⟨hsafe, h.registry, h.verdicts, ?_⟩
    refine hstores.move (x := (s.recvAt r).fanoutEvict)
      (o := some { f with current := some (r, .resend) }) hf (fun au hin => ?_) (fun g hg => ?_)
    · exact hstores.queues r hlt (mem_of_mem_tail hin)
    · rw [← some.inj hg]
  | @resend i f r hf hcur =>
    have hlt := (h.safe.current f (mem_of_getElem? hf) _ hcur).1
    have hau := hstores.flights f (mem_of_getElem? hf)
    refine ⟨hsafe, h.registry, h.verdicts, hstores.move hf (fun au hin => ?_) (fun g hg => ?_)⟩
    · rcases Receiver.mem_fanoutResend hin with hold | rfl
      · exact hstores.queues r hlt hold
      · exact hau
    · rw [Flight.eq_of_settle hg]
  | subscribe want =>
    exact ⟨hsafe, h.registry, h.verdicts, hstores.register (s.depth_pos want)⟩
  | unsubscribe r =>
    unfold Hub.unsubscribe at hsafe ⊢
    split
    · exact ⟨by simpa [*] using hsafe, h.registry, h.verdicts, hstores.withReceivers _ _⟩
    · exact h
  | close => exact ⟨hsafe, h.registry, h.verdicts, hstores.withReceivers _ _⟩
  | @closeRecv i t r ht hr hlock =>
    have hlt := h.safe.teardown t (mem_of_getElem? ht) r hr
    have hnext := hstores.setRecv (r := r) (x := (s.recvAt r).close)
      (by rw [Receiver.close_queue]; exact hstores.queues r hlt)
    exact ⟨hsafe, h.registry, h.verdicts, hnext.of_eq rfl rfl rfl⟩
  | @requestKeyframe r hr _ =>
    exact ⟨hsafe, h.registry, h.verdicts, hstores.setRecv (hstores.queues r hr)⟩
  | replaySince fromSeq =>
    refine ⟨hsafe, h.registry, h.verdicts, hstores.records, hstores.flights, ?_, hstores.queues⟩
    intro l hl
    rcases mem_append.mp hl with hold | hnew
    · exact hstores.replays l hold
    · exact hstores.records.replaySince_subset (mem_toList.mp hnew)
  | @spliceFront r replay hr _ =>
    have hrep : replay ∈ s.replays := of_decide_eq_true hok
    refine ⟨hsafe, h.registry, h.verdicts, hstores.setRecv (fun au hin => ?_)⟩
    rcases Receiver.mem_spliceFront (h.safe.recv r hr).cap hin with hnew | hold
    · exact hstores.replays replay hrep hnew
    · exact hstores.queues r hr hold
  | @read r au x hr hrecv =>
    refine ⟨hsafe, h.registry, h.verdicts, hstores.setRecv (fun y hy => hstores.queues r hr ?_)⟩
    rw [(Receiver.recv_some hrecv).1]
    exact mem_cons_of_mem au hy

end ChainInv

def orderlyRun : Except ChanFault (Hub F) → HubLabel F → Bool
  | .ok s, l => s.orderly l
  | .error _, _ => true

end Hub

/-! ## Every run -/

def trackBroadcaster (chanSize maxAUBytes replayMaxBytes : Int) (selfContained : Bool) :
    Broadcaster :=
  ((newBroadcasterWithBytes chanSize maxAUBytes).setSelfContained selfContained).setReplayMaxBytes
    replayMaxBytes

/-- **Everything a subscriber can see went through the chain.** -/
theorem stored_units_intercepted (F : Type) (chanSize maxAUBytes replayMaxBytes : Int)
    (selfContained : Bool) :
    ∀ x, Reachable
        ((hubSystem F (trackBroadcaster chanSize maxAUBytes replayMaxBytes selfContained)).restrict
          (fun x l => Hub.orderlyRun x l = true)) x →
      ∃ s, x = .ok s ∧ s.Intercepted := by
  intro x hx
  obtain ⟨s, rfl, hinv⟩ : ∃ s : Hub F, x = .ok s ∧ s.ChainInv := by
    have hrec := Broadcaster.records_nil chanSize maxAUBytes replayMaxBytes selfContained
    refine invariant_restrict (fun x => ∃ s : Hub F, x = .ok s ∧ s.ChainInv) ?_ ?_ x hx
    · exact ⟨_, rfl, Hub.safe_start _, ChainOk.nil,
        ⟨nofun, nodup_nil, nofun, nofun, nofun, nofun, nofun⟩,
        { hrec with }, nofun, nofun, fun r hr => absurd hr (Nat.not_lt_zero r)⟩
    rintro _ l x' - ⟨s, rfl, h⟩ hok hstep
    obtain ⟨s', rfl, heff⟩ := Hub.step_effect h.safe hstep
    exact ⟨s', rfl, h.effect hok heff⟩
  exact ⟨s, rfl, hinv.intercepted⟩

/-- The first of two interceptors is removed twice while a `Publish` goes through both. -/
def interceptRun : List (HubLabel Nat) :=
  [.addInterceptor (some 7), .addInterceptor none, .addInterceptor (some 8), .subscribe none,
   .publish (.bare true 1), .remove 0, .remove 0, .publish (.bare true 2),
   .reply 0 (some (.bare true 10)), .reply 0 (some (.bare true 11)), .enter 0, .fanout 0 0,
   .reply 0 none]

def interceptEnd (x : Except ChanFault (Hub Nat)) : Bool :=
  x.toOption.any (fun s => decide (s.published.map Prod.snd = [[7, 8], [8]]) &&
    decide ((s.recvAt 0).queue = [.bare true 11]) && decide (s.rejected = [1]))

theorem stored_units_intercepted_twice :
    ∃ x, Reachable ((hubSystem Nat (trackBroadcaster 1 0 0 false)).restrict
        (fun x l => Hub.orderlyRun x l = true)) x ∧ interceptEnd x = true ∧
      ∃ s, x = .ok s ∧ s.Intercepted :=
  exists_run_given_imp interceptRun (fun x hx (hp : interceptEnd x = true) =>
    ⟨hp, stored_units_intercepted Nat 1 0 0 false x hx⟩) (by decide +kernel)

/-! ## Reused handles -/

/-- After `n` interceptors came and went beside the first. -/
structure Cycled (n : Nat) (s : Hub Bool) : Prop where
  fns : s.hooks.interceptors = [true]
  ids : s.hooks.interceptorIDs = [1]
  next : s.hooks.nextInterceptorID = UInt64.ofNat (n + 1)
  live : Registration.live s.registered = [true]
  clean : s.running = [] ∧ s.published = []

def comeAndGo (s : Hub Bool) : Hub Bool :=
  (s.addInterceptor (some false)).callRemove s.registered.length
    { fn := some false, handle := some (s.hooks.nextInterceptorID + 1), removed := false }

theorem comeAndGo_reachable {bc s} (hs : Reachable (hubSystem Bool bc) (.ok s)) :
    Reachable (hubSystem Bool bc) (.ok (comeAndGo s)) := by
  have hadd : Reachable (hubSystem Bool bc) (.ok (s.addInterceptor (some false))) :=
    hs.step (.addInterceptor (some false)) rfl
  refine hadd.step (.remove s.registered.length) ?_
  exact congrArg (Option.map _) List.getElem?_concat_length

theorem live_comeAndGo (s : Hub Bool) :
    Registration.live (comeAndGo s).registered = Registration.live s.registered := by
  simp [comeAndGo, Hub.callRemove, Hub.addInterceptor, Registration.live]

theorem Cycled.again {n} (hn : n + 1 < UInt64.size) {s} (h : Cycled n s) :
    Cycled (n + 1) (comeAndGo s) := by
  -- its identifier is not that of the first
  have hid : s.hooks.nextInterceptorID ≠ 0 := by
    intro heq
    have := congrArg UInt64.toNat (h.next.symm.trans heq)
    simp only [UInt64.toNat_ofNat', UInt64.toNat_zero, UInt64.size] at this hn
    omega
  have hhooks : (comeAndGo s).hooks =
      { interceptors := [true], interceptorIDs := [1],
        nextInterceptorID := s.hooks.nextInterceptorID + 1 } := by
    simp [comeAndGo, Hub.callRemove, Hub.addInterceptor, Hooks.call, Hooks.remove, Hooks.add,
      h.fns, h.ids, findIdx?_cons, hid]
  exact ⟨by rw [hhooks], by rw [hhooks], by rw [hhooks, h.next]; simp,
    (live_comeAndGo s).trans h.live, h.clean⟩

theorem cycled_reachable (bc : Broadcaster) (n : Nat) (hn : n < UInt64.size) :
    ∃ s, Reachable (hubSystem Bool bc) (.ok s) ∧ Cycled n s := by
  induction n with
  | zero =>
    have hstart : Reachable (hubSystem Bool bc) (.ok (Hub.start bc)) := .init rfl
    refine ⟨(Hub.start bc).addInterceptor (some true),
      hstart.step (.addInterceptor (some true)) rfl, ?_⟩
    exact ⟨rfl, rfl, rfl, rfl, rfl, rfl⟩
  | succ n ih =>
    obtain ⟨s, hs, h⟩ := ih (by omega)
    exact ⟨comeAndGo s, comeAndGo_reachable hs, h.again hn⟩

/-- The identifier of the first is given out again, and removing the second holder takes the
    first out of the chain. -/
theorem reused_handle :
    ∃ s : Hub Bool, Reachable (hubSystem Bool (trackBroadcaster 1 0 0 false)) (.ok s) ∧
      s.running.map Running.rest = [[false]] ∧ s.published.map Prod.snd = [[true]] := by
  obtain ⟨s, hs, h⟩ := cycled_reachable (trackBroadcaster 1 0 0 false) (UInt64.size - 1)
    (by simp [UInt64.size])
  have hnext : s.hooks.nextInterceptorID = 0 := by
    rw [h.next]
    rfl
  refine ⟨(comeAndGo s).publish (.bare true 1),
    (comeAndGo_reachable hs).step (.publish (.bare true 1)) rfl, ?_, ?_⟩
  · -- the search for the identifier 1 finds the first interceptor
    have hfns : (comeAndGo s).hooks.interceptors = [false] := by
      simp [comeAndGo, Hub.callRemove, Hub.addInterceptor, Hooks.call, Hooks.remove, Hooks.add,
        h.fns, h.ids, hnext, findIdx?_cons]
    have hrun : (comeAndGo s).running = [] := h.clean.1
    simp [Hub.publish, hrun, hfns]
  · have hpub : (comeAndGo s).published = [] := h.clean.2
    simp [Hub.publish, hpub, live_comeAndGo, h.live]

end QuicRTC

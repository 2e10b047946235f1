import QuicRTC.Framework.CheckedChan
import QuicRTC.Pubsub.Fan

/-! # The Broadcaster under Concurrent Use

All operations on one broadcaster, by any number of goroutines, at the granularity of its locks.
`Publish` is a read of the interceptor chain, the calls of what it read, a `b.mu` section, and an
`r.mu` section per receiver of its snapshot. Consumers read without a lock.

A step returns the next state or the fault of the channel operation that went wrong. What an
interceptor returns is chosen by the environment.
-/

namespace QuicRTC

/-! ## The sections of a receiver -/

namespace Receiver

/-- First `select`. -/
def fanoutTryChecked (selfContained : Bool) (au : AccessUnit) (r : Receiver) :
    Except ChanFault (Receiver × Bool) :=
  -- Unsubscribe ran between the snapshot and now.
  if r.closed then .ok (r, false)
  else if selfContained then do
    match ← r.ch.selectSend au with
    | some ch => .ok ({ r with ch := ch }, false)
    | none => .ok (r, true)
  else if r.needKeyframe && !au.keyframe then .ok (r, false)
  else do
    match ← r.ch.selectSend au with
    | some ch =>
      .ok ({ r with
        ch := ch
        needKeyframe := if au.keyframe then false else r.needKeyframe }, false)
    | none =>
      if au.keyframe then .ok (r, true)
      else .ok ({ r with needKeyframe := true }, false)

/-- Third `select`. -/
def fanoutResendChecked (selfContained : Bool) (au : AccessUnit) (r : Receiver) :
    Except ChanFault Receiver := do
  match ← r.ch.selectSend au with
  | some ch =>
    if selfContained then .ok { r with ch := ch }
    else .ok { r with ch := ch, needKeyframe := false }
  | none =>
    if selfContained then .ok r else .ok { r with needKeyframe := true }

def spliceFrontChecked (r : Receiver) (replay : List AccessUnit) : Except ChanFault Receiver :=
  if replay.isEmpty then .ok r
  else if r.closed then .ok r
  else do
    let (current, ch) ← r.ch.drain
    match ← ch.selectFill (mergeBySeq replay current) with
    | (ch, true) => .ok { r with ch := ch }
    | (ch, false) => .ok { r with ch := ch, needKeyframe := true }

/-- The `r.mu` section of `Unsubscribe` and `Close`. -/
def closeChecked (r : Receiver) : Except ChanFault Receiver :=
  if r.closed then .ok r
  else do
    let ch ← r.ch.closeOnce
    .ok { r with closed := true, ch := ch }

end Receiver

/-- With the plain send of the cached keyframe. -/
def Broadcaster.newReceiverChecked (b : Broadcaster) (chanSize : Nat) : Except ChanFault Receiver :=
  let r : Receiver := { ch := Chan.make chanSize, closed := false, needKeyframe := false }
  match b.latestKeyframe with
  | some k => do
    let ch ← r.ch.send k
    .ok { r with ch := ch }
  | none => if b.selfContained then .ok r else .ok { r with needKeyframe := true }

/-- Of the unit as the chain left it; 0 means no cap. -/
def Broadcaster.oversize (b : Broadcaster) (au : AccessUnit) : Bool :=
  decide (0 < b.maxAUBytes ∧ b.maxAUBytes < au.size)

/-! ## The interceptor chain -/

structure Hooks (F : Type) where
  interceptors : List F
  interceptorIDs : List UInt64
  nextInterceptorID : UInt64

namespace Hooks

variable {F : Type}

def empty : Hooks F where
  interceptors := []
  interceptorIDs := []
  nextInterceptorID := 0

def add (h : Hooks F) (fn : F) : Hooks F where
  interceptors := h.interceptors ++ [fn]
  interceptorIDs := h.interceptorIDs ++ [h.nextInterceptorID + 1]
  nextInterceptorID := h.nextInterceptorID + 1

def remove (h : Hooks F) (id : UInt64) : Hooks F :=
  match h.interceptorIDs.findIdx? (fun gotID => gotID == id) with
  | some i =>
    { h with
      interceptors := h.interceptors.eraseIdx i
      interceptorIDs := h.interceptorIDs.eraseIdx i }
  | none => h

/-- For a nil interceptor nothing. -/
def call (h : Hooks F) : Option UInt64 → Hooks F
  | some id => h.remove id
  | none => h

end Hooks

def Broadcaster.hooks (b : Broadcaster) : Hooks Interceptor where
  interceptors := b.interceptors
  interceptorIDs := b.interceptorIDs
  nextInterceptorID := b.nextInterceptorID

theorem Broadcaster.hooks_addInterceptor (b : Broadcaster) (fn : Interceptor) :
    (b.addInterceptor (some fn)).1.hooks = b.hooks.add fn := rfl

theorem Broadcaster.hooks_removeInterceptor (b : Broadcaster) (id : UInt64) :
    (b.removeInterceptor id).hooks = b.hooks.remove id := by
  have hids : b.hooks.interceptorIDs = b.interceptorIDs := rfl
  unfold removeInterceptor Hooks.remove
  rw [hids]
  cases b.interceptorIDs.findIdx? (fun gotID => gotID == id) <;> rfl

/-! ## State -/

/-- The remove function captured `handle`; `none` for a nil function. -/
structure Registration (F : Type) where
  fn : Option F
  handle : Option UInt64
  removed : Bool

/-- In the order added. -/
def Registration.live {F : Type} (l : List (Registration F)) : List F :=
  l.filterMap (fun e => if e.removed then none else e.fn)

/-- Its number, the unit as it is now, and what is still to be called. -/
structure Running (F : Type) where
  pub : Nat
  au : AccessUnit
  rest : List F

/-- `none` is an error. -/
structure Reply (F : Type) where
  fn : F
  au : AccessUnit
  out : Option AccessUnit

/-- `flights` are past their `b.mu` section, `teardowns` are receivers removed but not
    closed, `replays` the results of `ReplaySince`. The fields from `registered` on are
    history, the handles apart. The chain is in `hooks`, not in `ps.bc`. -/
structure Hub (F : Type) where
  ps : PubSub
  hooks : Hooks F
  running : List (Running F)
  flights : List Flight
  teardowns : List (List ReceiverId)
  replays : List (List AccessUnit)
  registered : List (Registration F)
  published : List (AccessUnit × List F)
  returned : List (Reply F)
  accepted : List (Nat × AccessUnit)
  rejected : List Nat

inductive HubLabel (F : Type) where
  /-- `none` is a nil function. -/
  | addInterceptor (fn : Option F)
  /-- The remove function of the `k`-th `AddInterceptor`. -/
  | remove (k : Nat)
  /-- `Publish` reads the chain. -/
  | publish (au : AccessUnit)
  /-- The next interceptor of a `Publish` returns. -/
  | reply (i : Nat) (out : Option AccessUnit)
  /-- Size cap and `b.mu` section of a `Publish`. -/
  | enter (i : Nat)
  /-- The three `select`s of a receiver's section. -/
  | fanout (i : Nat) (r : ReceiverId)
  | evict (i : Nat)
  | resend (i : Nat)
  /-- `none` is `Subscribe`. -/
  | subscribe (want : Option Nat)
  /-- The `b.mu` sections of `Unsubscribe` and `Close`. -/
  | unsubscribe (r : ReceiverId)
  | close
  /-- An `r.mu` section of one of them. -/
  | closeRecv (i : Nat) (r : ReceiverId)
  | requestKeyframe (r : ReceiverId)
  | replaySince (fromSeq : UInt32)
  | spliceFront (r : ReceiverId) (replay : List AccessUnit)
  /-- The consumer reads `Frames()`. -/
  | read (r : ReceiverId)

namespace Hub

variable {F : Type}

def start (bc : Broadcaster) : Hub F where
  ps := PubSub.new bc
  hooks := Hooks.empty
  running := []
  flights := []
  teardowns := []
  replays := []
  registered := []
  published := []
  returned := []
  accepted := []
  rejected := []

def recvAt (s : Hub F) (r : ReceiverId) : Receiver := s.ps.heap r

def setRecv (s : Hub F) (r : ReceiverId) (x : Receiver) : Hub F :=
  { s with ps := { s.ps with heap := Function.update s.ps.heap r x } }

/-- By a flight. -/
def locked (s : Hub F) (r : ReceiverId) : Bool :=
  s.flights.any (fun f => f.current.any (fun c => c.1 == r))

/-! ## Steps -/

def addInterceptor (s : Hub F) : Option F → Hub F
  | none =>
    { s with registered := s.registered ++ [{ fn := none, handle := none, removed := false }] }
  | some fn =>
    { s with
      hooks := s.hooks.add fn
      registered := s.registered ++
        [{ fn := some fn, handle := some (s.hooks.nextInterceptorID + 1), removed := false }] }

def callRemove (s : Hub F) (k : Nat) (e : Registration F) : Hub F :=
  { s with
    hooks := s.hooks.call e.handle
    registered := s.registered.set k { e with removed := true } }

def publish (s : Hub F) (au : AccessUnit) : Hub F :=
  { s with
    running := s.running ++
      [{ pub := s.published.length, au := au, rest := s.hooks.interceptors }]
    published := s.published ++ [(au, Registration.live s.registered)] }

def reply (s : Hub F) (i : Nat) (x : Running F) (fn : F) (rest : List F) :
    Option AccessUnit → Hub F
  | some au =>
    { s with
      running := s.running.set i { x with au := au, rest := rest }
      returned := s.returned ++ [{ fn := fn, au := x.au, out := some au }] }
  -- ErrDropAU or any other error: drop silently.
  | none =>
    { s with
      running := s.running.eraseIdx i
      returned := s.returned ++ [{ fn := fn, au := x.au, out := none }]
      rejected := s.rejected ++ [x.pub] }

def enter (s : Hub F) (i : Nat) (x : Running F) : Hub F :=
  if s.ps.bc.oversize x.au then
    { s with running := s.running.eraseIdx i, rejected := s.rejected ++ [x.pub] }
  else
    { s with
      ps := { s.ps with bc := s.ps.bc.publishLocked x.au }
      running := s.running.eraseIdx i
      flights := s.flights ++ (Flight.settle
        { au := x.au
          selfContained := s.ps.bc.selfContained
          pending := s.ps.bc.receivers
          current := none }).toList
      accepted := s.accepted ++ [(x.pub, x.au)] }

def afterTry (s : Hub F) (i : Nat) (f : Flight) (r : ReceiverId) (res : Receiver × Bool) : Hub F :=
  { s.setRecv r res.1 with
    flights := Slots.put s.flights i (Flight.settle
      { f with
        pending := f.pending.filter (· ≠ r)
        current := if res.2 then some (r, .evict) else none }) }

def evict (s : Hub F) (i : Nat) (f : Flight) (r : ReceiverId) : Hub F :=
  { s.setRecv r (s.recvAt r).fanoutEvict with
    flights := s.flights.set i { f with current := some (r, .resend) } }

def afterResend (s : Hub F) (i : Nat) (f : Flight) (r : ReceiverId) (x : Receiver) : Hub F :=
  { s.setRecv r x with flights := Slots.put s.flights i (Flight.settle { f with current := none }) }

def depth (s : Hub F) : Option Nat → Nat
  | none => s.ps.bc.chanSize
  | some want => s.ps.bc.capacityFor want

def register (s : Hub F) (x : Receiver) : Hub F :=
  { s with
    ps :=
      { bc := { s.ps.bc with receivers := s.ps.bc.receivers ++ [s.ps.fresh] }
        heap := Function.update s.ps.heap s.ps.fresh x
        fresh := s.ps.fresh + 1 } }

def unsubscribe (s : Hub F) (r : ReceiverId) : Hub F :=
  if r ∈ s.ps.bc.receivers then
    { s with
      ps := { s.ps with
        bc := { s.ps.bc with receivers := s.ps.bc.receivers.filter (· ≠ r) } }
      teardowns := s.teardowns ++ [[r]] }
  else s

def close (s : Hub F) : Hub F :=
  { s with
    ps := { s.ps with bc := { s.ps.bc with receivers := [] } }
    teardowns := s.teardowns ++ [s.ps.bc.receivers] }

def afterClose (s : Hub F) (i : Nat) (t : List ReceiverId) (r : ReceiverId) (x : Receiver) : Hub F :=
  { s.setRecv r x with teardowns := s.teardowns.set i (t.filter (· ≠ r)) }

def keepReplay (s : Hub F) (fromSeq : UInt32) : Hub F :=
  { s with replays := s.replays ++ (s.ps.bc.replaySince fromSeq).toList }

/-- `none` if the label is not enabled. -/
def step (s : Hub F) : HubLabel F → Option (Except ChanFault (Hub F))
  | .addInterceptor fn => some (.ok (s.addInterceptor fn))
  | .remove k => (s.registered[k]?).map (fun e => .ok (s.callRemove k e))
  | .publish au => some (.ok (s.publish au))
  | .reply i out =>
    match s.running[i]? with
    | some x =>
      match x.rest with
      | fn :: rest => some (.ok (s.reply i x fn rest out))
      | [] => none
    | none => none
  | .enter i =>
    match s.running[i]? with
    | some x => if x.rest.isEmpty then some (.ok (s.enter i x)) else none
    | none => none
  | .fanout i r =>
    match s.flights[i]? with
    | some f =>
      if f.current = none ∧ r ∈ f.pending ∧ s.locked r = false then
        some (((s.recvAt r).fanoutTryChecked f.selfContained f.au).map (s.afterTry i f r))
      else none
    | none => none
  | .evict i =>
    match s.flights[i]? with
    | some f =>
      match f.current with
      | some (r, .evict) => some (.ok (s.evict i f r))
      | _ => none
    | none => none
  | .resend i =>
    match s.flights[i]? with
    | some f =>
      match f.current with
      | some (r, .resend) =>
        some (((s.recvAt r).fanoutResendChecked f.selfContained f.au).map (s.afterResend i f r))
      | _ => none
    | none => none
  | .subscribe want => some ((s.ps.bc.newReceiverChecked (s.depth want)).map s.register)
  | .unsubscribe r => some (.ok (s.unsubscribe r))
  | .close => some (.ok s.close)
  | .closeRecv i r =>
    match s.teardowns[i]? with
    | some t =>
      if r ∈ t ∧ s.locked r = false then
        some ((s.recvAt r).closeChecked.map (s.afterClose i t r))
      else none
    | none => none
  | .requestKeyframe r =>
    if r < s.ps.fresh ∧ s.locked r = false then
      some (.ok (s.setRecv r (s.recvAt r).requestKeyframe))
    else none
  | .replaySince fromSeq => some (.ok (s.keepReplay fromSeq))
  | .spliceFront r replay =>
    if r < s.ps.fresh ∧ s.locked r = false then
      some (((s.recvAt r).spliceFrontChecked replay).map (s.setRecv r))
    else none
  | .read r =>
    if r < s.ps.fresh then (s.recvAt r).recv.map (fun y => .ok (s.setRecv r y.2)) else none

end Hub

end QuicRTC

import QuicRTC.Feed.Senders
import QuicRTC.Client.TrackView

/-! # A Track from the Pump to the Client

One track of a connection: the pump of the server, the client, and in between the frames that are
complete on some stream. A drain reads its own stream in order and knows nothing of the others. It
may stop at any time, as it does when the stream was reset.
-/

namespace QuicRTC

open Wire Client List Option

/-! ## The link -/

def StreamConfig.track (cfg : StreamConfig) : GoString := streamTrack cfg.1.trackName

/-- `log` has the complete frames with their streams. `sources` has for each drain its
    stream and how far it has read; `none` is a stream of another track. -/
structure Link where
  pump : StreamPump
  log : List (Nat × AccessUnit)
  sources : List (Option (Nat × Nat))

inductive LinkLabel where
  | pump (l : SendLabel)
  | accept (k : Nat)
  /-- Drain `i` decodes the frame at place `j` of the log. -/
  | decode (i j : Nat) (now : WallClock)
  | client (st : Client.Step)
deriving DecidableEq

namespace Link

def start (cfg : StreamConfig) : Link := ⟨.start cfg, [], []⟩

def unaccepted (x : Link) (k : Nat) : Bool := x.sources.all (fun s => decide (s.map Prod.fst ≠ some k))

/-- The unit at place `j`, if that is the next frame on the stream of
    drain `i`. -/
def upNext (x : Link) (i j : Nat) : Option AccessUnit :=
  match x.sources[i]?, x.log[j]? with
  | some (some (k, p)), some (k', au) =>
    if k' = k ∧ p ≤ j ∧ ∀ e ∈ (x.log.take j).drop p, e.1 ≠ k then some au else none
  | _, _ => none

def read (x : Link) (i j : Nat) : Link :=
  { x with sources := x.sources.modify i (Option.map (fun s => (s.1, j + 1))) }

def admits (cfg : StreamConfig) (x : Link) : Client.Step → Bool
  | .stream header => decide (streamTrack header ≠ cfg.track)
  | .decode i _ => decide (x.sources[i]? = some none)
  | _ => true

/-- A stream of another track is accepted. -/
def foreign (x : Link) : Client.Step → Link
  | .stream _ => { x with sources := x.sources ++ [none] }
  | _ => x

def next (cfg : StreamConfig) (x : Link) : LinkLabel → Option (Link × Option Client.Step)
  | .pump l =>
    (x.pump.next cfg.named l).map (fun p =>
      ({ x with pump := p, log := x.log ++ (x.pump.completes l).toList }, none))
  | .accept k =>
    if k < x.pump.opened ∧ x.unaccepted k then
      some ({ x with sources := x.sources ++ [some (k, 0)] }, some (.stream cfg.1.trackName))
    else none
  | .decode i j now =>
    (x.upNext i j).map (fun au => (x.read i j, some (.decode i (cfg.frame now au))))
  | .client st => if x.admits cfg st then some (x.foreign st, some st) else none

end Link

def Client.after (c : Client) : Option Client.Step → Option Client
  | none => some c
  | some st => Client.next c st

structure Connection where
  link : Link
  client : Client

namespace Connection

def start (cfg : StreamConfig) : Connection := ⟨.start cfg, .start⟩

def next (cfg : StreamConfig) (s : Connection) (l : LinkLabel) : Option Connection :=
  match s.link.next cfg l with
  | some (x, st) => (s.client.after st).map (fun c => ⟨x, c⟩)
  | none => none

def connectionSystem (cfg : StreamConfig) : LTS.System Connection LinkLabel :=
  LTS.ofFun (start cfg) (next cfg)

def view (cfg : StreamConfig) (s : Connection) : TrackView := s.client.view cfg.track

theorem next_eq_some {cfg s s' l} (h : next cfg s l = some s') :
    ∃ st, s.link.next cfg l = some (s'.link, st) ∧ s.client.after st = some s'.client := by
  simp only [next] at h
  split at h
  · next x st hlink =>
    obtain ⟨c, hc, rfl⟩ := map_eq_some_iff.mp h
    exact ⟨st, hlink, hc⟩
  · cases h

end Connection

/-! ## Drains and streams -/

structure Aligned (cfg : StreamConfig) (x : Link) (c : Client) : Prop where
  length : c.drains.length = x.sources.length
  track : ∀ (i : Nat) (d : FeedDrain) (n : GoString), c.drains[i]? = some d → d.track = some n →
             (n = cfg.track ↔ ∃ s, x.sources[i]? = some (some s))

namespace Aligned

variable {cfg : StreamConfig} {x : Link} {c c' : Client}

theorem init (cfg : StreamConfig) : Aligned cfg (.start cfg) .start :=
  ⟨rfl, nofun⟩

theorem kept (h : Aligned cfg x c) (hkept : DrainsKept c c') : Aligned cfg x c' := by
  refine ⟨hkept.1.trans h.length, fun i d n hd hn => ?_⟩
  obtain ⟨d₀, hd₀, htrack⟩ := hkept.2 i d hd
  exact h.track i d₀ n hd₀ (htrack n hn)

theorem stream (h : Aligned cfg x c) {header source}
    (hsource : streamTrack header = cfg.track ↔ ∃ s, source = some s) :
    Aligned cfg { x with sources := x.sources ++ [source] }
      { c with drains := c.drains ++ [.opened (streamTrack header)] } := by
  refine ⟨by simp [h.length], fun i d n hd hn => ?_⟩
  by_cases hlt : i < c.drains.length
  · have hd' : c.drains[i]? = some d := (getElem?_append_left hlt).symm.trans hd
    rw [getElem?_append_left (h.length ▸ hlt)]
    exact h.track i d n hd' hn
  · have hi : i = c.drains.length := by
      have hlt' := Slots.lt_of_getElem? hd
      rw [length_append, length_singleton] at hlt'
      omega
    subst hi
    have hd' : some (FeedDrain.opened (streamTrack header)) = some d :=
      getElem?_concat_length.symm.trans hd
    rw [← some.inj hd'] at hn
    rw [← some.inj hn, h.length, getElem?_concat_length, hsource]
    simp

theorem read (h : Aligned cfg x c) (i j : Nat) : Aligned cfg (x.read i j) c := by
  refine ⟨h.length.trans (length_modify _ _ _).symm, fun m d n hd hn => ?_⟩
  rw [h.track m d n hd hn]
  show _ ↔ ∃ s, (x.sources.modify i (Option.map (fun s => (s.1, j + 1))))[m]? = some (some s)
  rw [getElem?_modify]
  split
  · obtain hnone | ⟨source, hsome⟩ := eq_none_or_eq_some x.sources[m]?
    · simp [hnone]
    · cases source <;> simp [hsome]
  · simp

end Aligned

/-! ## What a label does -/

/-- What a label does to the link and to the client's view of the track. -/
inductive LinkStep (cfg : StreamConfig) (slot : Option (Option RecvError)) (x : Link) (v : TrackView) :
    LinkLabel → Link → TrackView → Prop where
  | pump {l p} : LinkStep cfg slot x v (.pump l)
      { x with pump := p, log := x.log ++ (x.pump.completes l).toList } v
  | accept {k} : LinkStep cfg slot x v (.accept k)
      { x with sources := x.sources ++ [some (k, 0)] } { v with drains := v.drains ++ [some .opened] }
  | decode {i j now k p au} (source : x.sources[i]? = some (some (k, p)))
      (frame : x.log[j]? = some (k, au)) (after : p ≤ j)
      (get : v.drains[i]? = some (some .reading)) :
      LinkStep cfg slot x v (.decode i j now) (x.read i j)
        (v.setDrain i (some (.holding (feedUnit (cfg.frame now au)))))
  | foreignStream {header} : LinkStep cfg slot x v (.client (.stream header))
      { x with sources := x.sources ++ [none] } { v with drains := v.drains ++ [none] }
  | foreignDecode {i f} : LinkStep cfg slot x v (.client (.decode i f)) x v
  | client {st v'} (quiet : accepts st = false) (undecoded : ∀ i f, st ≠ .decode i f)
      (step : TrackStep cfg.track slot v st v') : LinkStep cfg slot x v (.client st) x v'

def keepsLabel (cfg : StreamConfig) : LinkLabel → Bool
  | .client st => keepsTrack cfg.track st
  | _ => true

theorem upNext_eq_some {x : Link} {i j au} (h : x.upNext i j = some au) :
    ∃ k p, x.sources[i]? = some (some (k, p)) ∧ x.log[j]? = some (k, au) ∧ p ≤ j := by
  unfold Link.upNext at h
  split at h
  · next k p k' au' hsource hlog =>
    obtain ⟨⟨hk, hle, -⟩, hau⟩ := ite_none_right_eq_some.mp h
    refine ⟨k, p, hsource, ?_, hle⟩
    rw [hlog, hk, some.inj hau]
  · cases h

section Step

variable {cfg : StreamConfig} {x x' : Link} {c c' : Client}

theorem linkStep_decode (ha : Aligned cfg x c) {i j now au} (hup : x.upNext i j = some au)
    (hnext : Client.next c (.decode i (cfg.frame now au)) = some c') :
    LinkStep cfg c.feedErr x (c.view cfg.track) (.decode i j now) (x.read i j) (c'.view cfg.track) := by
  obtain ⟨k, p, hsource, hlog, hle⟩ := upNext_eq_some hup
  simp only [Client.next] at hnext
  split at hnext
  · next track q hget =>
    -- a drain with a source is one of the track
    obtain rfl : track = cfg.track := (ha.track i _ track hget rfl).mpr ⟨_, hsource⟩
    cases hnext
    rw [view_decode_own]
    refine .decode hsource hlog hle ((view_drain hget).trans ?_)
    rw [viewDrain, if_pos rfl]
  · cases hnext

theorem linkStep_foreignDecode (ha : Aligned cfg x c) {i f} (hsource : x.sources[i]? = some none)
    (hnext : Client.next c (.decode i f) = some c') :
    LinkStep cfg c.feedErr x (c.view cfg.track) (.client (.decode i f)) x (c'.view cfg.track) := by
  simp only [Client.next] at hnext
  split at hnext
  · next track q hget =>
    have hne : track ≠ cfg.track := by
      intro heq
      obtain ⟨s, hs⟩ := (ha.track i _ track hget rfl).mp heq
      rw [hsource] at hs
      cases hs
    cases hnext
    rw [view_decode_other hne hget]
    exact .foreignDecode
  · cases hnext

theorem linkStep_accept {header k} (hown : streamTrack header = cfg.track) {slot v v'}
    (h : TrackStep cfg.track slot v (.stream header) v') :
    LinkStep cfg slot x v (.accept k) { x with sources := x.sources ++ [some (k, 0)] } v' := by
  cases h with
  | same hquiet => cases hquiet
  | opened => exact .accept
  | foreignStream hother => exact absurd hown hother
  | moved hquiet => cases hquiet
  | nilError hquiet => cases hquiet

theorem linkStep_foreignStream {header} (hother : streamTrack header ≠ cfg.track) {slot v v'}
    (h : TrackStep cfg.track slot v (.stream header) v') :
    LinkStep cfg slot x v (.client (.stream header)) { x with sources := x.sources ++ [none] } v' := by
  cases h with
  | same hquiet => cases hquiet
  | opened hown => exact absurd hown hother
  | foreignStream => exact .foreignStream
  | moved hquiet => cases hquiet
  | nilError hquiet => cases hquiet

theorem linkStep_of_next (hs : Single cfg.track c) (ha : Aligned cfg x c) {l st}
    (hkeeps : keepsLabel cfg l = true) (hlink : x.next cfg l = some (x', st))
    (hclient : c.after st = some c') :
    LinkStep cfg c.feedErr x (c.view cfg.track) l x' (c'.view cfg.track) ∧
      Single cfg.track c' ∧ Aligned cfg x' c' := by
  cases l with
  | pump l =>
    obtain ⟨p, -, heq⟩ := map_eq_some_iff.mp hlink
    obtain ⟨rfl, rfl⟩ := Prod.mk.inj heq
    cases hclient
    exact ⟨.pump, hs, ha.length, ha.track⟩
  | accept k =>
    obtain ⟨-, heq⟩ := ite_none_right_eq_some.mp hlink
    cases heq
    have hnext : Client.next c (.stream cfg.1.trackName) = some c' := hclient
    refine ⟨linkStep_accept rfl (trackStep_of_next hs rfl hnext), hs.step rfl (effect_of_next hnext), ?_⟩
    cases hnext
    exact ha.stream (iff_of_true rfl ⟨_, rfl⟩)
  | decode i j now =>
    obtain ⟨au, hup, heq⟩ := map_eq_some_iff.mp hlink
    obtain ⟨rfl, rfl⟩ := Prod.mk.inj heq
    have hnext : Client.next c (.decode i (cfg.frame now au)) = some c' := hclient
    exact ⟨linkStep_decode ha hup hnext, hs.step rfl (effect_of_next hnext),
      (ha.kept (drainsKept_of_next rfl hnext)).read i j⟩
  | client st' =>
    obtain ⟨hadmits, heq⟩ := ite_none_right_eq_some.mp hlink
    cases heq
    have hnext : Client.next c st' = some c' := hclient
    have hstep := trackStep_of_next hs hkeeps hnext
    have hs' := hs.step hkeeps (effect_of_next hnext)
    cases st' with
    | stream header =>
      have hne : streamTrack header ≠ cfg.track := of_decide_eq_true hadmits
      refine ⟨linkStep_foreignStream hne hstep, hs', ?_⟩
      cases hnext
      exact ha.stream (iff_of_false hne (fun ⟨_, hs⟩ => by cases hs))
    | decode i f =>
      exact ⟨linkStep_foreignDecode ha (of_decide_eq_true hadmits) hnext, hs',
        ha.kept (drainsKept_of_next rfl hnext)⟩
    | _ =>
      exact ⟨.client rfl (fun _ _ => Client.Step.noConfusion) hstep, hs',
        ha.kept (drainsKept_of_next rfl hnext)⟩

end Step

end QuicRTC

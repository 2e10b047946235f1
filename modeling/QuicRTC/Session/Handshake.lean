import QuicRTC.Session.Session

/-! # The Handshake

`Session.handshake` and the start of `Session.Run` (`session/session.go`). If the HELLO passes, the
session gets its receivers from the server through callbacks, attaches them, and answers with the
SDP. The callbacks act on an environment `σ`, which is the server for the sessions it starts. Other
goroutines can be placed between the parts of the handshake.
-/

namespace QuicRTC

open Wire Option

/-! ## Surroundings -/

/-- Each may be nil. -/
structure Callbacks (σ : Type) where
  onAllocateID : Option (σ → GoString × σ)
  onResume : Option (GoString → GoString → GoMap UInt32 → σ → Option (GoMap ReceiverId) × σ)
  onFreshSession : Option (σ → GoMap ReceiverId × σ)
  onLookupPriority : Option (σ → GoString → UInt8)
  onLookupTrackID : Option (σ → GoString → UInt8)
  onLookupKind : Option (σ → GoString → Kind)

/-- Whether the read deadline can be set, the first frame (`none` if reading it fails), and
    whether the ERROR frame and the SDP are accepted. -/
structure ControlIO where
  deadlineSet : Bool
  read : Option (UInt8 × List UInt8)
  errorAccepted : Bool
  sdpAccepted : Bool

inductive HandshakeError where
  | setReadDeadline
  | readHello
  | firstFrameType (t : UInt8)
  | helloJSON
  | version (clientMin clientMax : GoString)
  | auth
  | role (role : GoString)
  | marshalSDP
  | writeSDP
  deriving DecidableEq

def HandshakeError.text : HandshakeError → Option GoString
  | .firstFrameType _ => some (str "expected HELLO")
  | .helloJSON => some (str "bad hello json")
  | .version _ _ => some (str "version")
  | .auth => some (str "auth")
  | .role _ => some (str "bad role")
  | .setReadDeadline => none
  | .readHello => none
  | .marshalSDP => none
  | .writeSDP => none

namespace Session

/-! ## Checking the HELLO -/

/-- A missing bound is the single version field; a client that sends none is taken to speak
    the current one. -/
def clientRange (hello : Hello) : GoString × GoString :=
  let clientMin := if hello.minVersion = [] then hello.version else hello.minVersion
  let clientMax := if hello.maxVersion = [] then hello.version else hello.maxVersion
  if clientMin = [] ∧ clientMax = [] then (currentVersion, currentVersion)
  else (clientMin, clientMax)

def negotiate (hello : Hello) : Option GoString :=
  negotiateVersion (clientRange hello).1 (clientRange hello).2 minSupportedVersion currentVersion

/-- `none` if it is refused. Without a validator the slug has to match, and the tenant stays
    as it is. -/
def authenticate (s : Session) (slug : GoString) : Option GoString :=
  match s.cfg.authValidator with
  | some validate => validate slug
  | none => if slug = s.cfg.expectSlug then some s.tenant else none

/-- What the client asked for is kept. -/
def checkRole (s : Session) (hello : Hello) : Session × Except HandshakeError Hello :=
  -- An empty role counts as `recv`.
  if hello.role ≠ [] ∧ hello.role ≠ str "recv" then (s, .error (.role hello.role))
  else
    ({ s with
        helloSessionID := hello.sessionID
        helloLastSeenSeq := hello.lastSeenSeq }, .ok hello)

def checkCredential (s : Session) (hello : Hello) : Session × Except HandshakeError Hello :=
  match s.authenticate hello.slug with
  | none => (s, .error .auth)
  -- The tenant is set before the role is looked at.
  | some tenant => checkRole { s with tenant := tenant } hello

def checkVersion (s : Session) (hello : Hello) : Session × Except HandshakeError Hello :=
  match negotiate hello with
  | none => (s, .error (.version (clientRange hello).1 (clientRange hello).2))
  -- The version is kept even if a later check fails.
  | some negotiated => checkCredential { s with negotiatedVersion := negotiated } hello

/-- Type and JSON, then the contents. -/
def checkHello (codec : Codec) (s : Session) (t : UInt8) (payload : List UInt8) :
    Session × Except HandshakeError Hello :=
  if t ≠ typeHello then (s, .error (.firstFrameType t))
  else
    match codec.unmarshalHello payload with
    | none => (s, .error .helloJSON)
    | some hello => s.checkVersion hello

def receiveHello (codec : Codec) (io : ControlIO) (s : Session) :
    Session × Except HandshakeError Hello :=
  if !io.deadlineSet then (s, .error .setReadDeadline)
  else
    match io.read with
    | none => (s, .error .readHello)
    | some (t, payload) => s.checkHello codec t payload

def bestEffortError (s : Session) (accepted : Bool) (err : HandshakeError) : Session :=
  match err.text with
  | some msg => (s.write accepted typeError msg).1
  | none => s

theorem bestEffortError_frame (s : Session) (accepted : Bool) (err : HandshakeError) :
    ∃ c, s.bestEffortError accepted err = { s with control := c } := by
  unfold bestEffortError
  split
  · exact s.write_frame accepted typeError _
  · exact ⟨_, rfl⟩

/-! ## Attaching the tracks -/

section Attach

variable {σ : Type}

/-- From which callback. -/
inductive Acquired where
  | resumed (receivers : GoMap ReceiverId)
  | fresh (receivers : GoMap ReceiverId)

def Acquired.receivers : Acquired → GoMap ReceiverId
  | .resumed receivers => receivers
  | .fresh receivers => receivers

/-- Up to the receivers. The tracks with a cursor may start on a P-frame. -/
def tryResume (cb : Callbacks σ) (hello : Hello) (s : Session) (env : σ) :
    Option (Session × GoMap ReceiverId) × σ :=
  if hello.sessionID = [] then (none, env)
  else
    match cb.onResume with
    | none => (none, env)
    | some onResume =>
      match onResume s.tenant hello.sessionID hello.lastSeenSeq env with
      -- Unknown or expired: the handshake goes on as a fresh one.
      | (none, env) => (none, env)
      | (some receivers, env) =>
        (some ({ s with
            sessionID := hello.sessionID
            -- Only a client that sent cursors may start on a P-frame.
            resumedLeading := if 0 < hello.lastSeenSeq.keys.length then hello.lastSeenSeq.keys
                              else s.resumedLeading }, receivers), env)

def allocateID (cb : Callbacks σ) (s : Session) (env : σ) : Session × σ :=
  match cb.onAllocateID with
  | none => (s, env)
  | some allocate => ({ s with sessionID := (allocate env).1 }, (allocate env).2)

def freshReceivers (cb : Callbacks σ) (env : σ) : GoMap ReceiverId × σ :=
  match cb.onFreshSession with
  | none => (∅, env)
  | some onFreshSession => onFreshSession env

def acquire (cb : Callbacks σ) (hello : Hello) (s : Session) (env : σ) : Session × Acquired × σ :=
  match s.tryResume cb hello env with
  | (some (s, receivers), env) => (s, .resumed receivers, env)
  -- The client's own identifier is not reused.
  | (none, env) =>
    let (s, env) := s.allocateID cb env
    let (receivers, env) := freshReceivers cb env
    (s, .fresh receivers, env)

def attachResumed (cb : Callbacks σ) (env : σ) (s : Session) (name : GoString) (r : ReceiverId) :
    Session :=
  s.attachTrack (cb.onLookupKind.map (fun lookup => lookup env)) name r

def attachFresh (cb : Callbacks σ) (env : σ) (s : Session) (name : GoString) (r : ReceiverId) :
    Session :=
  let priority := match cb.onLookupPriority with
    | some lookup => lookup env name
    | none => 4
  let trackID := match cb.onLookupTrackID with
    | some lookup => lookup env name
    | none => 0
  let kind := match cb.onLookupKind with
    | some lookup => lookup env name
    | none => .unset
  s.attachTrackWithKind name kind r priority trackID

def attachAcquired (cb : Callbacks σ) (env : σ) (s : Session) : Acquired → Session
  | .resumed receivers => receivers.fold (attachResumed cb env) s
  | .fresh receivers => receivers.fold (attachFresh cb env) s

end Attach

/-! ## The answer -/

def offerSDP (hello : Hello) (s : Session) : Session × SDP :=
  let features := intersectFeatures hello.features s.cfg.supportedFeatures
  ({ s with negotiatedFeatures := features },
   { s.cfg.sdp with
      sessionID := s.sessionID
      features := features
      negotiatedVersion := s.negotiatedVersion })

def writeSDP (codec : Codec) (accepted : Bool) (s : Session) (sdp : SDP) :
    Session × Except HandshakeError Unit :=
  match codec.marshalSDP sdp with
  | none => (s, .error .marshalSDP)
  | some body =>
    ((s.write accepted typeSDP body).1,
     if (s.write accepted typeSDP body).2 then .ok () else .error .writeSDP)

/-- With nothing running beside it. -/
def handshake {σ : Type} (codec : Codec) (cb : Callbacks σ) (io : ControlIO) (s : Session) (env : σ) :
    Session × σ × Except HandshakeError Unit :=
  match s.receiveHello codec io with
  -- Nothing is attached for a client that is refused.
  | (s, .error err) => (s.bestEffortError io.errorAccepted err, env, .error err)
  | (s, .ok hello) =>
    let (s, acquired, env) := s.acquire cb hello env
    let s := s.attachAcquired cb env acquired
    let (s, sdp) := s.offerSDP hello
    let (s, result) := s.writeSDP codec io.sdpAccepted sdp
    (s, env, result)

/-- The start section of `Run`. -/
def startPumps (s : Session) : Session :=
  { s with
    runStarted := true
    pumps := s.pumps ++ s.tracks.entries.map (fun e => e.2) }

/-- Up to its start section. -/
def run {σ : Type} (codec : Codec) (cb : Callbacks σ) (io : ControlIO) (s : Session) (env : σ) :
    Session × σ × Except HandshakeError Unit :=
  match s.handshake codec cb io env with
  | (s, env, .ok ()) => (s.startPumps, env, .ok ())
  | (s, env, .error err) => (s, env, .error err)

/-! ## Who passes -/

def Accepts (cfg : SessionConfig) (slug : GoString) : Prop :=
  match cfg.authValidator with
  | some validate => (validate slug).isSome = true
  | none => slug = cfg.expectSlug

/-- The first frame is a HELLO that decodes to `hello`, which passes every check. -/
structure Admissible (codec : Codec) (cfg : SessionConfig) (io : ControlIO) (hello : Hello) :
    Prop where
  frame : ∃ payload, io.read = some (typeHello, payload) ∧
                 codec.unmarshalHello payload = some hello
  version : (negotiate hello).isSome = true
  credential : Accepts cfg hello.slug
  role : hello.role = [] ∨ hello.role = str "recv"

theorem authenticate_isSome_iff (s : Session) (slug : GoString) :
    (s.authenticate slug).isSome = true ↔ Accepts s.cfg slug := by
  unfold authenticate Accepts
  cases s.cfg.authValidator with
  | some validate => rfl
  | none => simp

theorem receiveHello_frame (codec : Codec) (io : ControlIO) (s : Session) :
    ∃ version tenant id lastSeen, (s.receiveHello codec io).1 =
      { s with
        negotiatedVersion := version
        tenant := tenant
        helloSessionID := id
        helloLastSeenSeq := lastSeen } := by
  unfold receiveHello checkHello checkVersion checkCredential checkRole
  repeat' split
  all_goals exact ⟨_, _, _, _, rfl⟩

theorem checkRole_ok_iff (s : Session) (hello hello' : Hello) :
    (s.checkRole hello).2 = .ok hello' ↔
      (hello.role = [] ∨ hello.role = str "recv") ∧ hello' = hello := by
  unfold checkRole
  split
  · next h =>
    refine iff_of_false nofun ?_
    rintro ⟨hrole, -⟩
    exact hrole.elim h.1 h.2
  · next h =>
    refine ⟨fun hok => ⟨?_, (Except.ok.inj hok).symm⟩, fun hok => congrArg _ hok.2.symm⟩
    by_cases hnil : hello.role = []
    · exact .inl hnil
    · exact .inr (not_not.mp fun hne => h ⟨hnil, hne⟩)

theorem checkCredential_ok_iff (s : Session) (hello hello' : Hello) :
    (s.checkCredential hello).2 = .ok hello' ↔
      Accepts s.cfg hello.slug ∧ (hello.role = [] ∨ hello.role = str "recv") ∧ hello' = hello := by
  rw [← authenticate_isSome_iff]
  unfold checkCredential
  cases s.authenticate hello.slug with
  | none => simp
  | some tenant => simp [checkRole_ok_iff]

theorem checkVersion_ok_iff (s : Session) (hello hello' : Hello) :
    (s.checkVersion hello).2 = .ok hello' ↔
      (negotiate hello).isSome = true ∧ Accepts s.cfg hello.slug ∧
        (hello.role = [] ∨ hello.role = str "recv") ∧ hello' = hello := by
  unfold checkVersion
  cases negotiate hello with
  | none => simp
  | some negotiated => simp [checkCredential_ok_iff]

theorem checkHello_ok_iff (codec : Codec) (s : Session) (t : UInt8) (payload : List UInt8)
    (hello : Hello) :
    (s.checkHello codec t payload).2 = .ok hello ↔
      t = typeHello ∧ codec.unmarshalHello payload = some hello ∧
        (negotiate hello).isSome = true ∧ Accepts s.cfg hello.slug ∧
        (hello.role = [] ∨ hello.role = str "recv") := by
  unfold checkHello
  by_cases ht : t = typeHello
  · rw [if_neg (not_not.mpr ht)]
    cases codec.unmarshalHello payload with
    | none => simp
    | some hello' =>
      simp only [checkVersion_ok_iff, ht, true_and, some.injEq]
      constructor
      · rintro ⟨hver, hcred, hrole, rfl⟩
        exact ⟨rfl, hver, hcred, hrole⟩
      · rintro ⟨rfl, hver, hcred, hrole⟩
        exact ⟨hver, hcred, hrole, rfl⟩
  · simp [ht]

theorem receiveHello_ok_iff (codec : Codec) (io : ControlIO) (s : Session) (hello : Hello) :
    (s.receiveHello codec io).2 = .ok hello ↔
      io.deadlineSet = true ∧ Admissible codec s.cfg io hello := by
  unfold receiveHello
  cases io.deadlineSet with
  | false => simp
  | true =>
    simp only [Bool.not_true, Bool.false_eq_true, if_false, true_and]
    cases hread : io.read with
    | none =>
      refine iff_of_false nofun ?_
      rintro ⟨⟨payload, hp, -⟩, -, -, -⟩
      rw [hread] at hp
      cases hp
    | some first =>
      rw [checkHello_ok_iff]
      constructor
      · rintro ⟨ht, hjson, hver, hcred, hrole⟩
        exact ⟨⟨first.2, by rw [hread, ← ht], hjson⟩, hver, hcred, hrole⟩
      · rintro ⟨⟨payload, hp, hjson⟩, hver, hcred, hrole⟩
        obtain rfl : first = (typeHello, payload) := mem_unique hread hp
        exact ⟨rfl, hjson, hver, hcred, hrole⟩

theorem handshake_of_error {σ codec} (cb : Callbacks σ) {io} {s : Session} (env : σ) {err}
    (h : (s.receiveHello codec io).2 = .error err) :
    ∃ s', s.handshake codec cb io env = (s', env, .error err) ∧ s'.cfg = s.cfg ∧
      s'.sessionID = s.sessionID ∧ s'.tracks = s.tracks ∧ s'.pumps = s.pumps := by
  obtain ⟨version, tenant, id, lastSeen, hs⟩ := receiveHello_frame codec io s
  cases hrec : s.receiveHello codec io with
  | mk s₁ verdict =>
    rw [hrec] at h hs
    subst h
    refine ⟨s₁.bestEffortError io.errorAccepted err, ?_, ?_⟩
    · simp only [handshake, hrec]
    · obtain ⟨c, hc⟩ := bestEffortError_frame s₁ io.errorAccepted err
      simp only at hs
      rw [hc, hs]
      exact ⟨rfl, rfl, rfl, rfl⟩

/-! ## What gets attached -/

theorem checkCredential_session {s : Session} {hello hello'}
    (h : (s.checkCredential hello).2 = .ok hello') :
    ∃ tenant, s.authenticate hello.slug = some tenant ∧
      (s.checkCredential hello).1 =
        { s with
          tenant := tenant
          helloSessionID := hello.sessionID
          helloLastSeenSeq := hello.lastSeenSeq } := by
  have hrole := ((checkCredential_ok_iff s hello hello').mp h).2.1
  unfold checkCredential at h ⊢
  cases hauth : s.authenticate hello.slug with
  | none =>
    rw [hauth] at h
    cases h
  | some tenant =>
    refine ⟨tenant, rfl, ?_⟩
    have hpass : ¬ (hello.role ≠ [] ∧ hello.role ≠ str "recv") := fun hno => hrole.elim hno.1 hno.2
    simp only [checkRole, if_neg hpass]

theorem receiveHello_session {codec io} {s : Session} {hello}
    (h : (s.receiveHello codec io).2 = .ok hello) :
    ∃ version tenant, negotiate hello = some version ∧ s.authenticate hello.slug = some tenant ∧
      (s.receiveHello codec io).1 =
        { s with
          negotiatedVersion := version
          tenant := tenant
          helloSessionID := hello.sessionID
          helloLastSeenSeq := hello.lastSeenSeq } := by
  obtain ⟨hdl, ⟨payload, hread, hjson⟩, hver, -, -⟩ := (receiveHello_ok_iff codec io s hello).mp h
  obtain ⟨version, hneg⟩ := isSome_iff_exists.mp hver
  have hfirst : s.receiveHello codec io = s.checkHello codec typeHello payload := by
    simp only [receiveHello, hdl, hread, Bool.not_true, Bool.false_eq_true, if_false]
  have hjson' : s.checkHello codec typeHello payload = s.checkVersion hello := by
    simp only [checkHello, ne_eq, not_true_eq_false, if_false, hjson]
  have hversion : s.checkVersion hello =
      checkCredential { s with negotiatedVersion := version } hello := by
    unfold checkVersion
    rw [hneg]
  rw [hfirst, hjson', hversion] at h ⊢
  obtain ⟨tenant, hauth, hs⟩ := checkCredential_session h
  refine ⟨version, tenant, hneg, ?_, hs⟩
  simpa only [authenticate] using hauth

theorem attachAll_cfg (s : Session) (kind : GoString → Kind) (priority trackID : GoString → UInt8)
    (receivers : GoMap ReceiverId) : (s.attachAll kind priority trackID receivers).cfg = s.cfg := by
  unfold attachAll GoMap.fold
  induction receivers.entries generalizing s with
  | nil => rfl
  | cons e l ih => rw [List.foldl_cons, ih, attachTrackWithKind_cfg]

section Attached

variable {σ : Type} (codec : Codec) (cb : Callbacks σ) (io : ControlIO) (s : Session) (env : σ)

def lookupKind (cb : Callbacks σ) (env : σ) (name : GoString) : Kind :=
  match cb.onLookupKind with
  | some lookup => lookup env name
  | none => .unset

/-- A resumed receiver gets the default. -/
def attachPriority (cb : Callbacks σ) (env : σ) : Acquired → GoString → UInt8
  | .resumed _, _ => 4
  | .fresh _, name =>
    match cb.onLookupPriority with
    | some lookup => lookup env name
    | none => 4

def attachTrackID (cb : Callbacks σ) (env : σ) : Acquired → GoString → UInt8
  | .resumed _, _ => 0
  | .fresh _, name =>
    match cb.onLookupTrackID with
    | some lookup => lookup env name
    | none => 0

theorem attachAcquired_eq (acquired : Acquired) :
    s.attachAcquired cb env acquired =
      s.attachAll (lookupKind cb env) (attachPriority cb env acquired)
        (attachTrackID cb env acquired) acquired.receivers := by
  cases acquired with
  | fresh receivers => rfl
  | resumed receivers =>
    have hbody : attachResumed cb env = fun s name r =>
        s.attachTrackWithKind name (lookupKind cb env name) r 4 0 := by
      funext s name r
      simp only [attachResumed, attachTrack, attachTrackWithPriority, attachTrackWithTrackID,
        lookupKind]
      cases cb.onLookupKind <;> rfl
    simp only [attachAcquired, hbody]
    rfl

theorem writeSDP_frame (accepted : Bool) (sdp : SDP) :
    ∃ c, (s.writeSDP codec accepted sdp).1 = { s with control := c } := by
  unfold writeSDP
  split
  · exact ⟨_, rfl⟩
  · exact s.write_frame accepted typeSDP _

variable {acquired : Acquired} {hello : Hello} {s₂ : Session} {env' : σ}

theorem acquire_resumed {receivers} (h : s.tryResume cb hello env = (some (s₂, receivers), env')) :
    s.acquire cb hello env = (s₂, .resumed receivers, env') := by
  simp only [acquire, h]

theorem acquire_fresh (h : s.tryResume cb hello env = (none, env')) :
    s.acquire cb hello env =
      ((s.allocateID cb env').1, .fresh (freshReceivers cb (s.allocateID cb env').2).1,
        (freshReceivers cb (s.allocateID cb env').2).2) := by
  simp only [acquire, h]

theorem tryResume_of_found (hid : hello.sessionID ≠ [])
    {onResume : GoString → GoString → GoMap UInt32 → σ → Option (GoMap ReceiverId) × σ}
    (hcb : cb.onResume = some onResume) {receivers}
    (hres : onResume s.tenant hello.sessionID hello.lastSeenSeq env = (some receivers, env')) :
    ∃ s₂, s.tryResume cb hello env = (some (s₂, receivers), env') := by
  simp only [tryResume, if_neg hid, hcb, hres, Prod.mk.injEq, some.injEq, and_true,
    exists_eq']

theorem tryResume_frame {resumed} :
    s.tryResume cb hello env = (some resumed, env') →
      ∃ id leading, resumed.1 = { s with sessionID := id, resumedLeading := leading } := by
  fun_cases s.tryResume cb hello env <;> intro h <;> cases h
  exact ⟨_, _, rfl⟩

theorem tryResume_identity {resumed} :
    s.tryResume cb hello env = (some resumed, env') →
      resumed.1.identity = (s.tenant, hello.sessionID) := by
  fun_cases s.tryResume cb hello env <;> intro h <;> cases h
  rfl

theorem acquire_frame (hello : Hello) :
    ∃ id leading, (s.acquire cb hello env).1 =
      { s with sessionID := id, resumedLeading := leading } := by
  cases htry : s.tryResume cb hello env with
  | mk found env' =>
    cases found with
    | some resumed =>
      rw [acquire_resumed cb s env htry]
      exact tryResume_frame cb s env htry
    | none =>
      rw [acquire_fresh cb s env htry]
      unfold allocateID
      split <;> exact ⟨_, _, rfl⟩

section Acquired

variable (h : (s.receiveHello codec io).2 = .ok hello)
  (hacq : (s.receiveHello codec io).1.acquire cb hello env = (s₂, acquired, env'))
include h hacq

theorem handshake_of_acquire :
    ∃ c, (s.handshake codec cb io env).1 =
        { ((s₂.attachAcquired cb env' acquired).offerSDP hello).1 with control := c } ∧
      (s.handshake codec cb io env).2.1 = env' := by
  cases hrec : s.receiveHello codec io with
  | mk s₁ verdict =>
    obtain rfl : verdict = .ok hello := by rw [hrec] at h; exact h
    rw [hrec] at hacq
    obtain ⟨c, hc⟩ := writeSDP_frame codec ((s₂.attachAcquired cb env' acquired).offerSDP hello).1
      io.sdpAccepted ((s₂.attachAcquired cb env' acquired).offerSDP hello).2
    exact ⟨c, by rw [← hc]; simp only [handshake, hrec, hacq], by simp only [handshake, hrec, hacq]⟩

theorem handshake_attachment :
    (s.handshake codec cb io env).2.1 = env' ∧ (s.handshake codec cb io env).1.cfg = s.cfg ∧
      (s.handshake codec cb io env).1.negotiatedFeatures =
        intersectFeatures hello.features s.cfg.supportedFeatures ∧
      s₂.cfg = s.cfg ∧ s₂.negotiatedFeatures = s.negotiatedFeatures ∧
      ∀ n, (s.handshake codec cb io env).1.attachment n =
        (s.attachment n <|> (acquired.receivers.lookup n).map (fun r =>
          (r, s₂.pumpConfig n (lookupKind cb env' n) (attachPriority cb env' acquired n)
            (attachTrackID cb env' acquired n)))) := by
  obtain ⟨version, tenant, -, -, hs₁⟩ := receiveHello_session h
  obtain ⟨id, leading, hs₂⟩ := acquire_frame cb (s.receiveHello codec io).1 env hello
  rw [hacq, hs₁] at hs₂
  simp only at hs₂
  obtain ⟨c, hsess, henv⟩ := handshake_of_acquire codec cb io s env h hacq
  rw [attachAcquired_eq] at hsess
  refine ⟨henv, ?_, ?_, by rw [hs₂], by rw [hs₂], ?_⟩
  · rw [hsess]
    simp only [offerSDP, attachAll_cfg, hs₂]
  · rw [hsess]
    simp only [offerSDP, attachAll_cfg, hs₂]
  · intro n
    have htracks : (s.handshake codec cb io env).1.attachment n =
        (s₂.attachAll (lookupKind cb env') (attachPriority cb env' acquired)
          (attachTrackID cb env' acquired) acquired.receivers).attachment n := by
      rw [hsess]
      rfl
    rw [htracks, attachAll_attachment]
    have hold : s₂.attachment n = s.attachment n := by
      rw [hs₂]
      rfl
    rw [hold]

theorem run_identity : (s.run codec cb io env).1.identity = s₂.identity := by
  obtain ⟨c, hsess, -⟩ := handshake_of_acquire codec cb io s env h hacq
  have hhand : (s.handshake codec cb io env).1.identity = s₂.identity := by
    rw [hsess, attachAcquired_eq]
    exact attachAll_identity ..
  rw [← hhand]
  unfold run
  split
  · next heq => rw [heq]; rfl
  · next heq => rw [heq]

end Acquired

theorem run_frame :
    (s.run codec cb io env).2.1 = (s.handshake codec cb io env).2.1 ∧
      (s.run codec cb io env).1.cfg = (s.handshake codec cb io env).1.cfg ∧
      (s.run codec cb io env).1.negotiatedFeatures =
        (s.handshake codec cb io env).1.negotiatedFeatures ∧
      ∀ n, (s.run codec cb io env).1.attachment n =
        (s.handshake codec cb io env).1.attachment n := by
  unfold run
  split
  · next heq => rw [heq]; exact ⟨rfl, rfl, rfl, fun _ => rfl⟩
  · next heq => rw [heq]; exact ⟨rfl, rfl, rfl, fun _ => rfl⟩

/-! ## A session that started -/

def Advertised (codec : Codec) (s : Session) : Prop :=
  ∃ sdp body, codec.marshalSDP sdp = some body ∧ ⟨typeSDP, body⟩ ∈ s.control ∧
    sdp.features = s.negotiatedFeatures

theorem attachAll_runStarted (s : Session) (kind : GoString → Kind)
    (priority trackID : GoString → UInt8) (receivers : GoMap ReceiverId) :
    (s.attachAll kind priority trackID receivers).runStarted = s.runStarted := by
  refine GoMap.fold_induction (P := fun s' : Session => s'.runStarted = s.runStarted) rfl ?_
  exact fun s' name r hs' => ((s'.extends_attach name _ r _ _).started).trans hs'

theorem handshake_runStarted : (s.handshake codec cb io env).1.runStarted = s.runStarted := by
  cases hrec : (s.receiveHello codec io).2 with
  | error err =>
    obtain ⟨version, tenant, id, lastSeen, hs⟩ := receiveHello_frame codec io s
    have hsplit : s.receiveHello codec io = ((s.receiveHello codec io).1, .error err) := by
      rw [← hrec]
    obtain ⟨c, hc⟩ := bestEffortError_frame (s.receiveHello codec io).1 io.errorAccepted err
    unfold handshake
    rw [hsplit]
    simp only
    rw [hc, hs]
  | ok hello =>
    obtain ⟨version, tenant, -, -, hs₁⟩ := receiveHello_session hrec
    obtain ⟨id, leading, hs₂⟩ := acquire_frame cb (s.receiveHello codec io).1 env hello
    obtain ⟨⟨s₂, acquired, env'⟩, hacq⟩ :
        ∃ x, (s.receiveHello codec io).1.acquire cb hello env = x := ⟨_, rfl⟩
    obtain ⟨c, hsess, -⟩ := handshake_of_acquire codec cb io s env hrec hacq
    rw [hsess, attachAcquired_eq]
    show (s₂.attachAll _ _ _ _).runStarted = s.runStarted
    rw [attachAll_runStarted]
    rw [hacq, hs₁] at hs₂
    simp only at hs₂
    rw [hs₂]

theorem writeSDP_ok {accepted sdp} (h : (s.writeSDP codec accepted sdp).2 = .ok ()) :
    ∃ body, codec.marshalSDP sdp = some body ∧
      (s.writeSDP codec accepted sdp).1 = { s with control := s.control ++ [⟨typeSDP, body⟩] } := by
  unfold writeSDP at h ⊢
  cases hm : codec.marshalSDP sdp with
  | none =>
    rw [hm] at h
    cases h
  | some body =>
    refine ⟨body, rfl, ?_⟩
    rw [hm] at h
    unfold write at h ⊢
    simp only at h ⊢
    split
    · next hlarge =>
      rw [if_pos hlarge] at h
      cases h
    · next hsmall =>
      rw [if_neg hsmall] at h
      cases accepted with
      | true => rfl
      | false => cases h

theorem writeSDP_error {accepted sdp err} (h : (s.writeSDP codec accepted sdp).2 = .error err) :
    (s.writeSDP codec accepted sdp).1 = s := by
  unfold writeSDP at h ⊢
  cases hm : codec.marshalSDP sdp with
  | none => rfl
  | some body =>
    rw [hm] at h
    unfold write at h ⊢
    simp only at h ⊢
    split
    · rfl
    · next hsmall =>
      rw [if_neg hsmall] at h
      cases accepted with
      | true => cases h
      | false => rfl

theorem handshake_advertised (h : (s.handshake codec cb io env).2.2 = .ok ()) :
    Advertised codec (s.handshake codec cb io env).1 := by
  unfold handshake at h ⊢
  split at h
  · cases h
  · obtain ⟨body, hbody, heq⟩ := writeSDP_ok codec _ h
    rw [heq]
    exact ⟨_, body, hbody, List.mem_concat_self, rfl⟩

theorem run_advertised (hnew : s.runStarted = false)
    (h : (s.run codec cb io env).1.runStarted = true) :
    Advertised codec (s.run codec cb io env).1 := by
  have hhs := handshake_advertised codec cb io s env
  have hrs := handshake_runStarted codec cb io s env
  unfold run at h ⊢
  split
  · next heq =>
    rw [heq] at hhs
    exact hhs rfl
  · next heq =>
    rw [heq] at h hrs
    exact absurd (h.symm.trans (hrs.trans hnew)) (by decide)

end Attached

end Session

end QuicRTC

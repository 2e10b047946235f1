import QuicRTC.Server.Lifecycle

/-! # Tenants in the Session Store

The store files a parked session under the tenant, a zero byte, and the session identifier. So it is
found under every pair that spells the same string: an equal one, or one whose tenant runs over the
zero byte into the other's identifier (`Straddles`).
-/

namespace QuicRTC

open LTS List

/-! ## Keys -/

/-- `tenant` is `tenant'`, a zero byte and a string with which `id'` begins, before a zero
    byte and `id`. -/
def Straddles (tenant id tenant' id' : GoString) : Prop :=
  ∃ u, tenant = tenant' ++ [0] ++ u ∧ id' = u ++ [0] ++ id

variable {id id' tenant tenant' : GoString}

theorem Straddles.scopedKey_eq
    (h : Straddles tenant id tenant' id') : scopedKey tenant id = scopedKey tenant' id' := by
  obtain ⟨u, rfl, rfl⟩ := h
  simp [scopedKey]

theorem Straddles.tenant_ne (h : Straddles tenant id tenant' id') : tenant ≠ tenant' := by
  obtain ⟨u, rfl, -⟩ := h
  intro heq
  have := congrArg length heq
  simp only [length_append, length_singleton] at this
  omega

theorem scopedKey_eq_iff :
    scopedKey tenant id = scopedKey tenant' id' ↔
      (tenant = tenant' ∧ id = id') ∨ Straddles tenant id tenant' id' ∨
        Straddles tenant' id' tenant id := by
  constructor
  · intro h
    unfold scopedKey at h
    rw [append_assoc, append_assoc] at h
    -- One tenant is an initial part of the other; the zero byte after
    -- the shorter one lies in the longer one unless they are equal.
    rcases append_eq_append_iff.mp h with ⟨a, htenant, hrest⟩ | ⟨a, htenant, hrest⟩
    · cases a with
      | nil =>
        rw [append_nil] at htenant
        exact .inl ⟨htenant.symm, by simpa using hrest⟩
      | cons z u =>
        obtain ⟨rfl, rfl⟩ := hrest
        exact .inr (.inr ⟨u, by simp [htenant], by simp⟩)
    · cases a with
      | nil =>
        rw [append_nil] at htenant
        exact .inl ⟨htenant, by simpa using hrest.symm⟩
      | cons z u =>
        obtain ⟨rfl, rfl⟩ := hrest
        exact .inr (.inl ⟨u, by simp [htenant], by simp⟩)
  · rintro (⟨rfl, rfl⟩ | h | h)
    · rfl
    · exact h.scopedKey_eq
    · exact h.scopedKey_eq.symm

namespace Parking

/-! ## Whose session is returned -/

/-- `Resume` of the pair returns the receivers of `call`. -/
structure Returns (c : Parking) (now : Int) (tenant sessionID : GoString) (call : ParkCall) :
    Prop where
  numbered : c.calls[c.latest (scopedKey tenant sessionID)]? = some call
  receivers : (c.store.resume now tenant sessionID).1 = some call.entry.receivers

/-- `Resume` of the second pair never returns the receivers of a `Park` of the first, unless
    the pairs are equal. -/
def Isolated (ttl maxParked : Int) (tenant id tenant' id' : GoString) : Prop :=
  ∀ c, Reachable (parkingSystem ttl maxParked) c → ∀ now call,
    c.Returns now tenant' id' call → call.tenant = tenant → call.entry.id = id →
    tenant = tenant' ∧ id = id'

theorem not_isolated_of_key {tenant id tenant' id'} (ttl maxParked : Int)
    (hkey : scopedKey tenant id = scopedKey tenant' id') (hne : tenant ≠ tenant') :
    ¬ Isolated ttl maxParked tenant id tenant' id' := by
  intro h
  have hreach : Reachable (parkingSystem ttl maxParked)
      ((start ttl maxParked).afterPark 0 0 tenant id ∅ []) :=
    Reachable.step (.park 0 0 tenant id ∅ []) (Reachable.init rfl) rfl
  have hlookup := (start ttl maxParked).store.lookup_park 0 0 tenant id ∅ []
  rw [hkey] at hlookup
  have hlife : 0 ≤ (start ttl maxParked).store.resumeTTL := by
    show 0 ≤ if ttl ≤ 0 then defaultResumeWindow else ttl
    split
    · decide
    · omega
  obtain ⟨hfound, -⟩ := MemorySessionStore.resume_spec hlookup (by simpa using hlife)
  refine hne (h _ hreach 0 ⟨tenant, (start ttl maxParked).entryOf 0 id ∅ []⟩ ⟨?_, hfound⟩ rfl rfl).1
  simp [afterPark, start, hkey]

/-- Resume is isolated iff neither tenant runs over the zero byte into the identifier of the
    other pair. -/
theorem isolated_iff (ttl maxParked : Int) (tenant id tenant' id' : GoString) :
    Isolated ttl maxParked tenant id tenant' id' ↔
      ¬ (Straddles tenant id tenant' id' ∨ Straddles tenant' id' tenant id) := by
  constructor
  · rintro h (hst | hst)
    · exact not_isolated_of_key ttl maxParked hst.scopedKey_eq hst.tenant_ne h
    · exact not_isolated_of_key ttl maxParked hst.scopedKey_eq.symm hst.tenant_ne.symm h
  · intro hno c hc now call hret htenant hid
    subst htenant hid
    obtain ⟨call', hcall', -, -, hkey⟩ := (held_of_reachable c hc).resume hret.receivers
    obtain rfl := Option.some.inj (hret.numbered.symm.trans hcall')
    exact (scopedKey_eq_iff.mp hkey).resolve_right hno

/-- `a` resumes a session of `a\x00b`. -/
theorem not_isolated_zero_byte : ¬ Isolated 0 0 (str "a\x00b") (str "c") (str "a") (str "b\x00c") :=
  not_isolated_of_key 0 0 (by decide) (by decide)

end Parking

end QuicRTC

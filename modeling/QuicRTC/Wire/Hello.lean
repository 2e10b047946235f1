import Mathlib.Data.Prod.Lex
import Mathlib.Data.List.Lex
import Mathlib.Order.MinMax
import QuicRTC.Framework.GoMap

/-! # Handshake Messages

`wire/hello.go`: the payloads of the handshake and of the announcements, and version negotiation.
JSON is not modelled: a `Codec` is any pair of encoders and decoders. Marshalling an SDP can fail (a
float that is not a number); what was marshalled can be read back.
-/

namespace QuicRTC.Wire

/-! ## Payloads -/

/-- The subscriber's first frame. -/
structure Hello where
  role : GoString
  slug : GoString
  version : GoString
  minVersion : GoString
  maxVersion : GoString
  sessionID : GoString
  features : List GoString
  lastSeenSeq : GoMap UInt32

/-- The display dimensions are the bits of their floats. -/
structure SDP where
  codec : GoString
  width : Int
  height : Int
  fps : Int
  screenW : UInt64
  screenH : UInt64
  sessionID : GoString
  features : List GoString
  negotiatedVersion : GoString
  deriving DecidableEq

structure Announce where
  name : GoString
  kind : GoString
  codec : GoString
  deriving DecidableEq

structure Unannounce where
  name : GoString
  deriving DecidableEq

structure ErrorPayload where
  code : GoString
  reason : GoString
  deriving DecidableEq

structure Codec where
  unmarshalHello : List UInt8 → Option Hello
  marshalSDP : SDP → Option (List UInt8)
  unmarshalSDP : List UInt8 → Option SDP
  marshalAnnounce : Announce → Option (List UInt8)
  marshalUnannounce : Unannounce → Option (List UInt8)
  sdp_readable : ∀ sdp body, marshalSDP sdp = some body → (unmarshalSDP body).isSome

/-- For concrete runs. Every payload is a HELLO of a client that knows `kind-stats` and
    wants the session it names; the other payloads are session and track names. -/
def plainCodec : Codec where
  unmarshalHello payload := some
    { role := [], slug := [], version := [], minVersion := [], maxVersion := []
      sessionID := payload, features := [str "kind-stats"], lastSeenSeq := ∅ }
  marshalSDP sdp := some sdp.sessionID
  unmarshalSDP body := some
    { codec := [], width := 0, height := 0, fps := 0, screenW := 0, screenH := 0
      sessionID := body, features := [], negotiatedVersion := [] }
  marshalAnnounce a := some a.name
  marshalUnannounce u := some u.name
  sdp_readable := fun _ _ _ => rfl

/-! ## Versions -/

def currentVersion : GoString := str "1"

def minSupportedVersion : GoString := str "1"

def cmpVersion (a b : GoString) : Int :=
  if a.length ≠ b.length then
    if a.length < b.length then -1 else 1
  else if a < b then -1
  else if b < a then 1
  else 0

def negotiateVersion (clientMin clientMax serverMin serverMax : GoString) : Option GoString :=
  let lo := if cmpVersion serverMin clientMin > 0 then serverMin else clientMin
  let hi := if cmpVersion serverMax clientMax < 0 then serverMax else clientMax
  if cmpVersion hi lo < 0 then none else some hi

/-! ## The order of versions -/

/-- The length, then the bytes as numbers. -/
def rank (v : GoString) : ℕ ×ₗ List ℕ := toLex (v.length, v.map UInt8.toNat)

theorem rank_injective : Function.Injective rank := by
  intro a b h
  have hmap : a.map UInt8.toNat = b.map UInt8.toNat := congrArg (fun r => (ofLex r).2) h
  exact List.map_injective_iff.mpr (fun _ _ => UInt8.toNat_inj.mp) hmap

theorem map_toNat_lt_iff (a b : GoString) : a.map UInt8.toNat < b.map UInt8.toNat ↔ a < b := by
  induction a generalizing b with
  | nil => cases b <;> simp
  | cons x a ih =>
    cases b with
    | nil => simp
    | cons y b =>
      simp only [List.map_cons, List.cons_lt_cons_iff, ih, UInt8.toNat_inj, UInt8.lt_iff_toNat_lt]

theorem rank_lt_iff (a b : GoString) :
    rank a < rank b ↔ a.length < b.length ∨ a.length = b.length ∧ a < b := by
  rw [← map_toNat_lt_iff, Prod.Lex.lt_iff]
  rfl

theorem cmpVersion_swap (a b : GoString) : cmpVersion b a = - cmpVersion a b := by
  unfold cmpVersion
  by_cases hlen : a.length = b.length
  · rw [if_neg (not_not.mpr hlen), if_neg (not_not.mpr hlen.symm)]
    by_cases hab : a < b
    · have hba : ¬ b < a := by
        rw [← map_toNat_lt_iff] at hab ⊢
        exact lt_asymm hab
      rw [if_pos hab, if_neg hba, if_pos hab, Int.neg_neg]
    · split <;> rfl
  · rcases Nat.lt_or_gt_of_ne hlen with h | h
    · simp [hlen, Ne.symm hlen, h, Nat.lt_asymm h]
    · simp [hlen, Ne.symm hlen, h, Nat.lt_asymm h]

theorem cmpVersion_neg_iff (a b : GoString) : cmpVersion a b < 0 ↔ rank a < rank b := by
  rw [rank_lt_iff]
  unfold cmpVersion
  split
  · next hne => split <;> omega
  · next heq =>
    have hlen : a.length = b.length := not_not.mp heq
    by_cases hab : a < b
    · simp [hab, hlen]
    · rw [if_neg hab]
      split <;> simp [hab, hlen]

theorem cmpVersion_pos_iff (a b : GoString) : cmpVersion a b > 0 ↔ rank b < rank a := by
  rw [← cmpVersion_neg_iff, cmpVersion_swap a b]
  omega

theorem cmpVersion_le_iff (a b : GoString) : cmpVersion a b ≤ 0 ↔ rank a ≤ rank b := by
  rw [← not_lt, ← not_lt]
  exact not_congr (cmpVersion_pos_iff a b)

instance cmpVersion_isLinearOrder : IsLinearOrder GoString (fun a b => cmpVersion a b ≤ 0) where
  refl a := (cmpVersion_le_iff a a).mpr le_rfl
  trans a b c hab hbc := by
    rw [cmpVersion_le_iff] at *
    exact hab.trans hbc
  antisymm a b hab hba := by
    rw [cmpVersion_le_iff] at *
    exact rank_injective (le_antisymm hab hba)
  total a b := by
    simp only [cmpVersion_le_iff]
    exact le_total _ _

/-! ## Negotiation -/

def InRange (lo hi v : GoString) : Prop := cmpVersion lo v ≤ 0 ∧ cmpVersion v hi ≤ 0

theorem inRange_iff (lo hi v : GoString) : InRange lo hi v ↔ rank lo ≤ rank v ∧ rank v ≤ rank hi := by
  simp only [InRange, cmpVersion_le_iff]

theorem negotiateVersion_eq_some_iff (cmin cmax smin smax v : GoString) :
    negotiateVersion cmin cmax smin smax = some v ↔
      rank v = min (rank cmax) (rank smax) ∧ max (rank cmin) (rank smin) ≤ rank v := by
  have hlo : rank (if cmpVersion smin cmin > 0 then smin else cmin) =
      max (rank cmin) (rank smin) := by
    split
    · next h => exact (max_eq_right ((cmpVersion_pos_iff _ _).mp h).le).symm
    · next h => exact (max_eq_left (not_lt.mp (mt (cmpVersion_pos_iff _ _).mpr h))).symm
  have hhi : rank (if cmpVersion smax cmax < 0 then smax else cmax) =
      min (rank cmax) (rank smax) := by
    split
    · next h => exact (min_eq_right ((cmpVersion_neg_iff _ _).mp h).le).symm
    · next h => exact (min_eq_left (not_lt.mp (mt (cmpVersion_neg_iff _ _).mpr h))).symm
  simp only [negotiateVersion]
  rw [← hlo, ← hhi]
  generalize (if cmpVersion smin cmin > 0 then smin else cmin) = lo
  generalize (if cmpVersion smax cmax < 0 then smax else cmax) = hi
  split
  · next h =>
    have hlt := (cmpVersion_neg_iff _ _).mp h
    constructor
    · nofun
    · rintro ⟨hv, hle⟩
      exact absurd (hv ▸ hle) (not_le.mpr hlt)
  · next h =>
    have hle := not_lt.mp (mt (cmpVersion_neg_iff _ _).mpr h)
    constructor
    · rintro ⟨⟩
      exact ⟨rfl, hle⟩
    · rintro ⟨hv, -⟩
      exact congrArg some (rank_injective hv.symm)

/-- **Negotiation** succeeds iff the two ranges have a version in common. -/
theorem negotiateVersion_isSome_iff (cmin cmax smin smax : GoString) :
    (negotiateVersion cmin cmax smin smax).isSome = true ↔
      ∃ v, InRange cmin cmax v ∧ InRange smin smax v := by
  rw [Option.isSome_iff_exists]
  simp only [negotiateVersion_eq_some_iff, inRange_iff]
  constructor
  · rintro ⟨v, hv, hle⟩
    obtain ⟨h1, h2⟩ := max_le_iff.mp hle
    obtain ⟨h3, h4⟩ := le_min_iff.mp hv.le
    exact ⟨v, ⟨h1, h3⟩, h2, h4⟩
  · rintro ⟨v, ⟨h1, h3⟩, h2, h4⟩
    have hle : max (rank cmin) (rank smin) ≤ min (rank cmax) (rank smax) :=
      (max_le h1 h2).trans (le_min h3 h4)
    rcases min_choice (rank cmax) (rank smax) with h | h
    · exact ⟨cmax, h.symm, h ▸ hle⟩
    · exact ⟨smax, h.symm, h ▸ hle⟩

theorem negotiateVersion_greatest {cmin cmax smin smax v}
    (h : negotiateVersion cmin cmax smin smax = some v) :
    InRange cmin cmax v ∧ InRange smin smax v ∧
      ∀ w, InRange cmin cmax w → InRange smin smax w → cmpVersion w v ≤ 0 := by
  obtain ⟨hv, hle⟩ := (negotiateVersion_eq_some_iff ..).mp h
  obtain ⟨h1, h2⟩ := max_le_iff.mp hle
  obtain ⟨h3, h4⟩ := le_min_iff.mp hv.le
  simp only [inRange_iff, cmpVersion_le_iff]
  exact ⟨⟨h1, h3⟩, ⟨h2, h4⟩, fun w hc hs => hv ▸ le_min hc.2 hs.2⟩

-- "10" sorts after "9", and the offer [2, 10] meets [1, 9] at 9.
example : negotiateVersion (str "2") (str "10") (str "1") (str "9") = some (str "9") := by decide

end QuicRTC.Wire

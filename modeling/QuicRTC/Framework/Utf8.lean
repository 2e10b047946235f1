import Mathlib.Data.List.Basic
import Mathlib.Tactic.Common

/-! # UTF-8 Text

The decoder of the Encoding standard: every maximal part of a character that is cut short is
replaced by U+FFFD. `decode` also takes away a byte order mark at the front, as a `TextDecoder` with
its default options does.
-/

namespace Utf8

open List

def encode (text : List Char) : List UInt8 := text.flatMap String.utf8EncodeChar

def replacement : Char := Char.ofNat 0xFFFD

def byteOrderMark : Char := Char.ofNat 0xFEFF

/-! ## The decoder -/

/-- `needed` bytes are missing, the next one between `lower` and `upper`. -/
structure Partial where
  needed : Nat
  lower : Nat
  upper : Nat
  code : Nat

/-- The first byte of a character. -/
def lead (b : Nat) : List Char × Option Partial :=
  if b ≤ 0x7F then ([Char.ofNat b], none)
  -- C0 and C1 would only start an overlong form.
  else if 0xC2 ≤ b ∧ b ≤ 0xDF then ([], some ⟨1, 0x80, 0xBF, b % 0x20⟩)
  else if 0xE0 ≤ b ∧ b ≤ 0xEF then
    ([], some ⟨2, if b = 0xE0 then 0xA0 else 0x80, if b = 0xED then 0x9F else 0xBF, b % 0x10⟩)
  else if 0xF0 ≤ b ∧ b ≤ 0xF4 then
    ([], some ⟨3, if b = 0xF0 then 0x90 else 0x80, if b = 0xF4 then 0x8F else 0xBF, b % 0x08⟩)
  else ([replacement], none)

def next : Option Partial → Nat → List Char × Option Partial
  | none, b => lead b
  | some p, b =>
    if p.lower ≤ b ∧ b ≤ p.upper then
      let code := p.code * 0x40 + b % 0x40
      if p.needed = 1 then ([Char.ofNat code], none) else ([], some ⟨p.needed - 1, 0x80, 0xBF, code⟩)
    -- The byte does not go on with the character: it starts the next one.
    else (replacement :: (lead b).1, (lead b).2)

def decodeFrom : Option Partial → List UInt8 → List Char
  | none, [] => []
  | some _, [] => [replacement]
  | p, b :: bytes => (next p b.toNat).1 ++ decodeFrom (next p b.toNat).2 bytes

def decode (bytes : List UInt8) : List Char :=
  decodeFrom none (if encode [byteOrderMark] <+: bytes then bytes.drop 3 else bytes)

/-! ## Text is decoded to itself -/

theorem toNat_byte {n : Nat} (h : n < 0x100) : (UInt8.ofNat n).toNat = n := UInt8.toNat_ofNat_of_lt' h

theorem decodeFrom_none (b : UInt8) (bytes : List UInt8) :
    decodeFrom none (b :: bytes) = (lead b.toNat).1 ++ decodeFrom (lead b.toNat).2 bytes := rfl

theorem decodeFrom_tail {p : Partial} {n : Nat} (hn : n < 0x40) (hneeded : p.needed ≠ 1)
    (hlower : p.lower ≤ n + 0x80) (hupper : n + 0x80 ≤ p.upper) (bytes : List UInt8) :
    decodeFrom (some p) (UInt8.ofNat (n + 0x80) :: bytes) =
      decodeFrom (some ⟨p.needed - 1, 0x80, 0xBF, p.code * 0x40 + n⟩) bytes := by
  have hb : (UInt8.ofNat (n + 0x80)).toNat = n + 0x80 := toNat_byte (by omega)
  have hmod : (n + 0x80) % 0x40 = n := by omega
  simp only [decodeFrom, next, hb, if_pos (And.intro hlower hupper), if_neg hneeded, hmod, nil_append]

theorem decodeFrom_last {p : Partial} {n : Nat} (hn : n < 0x40) (hneeded : p.needed = 1)
    (hlower : p.lower ≤ n + 0x80) (hupper : n + 0x80 ≤ p.upper) (bytes : List UInt8) :
    decodeFrom (some p) (UInt8.ofNat (n + 0x80) :: bytes) =
      Char.ofNat (p.code * 0x40 + n) :: decodeFrom none bytes := by
  have hb : (UInt8.ofNat (n + 0x80)).toNat = n + 0x80 := toNat_byte (by omega)
  have hmod : (n + 0x80) % 0x40 = n := by omega
  simp only [decodeFrom, next, hb, if_pos (And.intro hlower hupper), if_pos hneeded, hmod]
  rfl

/-- A surrogate is no character. -/
theorem toNat_bounds (c : Char) :
    c.toNat < 0xD800 ∨ 0xDFFF < c.toNat ∧ c.toNat < 0x110000 := c.valid

theorem decodeFrom_char (c : Char) (bytes : List UInt8) :
    decodeFrom none (String.utf8EncodeChar c ++ bytes) = c :: decodeFrom none bytes := by
  have hvalid := toNat_bounds c
  have hofNat : ∀ v, v = c.toNat → Char.ofNat v = c := fun v hv => hv ▸ Char.ofNat_toNat c
  unfold String.utf8EncodeChar
  simp only [show c.val.toNat = c.toNat from rfl]
  -- one case for each length of the encoding
  split
  · next h1 =>
    have hb : (UInt8.ofNat c.toNat).toNat = c.toNat := toNat_byte (by omega)
    rw [cons_append, decodeFrom_none, hb, lead, if_pos h1, hofNat _ rfl]
    rfl
  split
  · next h1 h2 =>
    have hb : (UInt8.ofNat (c.toNat / 64 % 0x20 + 0xC0)).toNat = c.toNat / 64 % 0x20 + 0xC0 :=
      toNat_byte (by omega)
    rw [cons_append, decodeFrom_none, hb, lead, if_neg (by omega), if_pos (by omega), cons_append,
      nil_append, decodeFrom_last (by omega) rfl (by simp only; omega) (by simp only; omega)]
    exact congrArg (· :: _) (hofNat _ (by simp only; omega))
  split
  · next h1 h2 h3 =>
    have hb : (UInt8.ofNat (c.toNat / 4096 % 0x10 + 0xE0)).toNat = c.toNat / 4096 % 0x10 + 0xE0 :=
      toNat_byte (by omega)
    rw [cons_append, decodeFrom_none, hb, lead, if_neg (by omega), if_neg (by omega),
      if_pos (by omega), cons_append, cons_append, nil_append,
      decodeFrom_tail (by omega) (by simp only; omega) (by simp only; split <;> omega)
        (by simp only; split <;> omega),
      decodeFrom_last (by omega) rfl (by simp only; omega) (by simp only; omega)]
    exact congrArg (· :: _) (hofNat _ (by simp only; omega))
  · next h1 h2 h3 =>
    have hb : (UInt8.ofNat (c.toNat / 262144 % 0x08 + 0xF0)).toNat = c.toNat / 262144 % 0x08 + 0xF0 :=
      toNat_byte (by omega)
    rw [cons_append, decodeFrom_none, hb, lead, if_neg (by omega), if_neg (by omega),
      if_neg (by omega), if_pos (by omega), cons_append, cons_append, cons_append, nil_append,
      decodeFrom_tail (by omega) (by simp only; omega) (by simp only; split <;> omega)
        (by simp only; split <;> omega),
      decodeFrom_tail (by omega) (by simp only; omega) (by simp only; omega) (by simp only; omega),
      decodeFrom_last (by omega) rfl (by simp only; omega) (by simp only; omega)]
    exact congrArg (· :: _) (hofNat _ (by simp only; omega))

theorem decodeFrom_encode (text : List Char) : decodeFrom none (encode text) = text := by
  induction text with
  | nil => rfl
  | cons c text ih => rw [encode, flatMap_cons, decodeFrom_char, ← encode, ih]

/-- Text in UTF-8 without a byte order mark. -/
def IsText (bytes : List UInt8) : Prop :=
  (∃ text, encode text = bytes) ∧ ¬ encode [byteOrderMark] <+: bytes

theorem encode_decode_iff (bytes : List UInt8) : encode (decode bytes) = bytes ↔ IsText bytes := by
  unfold decode
  constructor
  · intro h
    refine ⟨⟨_, h⟩, fun ⟨rest, hrest⟩ => ?_⟩
    subst hrest
    rw [if_pos (prefix_append _ rest), show 3 = (encode [byteOrderMark]).length from rfl,
      drop_left] at h
    -- the mark is a character of its own, so what follows it is text too
    have hmark : decodeFrom none (encode [byteOrderMark] ++ rest) =
        byteOrderMark :: decodeFrom none rest := decodeFrom_char byteOrderMark rest
    have htext := decodeFrom_encode (decodeFrom none rest)
    rw [h, hmark] at htext
    exact cons_ne_self _ _ htext
  · rintro ⟨⟨text, rfl⟩, hmark⟩
    rw [if_neg hmark, decodeFrom_encode]

end Utf8

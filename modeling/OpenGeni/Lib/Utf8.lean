/-
Reading UTF-8 a byte at a time.

The decoder of the Encoding Standard, without its fatal mode: what cannot be UTF-8 becomes
U+FFFD, a byte that ends a broken character is read again as the start of the next one, and one
byte order mark at the very start is dropped. A text that is encoded and decoded is the text
again, so no cut between two bytes can show in it.
-/
import OpenGeni.Lib.Transducer

namespace OpenGeni.Lib.Utf8

open Transducer

/-! ## The decoder -/

/-- What is left of a character that has begun: the bytes it still needs, the value read so far,
and between which bounds its next byte lies. -/
structure Pending where
  needed : ℕ := 0
  codePoint : ℕ := 0
  lower : ℕ := 0x80
  upper : ℕ := 0xBF
  deriving DecidableEq

def replacement : Char := Char.ofNat 0xFFFD

def lead (byte : ℕ) : Pending × List Char :=
  if byte ≤ 0x7F then
    ({}, [Char.ofNat byte])
  else if 0xC2 ≤ byte ∧ byte ≤ 0xDF then
    ({ needed := 1, codePoint := byte - 0xC0 }, [])
  else if 0xE0 ≤ byte ∧ byte ≤ 0xEF then
    -- no overlong form, no surrogate
    ({ needed := 2, codePoint := byte - 0xE0, lower := if byte = 0xE0 then 0xA0 else 0x80
       upper := if byte = 0xED then 0x9F else 0xBF }, [])
  else if 0xF0 ≤ byte ∧ byte ≤ 0xF4 then
    -- nothing beyond U+10FFFF
    ({ needed := 3, codePoint := byte - 0xF0, lower := if byte = 0xF0 then 0x90 else 0x80
       upper := if byte = 0xF4 then 0x8F else 0xBF }, [])
  else
    ({}, [replacement])

def step : Transducer Pending UInt8 Char := fun d byte =>
  if d.needed = 0 then
    lead byte.toNat
  else if byte.toNat < d.lower ∨ d.upper < byte.toNat then
    ((lead byte.toNat).1, replacement :: (lead byte.toNat).2)
  else if d.needed = 1 then
    ({}, [Char.ofNat (d.codePoint * 64 + (byte.toNat - 0x80))])
  else
    ({ needed := d.needed - 1, codePoint := d.codePoint * 64 + (byte.toNat - 0x80) }, [])

/-- Drops a byte order mark that comes first; the state says whether a character was seen. -/
def skipMark : Transducer Bool Char Char := fun seen c =>
  (true, if seen = false ∧ c = Char.ofNat 0xFEFF then [] else [c])

/-- A decoder: the character that has begun, and whether one was decoded. -/
abbrev Decoder := Pending × Bool

/-- `decode(bytes, { stream: true })`. -/
def decode : Transducer Decoder UInt8 Char := comp step skipMark

/-! ## The encoder -/

def encode (text : List Char) : List UInt8 := text.flatMap String.utf8EncodeChar

@[simp] theorem encode_nil : encode [] = [] := rfl

@[simp] theorem encode_cons (c : Char) (text : List Char) :
    encode (c :: text) = String.utf8EncodeChar c ++ encode text := List.flatMap_cons

@[simp] theorem encode_append (text rest : List Char) :
    encode (text ++ rest) = encode text ++ encode rest := List.flatMap_append

/-! ## There and back -/

theorem toNat_ofNat {n : ℕ} (h : n < 256) : (UInt8.ofNat n).toNat = n := by
  rw [UInt8.toNat_ofNat']
  exact Nat.mod_eq_of_lt h

variable {n p l u k : ℕ}

theorem step_more (hk : k < 0x40) (hlower : l ≤ k + 0x80) (hupper : k + 0x80 ≤ u) :
    step ⟨n + 2, p, l, u⟩ (UInt8.ofNat (k + 0x80)) = ({ needed := n + 1, codePoint := p * 64 + k }, []) := by
  dsimp only [step]
  rw [toNat_ofNat (by omega), if_neg (by omega), if_neg (by omega), if_neg (by omega), Nat.add_sub_cancel]
  rfl

theorem step_last (hk : k < 0x40) (hlower : l ≤ k + 0x80) (hupper : k + 0x80 ≤ u) :
    step ⟨1, p, l, u⟩ (UInt8.ofNat (k + 0x80)) = ({}, [Char.ofNat (p * 64 + k)]) := by
  dsimp only [step]
  rw [toNat_ofNat (by omega), if_neg (by omega), if_neg (by omega), if_pos rfl, Nat.add_sub_cancel]

theorem feed_encodeChar (c : Char) : feed step {} (String.utf8EncodeChar c) = ({}, [c]) := by
  have hc : Char.ofNat c.val.toNat = c := Char.ofNat_toNat c
  have hvalid : c.val.toNat < 0xd800 ∨ 0xdfff < c.val.toNat ∧ c.val.toNat < 0x110000 := c.valid
  fun_cases String.utf8EncodeChar c with
  | case1 v h =>
    have hlead : step {} (UInt8.ofNat v) = ({}, [c]) := by
      unfold step lead
      rw [toNat_ofNat (by omega), if_pos rfl, if_pos h, hc]
    rw [feed_cons, hlead]
    rfl
  | case2 v h₁ h₂ =>
    have hlead : step {} (UInt8.ofNat (v / 64 % 0x20 + 0xc0)) =
        ({ needed := 1, codePoint := v / 64 }, []) := by
      unfold step lead
      rw [toNat_ofNat (by omega), if_pos rfl, if_neg (by omega), if_pos (by omega)]
      simp only [Prod.mk.injEq, Pending.mk.injEq, and_true, true_and]
      omega
    apply feed_cons_silent hlead
    rw [feed_cons, step_last (by omega) (by omega) (by omega)]
    simp only [show v / 64 * 64 + v % 0x40 = v by omega, hc, feed_nil, List.append_nil, v]
  | case3 v h₁ h₂ h₃ =>
    have hlead : step {} (UInt8.ofNat (v / 4096 % 0x10 + 0xe0)) =
        ({ needed := 2, codePoint := v / 4096, lower := if v / 4096 = 0 then 0xA0 else 0x80
           upper := if v / 4096 = 13 then 0x9F else 0xBF }, []) := by
      unfold step lead
      rw [toNat_ofNat (by omega), if_pos rfl, if_neg (by omega), if_neg (by omega),
        if_pos (by omega)]
      simp only [show v / 4096 % 0x10 = v / 4096 by omega, Nat.add_sub_cancel, Nat.add_eq_right,
        show v / 4096 + 0xe0 = 0xed ↔ v / 4096 = 13 by omega]
    apply feed_cons_silent hlead
    apply feed_cons_silent (step_more (by omega) (by split <;> omega) (by split <;> omega))
    rw [feed_cons, step_last (by omega) (by omega) (by omega)]
    simp only [show (v / 4096 * 64 + v / 64 % 0x40) * 64 + v % 0x40 = v by omega, hc, feed_nil,
      List.append_nil, v]
  | case4 v h₁ h₂ h₃ =>
    have hlead : step {} (UInt8.ofNat (v / 262144 % 0x08 + 0xf0)) =
        ({ needed := 3, codePoint := v / 262144, lower := if v / 262144 = 0 then 0x90 else 0x80
           upper := if v / 262144 = 4 then 0x8F else 0xBF }, []) := by
      unfold step lead
      rw [toNat_ofNat (by omega), if_pos rfl, if_neg (by omega), if_neg (by omega),
        if_neg (by omega), if_pos (by omega)]
      simp only [show v / 262144 % 0x08 = v / 262144 by omega, Nat.add_sub_cancel,
        Nat.add_eq_right, show v / 262144 + 0xf0 = 0xf4 ↔ v / 262144 = 4 by omega]
    apply feed_cons_silent hlead
    apply feed_cons_silent (step_more (by omega) (by split <;> omega) (by split <;> omega))
    apply feed_cons_silent (step_more (by omega) (by omega) (by omega))
    rw [feed_cons, step_last (by omega) (by omega) (by omega)]
    simp only [show ((v / 262144 * 64 + v / 4096 % 0x40) * 64 + v / 64 % 0x40) * 64 + v % 0x40 = v
      by omega, hc, feed_nil, List.append_nil, v]

theorem feed_encode (text : List Char) : feed step {} (encode text) = ({}, text) := by
  induction text with
  | nil => rfl
  | cons c text ih => exact feed_trans (feed_encodeChar c) ih

theorem feed_skipMark (text : List Char) : feed skipMark true text = (true, text) := by
  induction text with
  | nil => rfl
  | cons c text ih =>
    rw [feed_cons]
    simp only [skipMark, Bool.true_eq_false, false_and, if_false, ih, List.singleton_append]

/-- **Round trip.** The bytes of a text that does not begin with a byte order mark decode to it. -/
theorem decode_encode {c : Char} (hc : c ≠ Char.ofNat 0xFEFF) (seen : Bool) (text : List Char) :
    feed decode ({}, seen) (encode (c :: text)) = (({}, true), c :: text) := by
  rw [decode, feed_comp, feed_encode, feed_cons]
  simp only [skipMark, hc, and_false, if_false, feed_skipMark, List.singleton_append]

end OpenGeni.Lib.Utf8

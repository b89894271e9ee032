/-
Bytes as text of a safe alphabet.

Three bytes are four digits of six bits; one or two bytes at the end are two or three digits, and no
padding follows. The lenient reader skips what is no digit and drops bits that make no byte. The
strict one reads exactly the texts that the writer writes.
-/
import Mathlib

namespace OpenGeni.Lib.Base64Url

/-! ## Digits -/

def alphabet : List Char := "ABCDEFGHIJKLMNOPQRSTUVWXYZabcdefghijklmnopqrstuvwxyz0123456789-_".toList

def digit (n : ℕ) : Char := alphabet.getD n 'A'

/-- The six bits of a digit, in the alphabet or in that of plain Base64. -/
def value (c : Char) : Option ℕ := if c = '+' then some 62
  else if c = '/' then some 63
  else alphabet.findIdx? (· = c)

theorem value_digit {n : ℕ} (h : n < 64) : value (digit n) = some n := by
  revert n
  decide +kernel

theorem digit_eq (n : ℕ) : ∃ m < 64, digit n = digit m := by
  by_cases h : n < 64
  · exact ⟨n, h, rfl⟩
  · have hlen : alphabet.length ≤ n := by
      have hsize : alphabet.length = 64 := by decide +kernel
      omega
    refine ⟨0, by decide, ?_⟩
    unfold digit
    rw [List.getD_eq_default _ _ hlen]
    decide +kernel

theorem digit_ne {n : ℕ} : digit n ≠ '.' ∧ digit n ≠ '=' := by
  obtain ⟨m, hm, heq⟩ := digit_eq n
  rw [heq]
  clear heq
  revert m
  decide +kernel

/-! ## The writer -/

def encode : List UInt8 → List Char
  | [] => []
  | [a] => [digit (a.toNat / 4), digit (a.toNat % 4 * 16)]
  | [a, b] => [digit (a.toNat / 4), digit (a.toNat % 4 * 16 + b.toNat / 16), digit (b.toNat % 16 * 4)]
  | a :: b :: c :: rest =>
    digit (a.toNat / 4) :: digit (a.toNat % 4 * 16 + b.toNat / 16) :: digit (b.toNat % 16 * 4 + c.toNat / 64) ::
      digit (c.toNat % 64) :: encode rest

theorem forall_mem_encode {P : Char → Prop} (h : ∀ n, P (digit n)) (bytes : List UInt8) : ∀ c ∈ encode bytes, P c := by
  fun_induction encode bytes with
  | case1 => simp
  | case2 a => simp [h]
  | case3 a b => simp [h]
  | case4 a b c rest ih =>
    intro d hd
    simp only [List.mem_cons] at hd
    obtain rfl | rfl | rfl | rfl | hd := hd
    · exact h _
    · exact h _
    · exact h _
    · exact h _
    · exact ih d hd

theorem dot_not_mem_encode (bytes : List UInt8) : '.' ∉ encode bytes :=
  fun hmem => forall_mem_encode (P := (· ≠ '.')) (fun _ => digit_ne.1) bytes '.' hmem rfl

theorem pad_not_mem_encode (bytes : List UInt8) : '=' ∉ encode bytes :=
  fun hmem => forall_mem_encode (P := (· ≠ '=')) (fun _ => digit_ne.2) bytes '=' hmem rfl

theorem encode_ne_nil {bytes : List UInt8} (h : bytes ≠ []) : encode bytes ≠ [] := by
  fun_cases encode bytes with
  | case1 => exact absurd rfl h
  | case2 a => simp
  | case3 a b => simp
  | case4 a b c rest => simp

/-! ## The readers -/

def ofDigits : List ℕ → List UInt8
  | a :: b :: c :: d :: rest =>
    UInt8.ofNat (a * 4 + b / 16) :: UInt8.ofNat (b % 16 * 16 + c / 4) :: UInt8.ofNat (c % 4 * 64 + d) :: ofDigits rest
  | [a, b, c] => [UInt8.ofNat (a * 4 + b / 16), UInt8.ofNat (b % 16 * 16 + c / 4)]
  | [a, b] => [UInt8.ofNat (a * 4 + b / 16)]
  | _ => []

def decode (text : List Char) : List UInt8 := ofDigits (text.filterMap value)

def decodeStrict (text : List Char) : Option (List UInt8) := let bytes := decode text
  if encode bytes = text then some bytes else none

/-! ## There and back -/

theorem ofNat_of_eq {a : UInt8} {n : ℕ} (h : n = a.toNat) : UInt8.ofNat n = a := by
  rw [h]
  exact UInt8.ofNat_toNat

theorem decode_take (bytes : List UInt8) (count : ℕ) :
    decode ((encode bytes).take count) = bytes.take (count * 3 / 4) := by
  unfold decode
  fun_induction encode bytes generalizing count with
  | case1 => simp [ofDigits]
  | case2 a =>
    have ha := a.toNat_lt
    match count with
    | 0 => rfl
    | 1 => simp [value_digit (show a.toNat / 4 < 64 by omega), ofDigits]
    | count + 2 =>
      obtain ⟨more, hmore⟩ : ∃ more, (count + 2) * 3 / 4 = more + 1 := ⟨(count + 2) * 3 / 4 - 1, by omega⟩
      simp only [hmore, List.take_succ_cons, List.take_nil, List.filterMap_cons, List.filterMap_nil,
        value_digit (show a.toNat / 4 < 64 by omega), value_digit (show a.toNat % 4 * 16 < 64 by omega), ofDigits]
      rw [ofNat_of_eq (a := a) (by omega)]
  | case3 a b =>
    have ha := a.toNat_lt
    have hb := b.toNat_lt
    match count with
    | 0 => rfl
    | 1 => simp [value_digit (show a.toNat / 4 < 64 by omega), ofDigits]
    | 2 =>
      simp only [List.take_succ_cons, List.take_zero, List.filterMap_cons, List.filterMap_nil,
        value_digit (show a.toNat / 4 < 64 by omega),
        value_digit (show a.toNat % 4 * 16 + b.toNat / 16 < 64 by omega), ofDigits]
      rw [ofNat_of_eq (a := a) (by omega)]
    | count + 3 =>
      obtain ⟨more, hmore⟩ : ∃ more, (count + 3) * 3 / 4 = more + 2 := ⟨(count + 3) * 3 / 4 - 2, by omega⟩
      simp only [hmore, List.take_succ_cons, List.take_nil, List.filterMap_cons, List.filterMap_nil,
        value_digit (show a.toNat / 4 < 64 by omega),
        value_digit (show a.toNat % 4 * 16 + b.toNat / 16 < 64 by omega),
        value_digit (show b.toNat % 16 * 4 < 64 by omega), ofDigits]
      rw [ofNat_of_eq (a := a) (by omega), ofNat_of_eq (a := b) (by omega)]
  | case4 a b c rest ih =>
    have ha := a.toNat_lt
    have hb := b.toNat_lt
    have hc := c.toNat_lt
    have hvalues := And.intro (value_digit (show a.toNat / 4 < 64 by omega))
      (And.intro (value_digit (show a.toNat % 4 * 16 + b.toNat / 16 < 64 by omega))
        (And.intro (value_digit (show b.toNat % 16 * 4 + c.toNat / 64 < 64 by omega))
          (value_digit (show c.toNat % 64 < 64 by omega))))
    match count with
    | 0 => rfl
    | 1 => simp [hvalues.1, ofDigits]
    | 2 =>
      simp only [List.take_succ_cons, List.take_zero, List.filterMap_cons, List.filterMap_nil, hvalues, ofDigits]
      rw [ofNat_of_eq (a := a) (by omega)]
    | 3 =>
      simp only [List.take_succ_cons, List.take_zero, List.filterMap_cons, List.filterMap_nil, hvalues, ofDigits]
      rw [ofNat_of_eq (a := a) (by omega), ofNat_of_eq (a := b) (by omega)]
    | count + 4 =>
      have hmore : (count + 4) * 3 / 4 = count * 3 / 4 + 3 := by omega
      simp only [hmore, List.take_succ_cons, List.filterMap_cons, hvalues, ofDigits]
      rw [ofNat_of_eq (a := a) (by omega), ofNat_of_eq (a := b) (by omega), ofNat_of_eq (a := c) (by omega), ih]

/-- **Round trip.** -/
theorem decode_encode (bytes : List UInt8) : decode (encode bytes) = bytes := by
  have hall := decode_take bytes ((encode bytes).length + 2 * bytes.length)
  rwa [List.take_of_length_le (by omega), List.take_of_length_le (by omega)] at hall

@[simp] theorem decodeStrict_encode (bytes : List UInt8) : decodeStrict (encode bytes) = some bytes := by
  unfold decodeStrict
  rw [decode_encode, if_pos rfl]

end OpenGeni.Lib.Base64Url

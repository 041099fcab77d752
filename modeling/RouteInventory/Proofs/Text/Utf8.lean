import Mathlib
import RouteInventory.FileSystem.Reading
import RouteInventory.Text.Utf8

/-!
# Reading back encoded text

The strict reading of UTF-8 is a left inverse of the encoding (`decode_encode`). A file that holds the
encoding of a text without carriage returns is read as that text.
-/

namespace RouteInventory.Text.Utf8

/-! ### Bytes by their numbers -/

theorem toNat_ofNat {n : Nat} (h : n < 256) : (UInt8.ofNat n).toNat = n := by
  simp [UInt8.toNat_ofNat', Nat.mod_eq_of_lt h]

theorem sequenceLength_eq (b : UInt8) :
    sequenceLength b =
      if b.toNat < 0x80 then some 1
      else if 0xc2 ≤ b.toNat ∧ b.toNat ≤ 0xdf then some 2
      else if 0xe0 ≤ b.toNat ∧ b.toNat ≤ 0xef then some 3
      else if 0xf0 ≤ b.toNat ∧ b.toNat ≤ 0xf4 then some 4
      else none := by
  simp [sequenceLength, UInt8.lt_iff_toNat_lt, UInt8.le_iff_toNat_le]

theorem isContinuation_iff {b : UInt8} :
    isContinuation b = true ↔ 0x80 ≤ b.toNat ∧ b.toNat ≤ 0xbf := by
  simp [isContinuation, UInt8.le_iff_toNat_le]

/-- The second byte fits its lead if the two encode no value that is too small, none of a surrogate and
none that is too great. -/
theorem secondFits_iff {lead b : UInt8} :
    secondFits lead b = true ↔
      if lead.toNat = 0xe0 then 0xa0 ≤ b.toNat ∧ b.toNat ≤ 0xbf
      else if lead.toNat = 0xed then 0x80 ≤ b.toNat ∧ b.toNat ≤ 0x9f
      else if lead.toNat = 0xf0 then 0x90 ≤ b.toNat ∧ b.toNat ≤ 0xbf
      else if lead.toNat = 0xf4 then 0x80 ≤ b.toNat ∧ b.toNat ≤ 0x8f
      else 0x80 ≤ b.toNat ∧ b.toNat ≤ 0xbf := by
  have hlead (k : UInt8) : lead = k ↔ lead.toNat = k.toNat := UInt8.toNat_inj.symm
  simp only [secondFits, hlead, UInt8.reduceToNat]
  split_ifs <;> simp [isContinuation, UInt8.le_iff_toNat_le]

/-! ### One scalar value -/

section Next

variable {lead b c d : UInt8} (rest : Bytes)

theorem next_one (h : sequenceLength lead = some 1) :
    next (lead :: rest) = .scalar (Char.ofNat lead.toNat) rest := by
  simp [next, h]

theorem next_two (h : sequenceLength lead = some 2) (hb : secondFits lead b = true) :
    next (lead :: b :: rest) = .scalar (Char.ofNat (extend (lead.toNat % 32) b)) rest := by
  simp [next, h, hb]

theorem next_three (h : sequenceLength lead = some 3) (hb : secondFits lead b = true)
    (hc : isContinuation c = true) :
    next (lead :: b :: c :: rest) =
      .scalar (Char.ofNat (extend (extend (lead.toNat % 16) b) c)) rest := by
  simp [next, h, hb, hc]

theorem next_four (h : sequenceLength lead = some 4) (hb : secondFits lead b = true)
    (hc : isContinuation c = true) (hd : isContinuation d = true) :
    next (lead :: b :: c :: d :: rest) =
      .scalar (Char.ofNat (extend (extend (extend (lead.toNat % 8) b) c) d)) rest := by
  simp [next, h, hb, hc, hd]

end Next

/-! The bytes behind the lead of a sequence, each with six bits of its value. -/

theorem toNat_tail (m : Nat) : (UInt8.ofNat (0x80 + m % 64)).toNat = 0x80 + m % 64 := toNat_ofNat (by omega)

theorem extend_tail (bits m : Nat) : extend bits (UInt8.ofNat (0x80 + m % 64)) = bits * 64 + m % 64 := by
  rw [extend, toNat_tail]
  omega

theorem isContinuation_tail (m : Nat) : isContinuation (UInt8.ofNat (0x80 + m % 64)) = true := by
  rw [isContinuation_iff, toNat_tail]
  omega

/-- The first scalar value of an encoded text is its first character. -/
theorem next_encodeChar (x : Char) (rest : Bytes) :
    next (encodeChar x ++ rest) = .scalar x rest := by
  have hvalid : x.toNat < 0xd800 ∨ (0xdfff < x.toNat ∧ x.toNat < 0x110000) := x.valid
  have hx : Char.ofNat x.toNat = x := Char.ofNat_toNat x
  unfold encodeChar
  generalize x.toNat = n at hvalid hx
  simp only
  split_ifs with h1 h2 h3
  · have hlead := toNat_ofNat (n := n) (by omega)
    rw [List.cons_append, List.nil_append, next_one, hlead, hx]
    rw [sequenceLength_eq, hlead, if_pos h1]
  · have hlead := toNat_ofNat (n := 0xc0 + n / 64) (by omega)
    have hlength : sequenceLength (UInt8.ofNat (0xc0 + n / 64)) = some 2 := by
      rw [sequenceLength_eq, hlead]
      split_ifs <;> first | rfl | omega
    have hsecond : secondFits (UInt8.ofNat (0xc0 + n / 64)) (UInt8.ofNat (0x80 + n % 64)) = true := by
      rw [secondFits_iff, hlead, toNat_tail]
      split_ifs <;> omega
    have hvalue : (0xc0 + n / 64) % 32 * 64 + n % 64 = n := by omega
    simp only [List.cons_append, List.nil_append]
    rw [next_two rest hlength hsecond, extend_tail, hlead, hvalue, hx]
  · have hlead := toNat_ofNat (n := 0xe0 + n / 4096) (by omega)
    have hlength : sequenceLength (UInt8.ofNat (0xe0 + n / 4096)) = some 3 := by
      rw [sequenceLength_eq, hlead]
      split_ifs <;> first | rfl | omega
    have hsecond :
        secondFits (UInt8.ofNat (0xe0 + n / 4096)) (UInt8.ofNat (0x80 + n / 64 % 64)) = true := by
      rw [secondFits_iff, hlead, toNat_tail]
      split_ifs <;> omega
    have hvalue : ((0xe0 + n / 4096) % 16 * 64 + n / 64 % 64) * 64 + n % 64 = n := by omega
    simp only [List.cons_append, List.nil_append]
    rw [next_three rest hlength hsecond (isContinuation_tail n), extend_tail, extend_tail, hlead, hvalue, hx]
  · have hlead := toNat_ofNat (n := 0xf0 + n / 262144) (by omega)
    have hlength : sequenceLength (UInt8.ofNat (0xf0 + n / 262144)) = some 4 := by
      rw [sequenceLength_eq, hlead]
      split_ifs <;> first | rfl | omega
    have hsecond :
        secondFits (UInt8.ofNat (0xf0 + n / 262144)) (UInt8.ofNat (0x80 + n / 4096 % 64)) = true := by
      rw [secondFits_iff, hlead, toNat_tail]
      split_ifs <;> omega
    have hvalue :
        (((0xf0 + n / 262144) % 8 * 64 + n / 4096 % 64) * 64 + n / 64 % 64) * 64 + n % 64 = n := by omega
    simp only [List.cons_append, List.nil_append]
    rw [next_four rest hlength hsecond (isContinuation_tail _) (isContinuation_tail n), extend_tail,
      extend_tail, extend_tail, hlead, hvalue, hx]

/-! ### Texts -/

theorem decodeFrom_encode (offset : Nat) (text : List Char) :
    decodeFrom offset (encode text) = .ok text := by
  induction text generalizing offset with
  | nil =>
    rw [decodeFrom]
    rfl
  | cons c text ih =>
    rw [encode, List.flatMap_cons, ← encode, decodeFrom]
    split
    · rename_i h
      simp [next_encodeChar] at h
    · rename_i d rest h
      rw [next_encodeChar] at h
      obtain ⟨rfl, rfl⟩ := Step.scalar.inj h
      rw [ih]
      rfl
    · rename_i h
      simp [next_encodeChar] at h

theorem decode_encode (text : List Char) : decode (encode text) = .ok text := decodeFrom_encode 0 text

end RouteInventory.Text.Utf8

namespace RouteInventory

open Text

theorem Text.unifyNewlines_of_not_mem {text : List Char} (h : '\r' ∉ text) :
    unifyNewlines text = text := by
  fun_induction unifyNewlines text with
  | case1 => rfl
  | case2 rest ih => simp at h
  | case3 c rest hne ih =>
    simp only [List.mem_cons, not_or] at h
    rw [ih h.2, if_neg (Ne.symm h.1)]

/-- A file that holds an encoded text without carriage returns is read as that text. -/
theorem FileSystem.textOf_encode {text : List Char} (h : '\r' ∉ text) :
    textOf (Utf8.encode text) = .ok text := by
  rw [textOf, Utf8.decode_encode]
  exact congrArg Except.ok (unifyNewlines_of_not_mem h)

end RouteInventory

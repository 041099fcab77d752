import Mathlib
import RouteInventory.Number.Digits

/-!
# Reading back written digits

`ofDigits` is the inverse of the digits that numbers are written in, in every base up to sixteen and
with any number of zeros in front.
-/

namespace RouteInventory.Number

theorem digit?_digitChar {d : Nat} (h : d < 16) : digit? d.digitChar = some d := by
  revert d
  decide

theorem ofDigits_append (base : Nat) (digits : List Char) (c : Char) :
    ofDigits base (digits ++ [c]) = ofDigits base digits * base + (digit? c).getD 0 := by
  simp [ofDigits]

theorem ofDigits_toDigits {base : Nat} (hb : 1 < base) (hs : base ≤ 16) (n : Nat) :
    ofDigits base (Nat.toDigits base n) = n := by
  induction n using Nat.strongRecOn with
  | ind n ih =>
    rw [Nat.toDigits_eq_if hb]
    split
    · rename_i h
      simp [ofDigits, digit?_digitChar (Nat.lt_of_lt_of_le h hs)]
    · rename_i h
      have hlt : n / base < n := Nat.div_lt_self (by omega) hb
      have hmod : n % base < base := Nat.mod_lt n (by omega)
      rw [ofDigits_append, ih _ hlt, digit?_digitChar (by omega), Option.getD_some]
      exact Nat.div_add_mod' n base

theorem ofDigits_replicate_zero (base k : Nat) (digits : List Char) :
    ofDigits base (List.replicate k '0' ++ digits) = ofDigits base digits := by
  induction k with
  | zero => rfl
  | succ k ih =>
    rw [List.replicate_succ, List.cons_append]
    exact (show ofDigits base ('0' :: (List.replicate k '0' ++ digits)) = _ by
      simpa [ofDigits, digit?] using ih)

theorem ofDigits_decimal (n : Nat) : ofDigits 10 (decimal n) = n :=
  ofDigits_toDigits (by decide) (by decide) n

/-! ### Decimal digits -/

theorem isDigit_of_mem_decimal {n : Nat} {c : Char} (h : c ∈ decimal n) : isDigit c = true := by
  have hc : c.isDigit = true := Nat.isDigit_of_mem_toDigits (by decide) (by decide) h
  simpa [Char.isDigit, isDigit, Char.le_def, UInt32.le_iff_toNat_le] using hc

theorem decimal_ne_nil (n : Nat) : decimal n ≠ [] := Nat.toDigits_ne_nil

theorem decimal_zero : decimal 0 = ['0'] := Nat.toDigits_zero 10

theorem head?_decimal_ne_zero {n : Nat} (h : 0 < n) : (decimal n).head? ≠ some '0' := by
  induction n using Nat.strongRecOn with
  | ind n ih =>
    rw [decimal, Nat.toDigits_eq_if (by decide)]
    split
    · rename_i hn
      have hsmall : ∀ d, d < 10 → 0 < d → [d.digitChar].head? ≠ some '0' := by decide
      exact hsmall n hn h
    · have hlt := ih (n / 10) (by omega) (by omega)
      obtain ⟨c, rest, hc⟩ := List.exists_cons_of_ne_nil (decimal_ne_nil (n / 10))
      rw [hc] at hlt
      rwa [show Nat.toDigits 10 (n / 10) = c :: rest from hc]

theorem length_decimal_le_iff {n k : Nat} (hk : 0 < k) :
    (decimal n).length ≤ k ↔ n < 10 ^ k := Nat.length_toDigits_le_iff (by decide) hk

theorem isBeyond_some_eq_false {limit digits : Nat} :
    isBeyond (some limit) digits = false ↔ digits ≤ limit := by
  simp [isBeyond]

/-- A number keeps to the greatest number of digits if it is less than their power of ten. -/
theorem isBeyond_maxDigits {n : Nat} (h : n < 10 ^ maxDigits) :
    isBeyond (some maxDigits) (decimal n).length = false :=
  isBeyond_some_eq_false.mpr ((length_decimal_le_iff (by decide)).mpr h)

theorem lt_of_decide_pow {k n : Nat} (h : decide (Nat.pow 10 k ≤ n) = false) : n < 10 ^ k :=
  Nat.lt_of_not_le (of_decide_eq_false h)

theorem isBeyond_of_isTooLong {n : Int} (h : isTooLong n = false) :
    isBeyond (some maxDigits) (decimal n.natAbs).length = false := isBeyond_maxDigits (lt_of_decide_pow h)

/-! ### Hexadecimal digits of a fixed width -/

theorem digit?_isSome_of_mem_hex {width n : Nat} {c : Char} (h : c ∈ hex width n) :
    (digit? c).isSome := by
  rcases List.mem_append.mp h with h | h
  · rw [(List.mem_replicate.mp h).2]
    decide
  · induction n using Nat.strongRecOn with
    | ind n ih =>
      rw [Nat.toDigits_eq_if (by decide)] at h
      split at h
      · rename_i hn
        rw [List.mem_singleton.mp h, digit?_digitChar hn]
        rfl
      · rcases List.mem_append.mp h with h' | h'
        · exact ih (n / 16) (by omega) (List.mem_append_right _ h') h'
        · rw [List.mem_singleton.mp h', digit?_digitChar (by omega)]
          rfl

theorem length_hex {width n : Nat} (hw : 0 < width) (h : n < 16 ^ width) :
    (hex width n).length = width := by
  have := (Nat.length_toDigits_le_iff (b := 16) (by decide) hw).mpr h
  simp only [hex, List.length_append, List.length_replicate]
  omega

theorem ofDigits_hex (width n : Nat) : ofDigits 16 (hex width n) = n := by
  rw [hex, ofDigits_replicate_zero, ofDigits_toDigits (by decide) (by decide)]

end RouteInventory.Number

import Mathlib.Algebra.Order.Ring.Nat
import Mathlib.Data.List.Basic
import Mathlib.Tactic.Common

/-!
# Decimal numerals in ASCII

The value of a string of ASCII digits, read from the left (`numeralFrom`), and the numeral of a
number (`asciiDigits`). A reader that keeps a running value is described by `numeralFrom_append`; the
running value never decreases (`le_numeralFrom`) and is bounded by the number of digits
(`numeralFrom_lt`). The numeral of a number is read back as that number (`numeral_asciiDigits`) and
has no leading zero (`canonical_asciiDigits`).
-/

set_option autoImplicit false

namespace Rpcpio.Library

/-- An ASCII digit. -/
def IsDigit (c : UInt8) : Prop := 48 ≤ c ∧ c ≤ 57

instance (c : UInt8) : Decidable (IsDigit c) := inferInstanceAs (Decidable (_ ∧ _))

/-- The value of a digit. -/
def digitValue (c : UInt8) : Nat := c.toNat - 48

/-- The value of the digits behind a value that was read before. -/
def numeralFrom (v : Nat) (s : List UInt8) : Nat := s.foldl (fun v c => v * 10 + digitValue c) v

/-- The value of a string of digits. -/
def numeral (s : List UInt8) : Nat := numeralFrom 0 s

/-- The numeral of a number. -/
def asciiDigits (n : Nat) : List UInt8 := (Nat.toDigits 10 n).map fun c => UInt8.ofNat c.toNat

theorem IsDigit.digitValue_lt {c : UInt8} (h : IsDigit c) : digitValue c < 10 := by
  obtain ⟨_, hle⟩ := h
  rw [UInt8.le_iff_toNat_le] at hle
  have hbyte : c.toNat ≤ 57 := hle
  rw [digitValue]
  omega

theorem not_isDigit_iff {c : UInt8} : ¬ IsDigit c ↔ c < 48 ∨ 57 < c := by
  rw [IsDigit, not_and_or, UInt8.not_le, UInt8.not_le]

@[simp] theorem numeralFrom_nil (v : Nat) : numeralFrom v [] = v := rfl

theorem numeralFrom_cons (v : Nat) (c : UInt8) (s : List UInt8) :
    numeralFrom v (c :: s) = numeralFrom (v * 10 + digitValue c) s := by
  rw [numeralFrom, List.foldl_cons, numeralFrom]

theorem numeralFrom_append (v : Nat) (s t : List UInt8) :
    numeralFrom v (s ++ t) = numeralFrom (numeralFrom v s) t := List.foldl_append

/-- The running value never decreases. -/
theorem le_numeralFrom (v : Nat) (s : List UInt8) : v ≤ numeralFrom v s := by
  induction s generalizing v with
  | nil => exact Nat.le_refl v
  | cons c s ih =>
      have hle := ih (v * 10 + digitValue c)
      rw [numeralFrom_cons]
      omega

/-- A digit that is read leaves the bound on what may follow. -/
theorem digit_bound {d : Nat} (hd : d < 10) (v n : Nat) :
    (v * 10 + d + 1) * 10 ^ n ≤ (v + 1) * 10 ^ (n + 1) :=
  calc (v * 10 + d + 1) * 10 ^ n
      ≤ ((v + 1) * 10) * 10 ^ n := Nat.mul_le_mul_right _ (by omega)
    _ = (v + 1) * 10 ^ (n + 1) := by rw [Nat.pow_succ, Nat.mul_assoc, Nat.mul_comm 10]

/-- The number of digits bounds the value. -/
theorem numeralFrom_lt {s : List UInt8} (hs : ∀ c ∈ s, IsDigit c) (v : Nat) :
    numeralFrom v s < (v + 1) * 10 ^ s.length := by
  induction s generalizing v with
  | nil =>
      rw [numeralFrom_nil, List.length_nil, Nat.pow_zero]
      omega
  | cons c s ih =>
      have hc := (hs c List.mem_cons_self).digitValue_lt
      have hrest := ih (fun d hd => hs d (List.mem_cons_of_mem c hd)) (v * 10 + digitValue c)
      calc numeralFrom v (c :: s)
          < (v * 10 + digitValue c + 1) * 10 ^ s.length := hrest
        _ ≤ (v + 1) * 10 ^ (c :: s).length := digit_bound hc v s.length

theorem numeral_lt {s : List UInt8} (hs : ∀ c ∈ s, IsDigit c) : numeral s < 10 ^ s.length := by
  have h := numeralFrom_lt hs 0
  rw [Nat.zero_add, Nat.one_mul] at h
  exact h

/-! ## The numeral of a number -/

/-- The byte of a digit. -/
theorem digitChar_byte {d : Nat} (hd : d < 10) :
    (UInt8.ofNat d.digitChar.toNat).toNat = 48 + d := by
  have h : ∀ d : Fin 10, (UInt8.ofNat (d : Nat).digitChar.toNat).toNat = 48 + d := by decide
  exact h ⟨d, hd⟩

theorem isDigit_digitChar {d : Nat} (hd : d < 10) : IsDigit (UInt8.ofNat d.digitChar.toNat) := by
  rw [IsDigit, UInt8.le_iff_toNat_le, UInt8.le_iff_toNat_le, digitChar_byte hd]
  exact ⟨Nat.le_add_right _ _, by show 48 + d ≤ 57; omega⟩

theorem asciiDigits_of_lt {n : Nat} (hn : n < 10) :
    asciiDigits n = [UInt8.ofNat n.digitChar.toNat] := by
  rw [asciiDigits, Nat.toDigits_of_lt_base hn, List.map_singleton]

/-- A numeral is the numeral of the tenth part and the last digit. -/
theorem asciiDigits_of_le {n : Nat} (hn : 10 ≤ n) :
    asciiDigits n = asciiDigits (n / 10) ++ [UInt8.ofNat (n % 10).digitChar.toNat] := by
  rw [asciiDigits, Nat.toDigits_of_base_le (by decide) hn, List.map_append, List.map_singleton]
  rfl

/-- A numeral without leading zeros. -/
structure Canonical (s : List UInt8) (n : Nat) : Prop where
  digits : ∀ c ∈ s, IsDigit c
  value : numeral s = n
  leading : ∃ c rest, s = c :: rest ∧ (c = 48 → rest = [])

theorem asciiDigits_digits (n : Nat) : ∀ c ∈ asciiDigits n, IsDigit c := by
  induction n using Nat.strongRecOn with
  | _ n ih =>
      intro c hc
      rcases Nat.lt_or_ge n 10 with hn | hn
      · rw [asciiDigits_of_lt hn, List.mem_singleton] at hc
        exact hc ▸ isDigit_digitChar hn
      · rw [asciiDigits_of_le hn] at hc
        rcases List.mem_append.1 hc with hc | hc
        · exact ih (n / 10) (by omega) c hc
        · rw [List.mem_singleton] at hc
          exact hc ▸ isDigit_digitChar (Nat.mod_lt n (by decide))

/-- **A numeral is read back as its number.** -/
theorem numeral_asciiDigits (n : Nat) : numeral (asciiDigits n) = n := by
  induction n using Nat.strongRecOn with
  | _ n ih =>
      rcases Nat.lt_or_ge n 10 with hn | hn
      · rw [asciiDigits_of_lt hn, numeral, numeralFrom_cons, numeralFrom_nil, digitValue,
          digitChar_byte hn]
        omega
      · rw [asciiDigits_of_le hn, numeral, numeralFrom_append, numeralFrom_cons, numeralFrom_nil]
        have hquot : numeralFrom 0 (asciiDigits (n / 10)) = n / 10 := ih (n / 10) (by omega)
        rw [hquot, digitValue, digitChar_byte (Nat.mod_lt n (by decide))]
        omega

/-- A numeral starts with zero only if it is that of zero. -/
theorem asciiDigits_leading (n : Nat) :
    ∃ c rest, asciiDigits n = c :: rest ∧ (c = 48 → n = 0 ∧ rest = []) := by
  induction n using Nat.strongRecOn with
  | _ n ih =>
      rcases Nat.lt_or_ge n 10 with hn | hn
      · refine ⟨_, [], asciiDigits_of_lt hn, fun hzero => ⟨?_, rfl⟩⟩
        have hbyte := digitChar_byte hn
        rw [hzero] at hbyte
        have h48 : (48 : UInt8).toNat = 48 := rfl
        omega
      · obtain ⟨c, rest, hhead, hzero⟩ := ih (n / 10) (by omega)
        refine ⟨c, rest ++ [_], by rw [asciiDigits_of_le hn, hhead, List.cons_append], fun hc => ?_⟩
        -- the tenth part of a number with two digits is positive
        obtain ⟨hquot, _⟩ := hzero hc
        omega

/-- **The numeral of a number has no leading zero.** -/
theorem canonical_asciiDigits (n : Nat) : Canonical (asciiDigits n) n := by
  obtain ⟨c, rest, hhead, hzero⟩ := asciiDigits_leading n
  exact ⟨asciiDigits_digits n, numeral_asciiDigits n, c, rest, hhead, fun hc => (hzero hc).2⟩

/-- The length of a numeral. -/
theorem length_asciiDigits_le_iff {n k : Nat} (hk : 0 < k) :
    (asciiDigits n).length ≤ k ↔ n < 10 ^ k := by
  rw [asciiDigits, List.length_map]
  exact Nat.length_toDigits_le_iff (by decide) hk

theorem asciiDigits_ne_nil (n : Nat) : asciiDigits n ≠ [] := by
  rw [asciiDigits, Ne, List.map_eq_nil_iff]
  exact Nat.toDigits_ne_nil

end Rpcpio.Library

import Rpcpio.Library.Numeral
import Rpcpio.Protocol.Timeout

/-!
# The grammar of the `grpc-timeout` header

A header is one to eight digits and a unit, and stands for the value times the unit (`IsTimeout`).
`parseTimeout` accepts these headers and no others, and none of its intermediate values wraps
(`parseTimeout_accepts_grammar`). The digit loop is described by `timeoutDigits_eq_some_iff`, the
division that guards the product by `timeout_guard_iff`.
-/

set_option autoImplicit false

namespace Rpcpio.Protocol

open Library

/-- A header of the grammar and the nanoseconds it stands for. -/
def IsTimeout (s : Bytes) (n : Nat) : Prop :=
  ∃ (digits : Bytes) (u : TimeoutUnit), u ∈ kUnits ∧ s = digits ++ [u.sym] ∧
    1 ≤ digits.length ∧ digits.length ≤ 8 ∧ (∀ c ∈ digits, IsDigit c) ∧
    n = numeral digits * u.nsPer ∧ n ≤ 2 ^ 63 - 1

/-! ## The digit loop -/

theorem timeoutDigits_cons_of_digit {c : UInt8} (hc : IsDigit c) (val : Nat) (cs : Bytes) :
    timeoutDigits val (c :: cs) = timeoutDigits (val * 10 + digitValue c) cs :=
  if_neg fun hbad => not_isDigit_iff.2 hbad hc

theorem timeoutDigits_cons_of_not {c : UInt8} (hc : ¬ IsDigit c) (val : Nat) (cs : Bytes) :
    timeoutDigits val (c :: cs) = none :=
  if_pos (not_isDigit_iff.1 hc)

/-- The loop accepts digits only, and computes their value behind `val`. -/
theorem timeoutDigits_eq_some_iff {val v : Nat} {s : Bytes} :
    timeoutDigits val s = some v ↔ (∀ c ∈ s, IsDigit c) ∧ numeralFrom val s = v := by
  induction s generalizing val with
  | nil => simp [timeoutDigits]
  | cons c s ih =>
      by_cases hc : IsDigit c
      · rw [timeoutDigits_cons_of_digit hc, ih, numeralFrom_cons, List.forall_mem_cons,
          and_iff_right hc]
      · rw [timeoutDigits_cons_of_not hc, List.forall_mem_cons]
        -- the loop has returned at a byte that is no digit
        constructor
        · intro h
          cases h
        · intro h
          exact absurd h.1.1 hc

theorem word_eq_some {n : Nat} (h : n < 2 ^ 64) : word n = some n := if_pos h

/-- No value of the loop wraps as long as the bound on what is left keeps it below a word. -/
theorem timeoutDigitsChecked_eq {val : Nat} {s : Bytes}
    (h : (val + 1) * 10 ^ s.length ≤ 2 ^ 64) :
    timeoutDigitsChecked val s = some (timeoutDigits val s) := by
  induction s generalizing val with
  | nil => rfl
  | cons c s ih =>
      by_cases hc : IsDigit c
      · have hdigit := hc.digitValue_lt
        have hstep : (val * 10 + digitValue c + 1) * 10 ^ s.length ≤ 2 ^ 64 :=
          (digit_bound hdigit val s.length).trans h
        have hpos : 1 ≤ 10 ^ s.length := Nat.one_le_pow _ _ (by decide)
        have hnext : val * 10 + digitValue c + 1 ≤ 2 ^ 64 :=
          (Nat.le_mul_of_pos_right _ hpos).trans hstep
        have hunfold : timeoutDigitsChecked val (c :: s) =
            (word (val * 10)).bind fun tens =>
              (word (tens + (c.toNat - 48))).bind fun next => timeoutDigitsChecked next s :=
          if_neg fun hbad => not_isDigit_iff.2 hbad hc
        rw [hunfold, word_eq_some (by omega), Option.bind_some,
          show c.toNat - 48 = digitValue c from rfl, word_eq_some (by omega), Option.bind_some,
          ih hstep, timeoutDigits_cons_of_digit hc]
      · rw [timeoutDigits_cons_of_not hc]
        exact if_pos (not_isDigit_iff.1 hc)

/-! ## The unit -/

/-- The `switch` knows the symbols of the table, with their nanoseconds. -/
theorem unitNanoseconds_eq_some_iff {c : UInt8} {n : Nat} :
    unitNanoseconds c = some n ↔ (⟨c, n⟩ : TimeoutUnit) ∈ kUnits := by
  simp only [unitNanoseconds, kUnits, List.mem_cons, List.not_mem_nil, or_false,
    TimeoutUnit.mk.injEq]
  by_cases hH : c = 72
  · subst hH; simp [eq_comm]
  by_cases hM : c = 77
  · subst hM; simp [eq_comm]
  by_cases hS : c = 83
  · subst hS; simp [eq_comm]
  by_cases hm : c = 109
  · subst hm; simp [eq_comm]
  by_cases hu : c = 117
  · subst hu; simp [eq_comm]
  by_cases hn : c = 110
  · subst hn; simp [eq_comm]
  simp [hH, hM, hS, hm, hu, hn]

theorem kUnits_pos {u : TimeoutUnit} (hu : u ∈ kUnits) : 0 < u.nsPer := by
  have h : ∀ u ∈ kUnits, 0 < u.nsPer := by decide
  exact h u hu

/-! ## The whole header -/

/-- The division rejects exactly the products that do not fit. -/
theorem timeout_guard_iff {val nsPer : Nat} (hpos : 0 < nsPer) :
    (2 ^ 63 - 1) / nsPer < val ↔ ¬ val * nsPer ≤ 2 ^ 63 - 1 := by
  rw [Nat.div_lt_iff_lt_mul hpos, Nat.not_le]

/-- The digits of a header of the grammar give its value, if it fits. -/
theorem parseTimeout_of_digits {digits : Bytes} {u : TimeoutUnit} (hu : u ∈ kUnits)
    (hpos : 1 ≤ digits.length) (hmax : digits.length ≤ 8) (hdigits : ∀ c ∈ digits, IsDigit c) :
    parseTimeout (digits ++ [u.sym]) =
      if numeral digits * u.nsPer ≤ 2 ^ 63 - 1 then some (numeral digits * u.nsPer) else none := by
  have hlen : ¬ (digits.isEmpty ∨ kMaxDigits < digits.length) := by
    rw [List.isEmpty_iff, ← List.length_eq_zero_iff, kMaxDigits]
    omega
  have hval : timeoutDigits 0 digits = some (numeral digits) :=
    timeoutDigits_eq_some_iff.2 ⟨hdigits, rfl⟩
  have hunit : unitNanoseconds u.sym = some u.nsPer := unitNanoseconds_eq_some_iff.2 hu
  rw [parseTimeout_append, if_neg hlen, hval, hunit]
  simp only [timeout_guard_iff (kUnits_pos hu), ite_not]

theorem IsTimeout.parse {s : Bytes} {n : Nat} (h : IsTimeout s n) : parseTimeout s = some n := by
  obtain ⟨digits, u, hu, rfl, hpos, hmax, hdigits, rfl, hfits⟩ := h
  rw [parseTimeout_of_digits hu hpos hmax hdigits, if_pos hfits]

theorem isTimeout_of_parse {s : Bytes} {n : Nat} (h : parseTimeout s = some n) :
    IsTimeout s n := by
  rcases List.eq_nil_or_concat s with rfl | ⟨digits, unit, rfl⟩
  · cases h
  rw [List.concat_eq_append] at h ⊢
  rw [parseTimeout_append] at h
  -- the early return for the length, then the digits, the unit and the guard
  by_cases hlen : digits.isEmpty ∨ kMaxDigits < digits.length
  · rw [if_pos hlen] at h
    cases h
  rw [if_neg hlen] at h
  cases hval : timeoutDigits 0 digits with
  | none => rw [hval] at h; cases h
  | some val =>
      cases hunit : unitNanoseconds unit with
      | none => rw [hval, hunit] at h; cases h
      | some nsPer =>
          rw [hval, hunit] at h
          have hu := unitNanoseconds_eq_some_iff.1 hunit
          obtain ⟨hdigits, rfl⟩ := timeoutDigits_eq_some_iff.1 hval
          simp only [timeout_guard_iff (kUnits_pos hu), ite_not] at h
          split at h
          next hfits =>
            cases h
            rw [List.isEmpty_iff, ← List.length_eq_zero_iff, kMaxDigits] at hlen
            exact ⟨digits, ⟨unit, nsPer⟩, hu, rfl, by omega, by omega, hdigits, rfl, hfits⟩
          next => cases h

theorem parseTimeout_eq_some_iff {s : Bytes} {n : Nat} :
    parseTimeout s = some n ↔ IsTimeout s n := ⟨isTimeout_of_parse, IsTimeout.parse⟩

/-- Eight digits stay far below a word, and so does the product that passes the guard. -/
theorem parseTimeoutChecked_eq (s : Bytes) : parseTimeoutChecked s = some (parseTimeout s) := by
  rcases List.eq_nil_or_concat s with rfl | ⟨digits, unit, rfl⟩
  · rfl
  rw [List.concat_eq_append, parseTimeoutChecked_append, parseTimeout_append]
  by_cases hlen : digits.isEmpty ∨ kMaxDigits < digits.length
  · rw [if_pos hlen, if_pos hlen]
  have hshort : digits.length ≤ 8 := by
    rw [kMaxDigits] at hlen
    omega
  have hbound : (0 + 1) * 10 ^ digits.length ≤ 2 ^ 64 := by
    have hpow : 10 ^ digits.length ≤ 10 ^ 8 := Nat.pow_le_pow_right (by decide) hshort
    omega
  rw [if_neg hlen, if_neg hlen, timeoutDigitsChecked_eq hbound, Option.bind_some]
  cases timeoutDigits 0 digits with
  | none => rfl
  | some val =>
      cases hunit : unitNanoseconds unit with
      | none => rfl
      | some nsPer =>
          have hguard : (2 ^ 63 - 1) / nsPer < val ↔ ¬ val * nsPer ≤ 2 ^ 63 - 1 :=
            timeout_guard_iff (kUnits_pos (unitNanoseconds_eq_some_iff.1 hunit))
          simp only [hguard, ite_not]
          split
          next hfits => rw [word_eq_some (by omega), Option.map_some]
          next => rfl

/-- **`ParseTimeout` accepts its grammar**: it returns a number of nanoseconds exactly for the
headers that stand for it, nothing for any other, and none of its 64-bit values wraps. -/
theorem parseTimeout_accepts_grammar (s : Bytes) :
    (∀ n, parseTimeout s = some n ↔ IsTimeout s n) ∧
      (parseTimeout s = none ↔ ¬ ∃ n, IsTimeout s n) ∧
      parseTimeoutChecked s = some (parseTimeout s) := by
  refine ⟨fun n => parseTimeout_eq_some_iff, ?_, parseTimeoutChecked_eq s⟩
  rw [Option.eq_none_iff_forall_ne_some, not_exists]
  exact forall_congr' fun n => not_congr parseTimeout_eq_some_iff

end Rpcpio.Protocol

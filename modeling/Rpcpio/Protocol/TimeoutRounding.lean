import Rpcpio.Library.Scale
import Rpcpio.Protocol.TimeoutGrammar

/-!
# Rounding of the `grpc-timeout` header

The units of `kUnits` form a scale, and the loop of `formatTimeout` follows the rules of the scale:
it skips a unit that is too fine or superfluous and rounds up otherwise (`formatUnits_tightest`). So
the header of a duration is the least one that is not shorter (`formatTimeout_tightest`). It is read
back without shortening up to `kMaxHours`; every longer duration is written as one hour more, which
the reader rejects (`parseTimeout_formatTimeout`).
-/

set_option autoImplicit false

namespace Rpcpio.Protocol

open Library

/-! ## The loop over the units -/

theorem isScale_kUnits : IsScale (kUnits.map TimeoutUnit.nsPer) := ⟨by decide, by decide⟩

/-- The sum of a duration and a unit does not wrap. -/
theorem timeout_sum_lt {ns : Nat} (hmax : ns ≤ 2 ^ 63 - 1) {u : TimeoutUnit} (hu : u ∈ kUnits) :
    ns + u.nsPer < 2 ^ 64 := by
  have hunit : ∀ u ∈ kUnits, u.nsPer ≤ 3600000000000 := by decide
  have hle := hunit u hu
  omega

/-- Without wrapping, the value of a unit is the rounded up quotient. -/
theorem timeoutValue_eq {ns : Nat} {u : TimeoutUnit} (h : ns + u.nsPer < 2 ^ 64) :
    timeoutValue ns u.nsPer = ns ⌈/⌉ u.nsPer := by
  rw [timeoutValue, Nat.mod_eq_of_lt (by omega), Nat.ceilDiv_eq_add_pred_div]

/-- **The loop of `FormatTimeout`** writes the tightest value of the scale that is left, as long as
its coarsest unit fits. -/
theorem formatUnits_tightest {ns : Nat} {us : List TimeoutUnit} (hne : us ≠ [])
    (hscale : IsScale (us.map TimeoutUnit.nsPer)) (hsum : ∀ u ∈ us, ns + u.nsPer < 2 ^ 64)
    (hlast : ∀ u, us.getLast? = some u → ns ⌈/⌉ u.nsPer ≤ kMaxTimeoutValue) :
    ∃ (v : Nat) (u : TimeoutUnit), u ∈ us ∧ formatUnits ns us = decimal v ++ [u.sym] ∧
      Tightest kMaxTimeoutValue (us.map TimeoutUnit.nsPer) ns v u.nsPer := by
  induction us with
  | nil => exact absurd rfl hne
  | cons u coarser ih =>
      have hval := timeoutValue_eq (hsum u List.mem_cons_self)
      rw [List.map_cons] at hscale ⊢
      -- what the rest of the loop writes, if there is a coarser unit
      have hrest : coarser ≠ [] → ∃ (v : Nat) (c : TimeoutUnit), c ∈ coarser ∧
          formatUnits ns coarser = decimal v ++ [c.sym] ∧
          Tightest kMaxTimeoutValue (coarser.map TimeoutUnit.nsPer) ns v c.nsPer := by
        intro hcoarser
        apply ih hcoarser hscale.tail (fun c hc => hsum c (List.mem_cons_of_mem u hc))
        intro c hc
        apply hlast
        obtain ⟨next, more, rfl⟩ := List.exists_cons_of_ne_nil hcoarser
        rw [List.getLast?_cons_cons]
        exact hc
      by_cases hlarge : kMaxTimeoutValue < timeoutValue ns u.nsPer
      · -- too many digits: the last unit is not the one
        have hcoarser : coarser ≠ [] := by
          rintro rfl
          have hfits := hlast u rfl
          omega
        obtain ⟨v, c, hc, hformat, htight⟩ := hrest hcoarser
        refine ⟨v, c, List.mem_cons_of_mem u hc, ?_, ?_⟩
        · rw [formatUnits, if_pos hlarge, hformat]
        · rw [hval] at hlarge
          exact Tightest.skip hscale hlarge htight
      · have hfits : ns ⌈/⌉ u.nsPer ≤ kMaxTimeoutValue := by
          rw [← hval]
          exact Nat.not_lt.1 hlarge
        by_cases hexact : (coarser.head?.any fun next => ns % next.nsPer = 0) = true
        · -- the next unit is exact
          obtain ⟨next, hnext, hzero⟩ := (Option.any_eq_true _ _).1 hexact
          have hmem : next ∈ coarser := List.mem_of_mem_head? hnext
          obtain ⟨v, c, hc, hformat, htight⟩ := hrest (List.ne_nil_of_mem hmem)
          refine ⟨v, c, List.mem_cons_of_mem u hc, ?_, ?_⟩
          · rw [formatUnits, if_neg hlarge, if_pos hexact, hformat]
          · exact Tightest.exact hscale hfits (List.mem_map_of_mem hmem)
              (Nat.dvd_of_mod_eq_zero (of_decide_eq_true hzero)) htight
        · refine ⟨timeoutValue ns u.nsPer, u, List.mem_cons_self, ?_, ?_⟩
          · rw [formatUnits, if_neg hlarge, if_neg hexact]
          · rw [hval]
            exact Tightest.roundUp hscale hfits

/-- What `formatTimeout` writes for the durations of `std::chrono::nanoseconds`. -/
theorem formatTimeout_spec {d : Int} (hpos : 1 ≤ d) (hmax : d ≤ 2 ^ 63 - 1) :
    ∃ (v : Nat) (u : TimeoutUnit), u ∈ kUnits ∧ formatTimeout d = asciiDigits v ++ [u.sym] ∧
      Tightest kMaxTimeoutValue (kUnits.map TimeoutUnit.nsPer) d.toNat v u.nsPer := by
  rw [formatTimeout, if_neg (by omega)]
  refine formatUnits_tightest (by decide) isScale_kUnits ?_ ?_
  · intro u hu
    exact timeout_sum_lt (by omega) hu
  · -- every duration fits in hours
    intro u hu
    have hhours : u = ⟨72, 3600000000000⟩ := (Option.some.inj hu).symm
    rw [hhours]
    apply ceilDiv_le_of_le_mul (by decide)
    have hmost : d.toNat ≤ 99999999 * 3600000000000 := by omega
    exact hmost

/-- **`FormatTimeout` is the tightest rounding outward**: a canonical value of at most eight digits
and a unit, not shorter than the duration, such that nothing that eight digits and a unit express
lies between; and no sum of a duration and a unit wraps. -/
theorem formatTimeout_tightest {d : Int} (hpos : 1 ≤ d) (hmax : d ≤ 2 ^ 63 - 1) :
    (∃ (digits : Bytes) (v : Nat) (u : TimeoutUnit), u ∈ kUnits ∧
      formatTimeout d = digits ++ [u.sym] ∧ Canonical digits v ∧ 1 ≤ v ∧ v ≤ 99999999 ∧
      d ≤ v * u.nsPer ∧
      ∀ (other : Bytes) (c : TimeoutUnit), (∀ b ∈ other, IsDigit b) → other.length ≤ 8 →
        c ∈ kUnits → ¬ (d ≤ numeral other * c.nsPer ∧ numeral other * c.nsPer < v * u.nsPer)) ∧
      ∀ u ∈ kUnits, d.toNat + u.nsPer < 2 ^ 64 := by
  refine ⟨?_, fun u hu => timeout_sum_lt (by omega) hu⟩
  obtain ⟨v, u, hu, hformat, htight⟩ := formatTimeout_spec hpos hmax
  have hbound := htight.bound
  refine ⟨asciiDigits v, v, u, hu, hformat, canonical_asciiDigits v, ?_, htight.value, ?_, ?_⟩
  · -- a value of zero would be below the duration
    rcases Nat.eq_zero_or_pos v with rfl | hv
    · rw [Nat.zero_mul] at hbound
      omega
    · exact hv
  · have hcast : ((d.toNat : Nat) : Int) ≤ ((v * u.nsPer : Nat) : Int) := Int.ofNat_le.2 hbound
    rw [Int.toNat_of_nonneg (by omega), Int.natCast_mul] at hcast
    exact hcast
  · rintro other c hdigits hlen hc ⟨hge, hlt⟩
    have hvalue : numeral other ≤ kMaxTimeoutValue := by
      have hnum := numeral_lt hdigits
      have hpow : 10 ^ other.length ≤ 10 ^ 8 := Nat.pow_le_pow_right (by decide) hlen
      rw [kMaxTimeoutValue]
      omega
    have hleast := htight.least (numeral other * c.nsPer)
      ⟨numeral other, c.nsPer, hvalue, List.mem_map_of_mem hc, rfl⟩
      (Int.toNat_le.2 (by rw [Int.natCast_mul]; exact hge))
    have hcast : ((v * u.nsPer : Nat) : Int) ≤ ((numeral other * c.nsPer : Nat) : Int) :=
      Int.ofNat_le.2 hleast
    rw [Int.natCast_mul, Int.natCast_mul] at hcast
    omega

theorem formatTimeout_tightest_seconds :
    (1 : Int) ≤ 100000000001 ∧ (100000000001 : Int) ≤ 2 ^ 63 - 1 ∧
      ∀ u ∈ kUnits, (100000000001 : Int).toNat + u.nsPer < 2 ^ 64 :=
  ⟨by decide, by decide, (formatTimeout_tightest (by decide) (by decide)).2⟩

/-! ## Reading the header back -/

/-- A formatted header is read back, unless it stands for more than a signed word holds. -/
theorem parseTimeout_formatted {v : Nat} {u : TimeoutUnit} (hu : u ∈ kUnits)
    (hv : v ≤ kMaxTimeoutValue) :
    parseTimeout (asciiDigits v ++ [u.sym]) =
      if v * u.nsPer ≤ 2 ^ 63 - 1 then some (v * u.nsPer) else none := by
  have hlen : (asciiDigits v).length ≤ 8 := by
    rw [length_asciiDigits_le_iff (by decide)]
    rw [kMaxTimeoutValue] at hv
    omega
  have hne : 1 ≤ (asciiDigits v).length := List.length_pos_of_ne_nil (asciiDigits_ne_nil v)
  rw [parseTimeout_of_digits hu hne hlen (asciiDigits_digits v), numeral_asciiDigits]

/-- Beyond the reach of the finer units, a value is one of hours. -/
theorem hours_of_large {v : Nat} {u : TimeoutUnit} (hu : u ∈ kUnits) (hv : v ≤ kMaxTimeoutValue)
    (hlarge : 99999999 * 60000000000 < v * u.nsPer) : u = ⟨72, 3600000000000⟩ := by
  rw [kMaxTimeoutValue] at hv
  have hfine : u.nsPer ≤ 60000000000 ∨ u = ⟨72, 3600000000000⟩ := by
    have hcases : ∀ u ∈ kUnits, u.nsPer ≤ 60000000000 ∨ u = ⟨72, 3600000000000⟩ := by decide
    exact hcases u hu
  rcases hfine with hfine | hhours
  · have hle := Nat.mul_le_mul hv hfine
    omega
  · exact hhours

/-- The number of whole hours in a signed word of nanoseconds. -/
def kMaxHours : Nat := 2562047

/-- A whole number of hours is expressible. -/
theorem expressible_hours {h : Nat} (hh : h ≤ kMaxTimeoutValue) :
    Expressible kMaxTimeoutValue (kUnits.map TimeoutUnit.nsPer) (h * 3600000000000) :=
  ⟨h, 3600000000000, hh, by decide, rfl⟩

/-- Beyond the whole hours of a signed word, the header is that of the next hour. -/
theorem formatTimeout_of_large {d : Int} (hlarge : kMaxHours * 3600000000000 < d)
    (hmax : d ≤ 2 ^ 63 - 1) : formatTimeout d = text "2562048H" := by
  rw [kMaxHours] at hlarge
  obtain ⟨v, u, hu, hformat, htight⟩ := formatTimeout_spec (by omega) hmax
  have hbound := htight.bound
  have hhours : u = ⟨72, 3600000000000⟩ := hours_of_large hu htight.value (by omega)
  have hleast := htight.least _ (expressible_hours (h := 2562048) (by decide)) (by omega)
  rw [hhours] at hformat hbound hleast
  have hv : v = 2562048 := by
    have hlow : d.toNat ≤ v * 3600000000000 := hbound
    have hhigh : v * 3600000000000 ≤ 2562048 * 3600000000000 := hleast
    omega
  rw [hformat, hv]
  decide

/-- **The round trip of a duration**: up to the whole hours of a signed word it is read back without
shortening; a longer one is written as one hour more, and rejected. -/
theorem parseTimeout_formatTimeout {d : Int} (hpos : 1 ≤ d) (hmax : d ≤ 2 ^ 63 - 1) :
    (d ≤ kMaxHours * 3600000000000 →
      ∃ n : Nat, parseTimeout (formatTimeout d) = some n ∧ d ≤ n) ∧
    (kMaxHours * 3600000000000 < d →
      formatTimeout d = text "2562048H" ∧ parseTimeout (formatTimeout d) = none) := by
  constructor
  · intro hsmall
    rw [kMaxHours] at hsmall
    obtain ⟨v, u, hu, hformat, htight⟩ := formatTimeout_spec hpos hmax
    have hbound := htight.bound
    -- the whole hours are expressible and not below `d`
    have hleast := htight.least _ (expressible_hours (h := 2562047) (by decide)) (by omega)
    refine ⟨v * u.nsPer, ?_, by omega⟩
    rw [hformat, parseTimeout_formatted hu htight.value, if_pos (by omega)]
  · intro hlarge
    have hformat := formatTimeout_of_large hlarge hmax
    refine ⟨hformat, ?_⟩
    rw [hformat]
    decide

theorem parseTimeout_formatTimeout_second :
    ∃ n : Nat, parseTimeout (formatTimeout 1000000000) = some n ∧ (1000000000 : Int) ≤ n :=
  (parseTimeout_formatTimeout (by decide) (by decide)).1 (by decide)

/-- The longest duration is not read back. -/
theorem parseTimeout_formatTimeout_max :
    ¬ ∀ d : Int, 1 ≤ d → d ≤ 2 ^ 63 - 1 →
      ∃ n : Nat, parseTimeout (formatTimeout d) = some n ∧ d ≤ n := by
  intro hall
  obtain ⟨n, hn, _⟩ := hall (2 ^ 63 - 1) (by decide) (by decide)
  rw [formatTimeout_of_large (by decide) (by decide)] at hn
  cases hn

end Rpcpio.Protocol

import Mathlib.Algebra.Order.Floor.Div
import Mathlib.Data.List.Basic
import Mathlib.Tactic.Common

/-!
# Rounding up to a unit

A scale is a list of units, each of which divides the coarser ones behind it. A quantity is expressed
by a value of at most `limit` and a unit. `Tightest` says that no expressible quantity lies between
`n` and the one that was chosen. Three rules find it from the finest unit on: a unit in which `n` is
too large is of no use (`Tightest.skip`), a unit is not needed if a coarser one is exact
(`Tightest.exact`), and otherwise rounding up in the finest unit is best (`Tightest.roundUp`).
-/

set_option autoImplicit false

namespace Rpcpio.Library

/-- Units from the finest to the coarsest, each dividing the ones behind it. -/
structure IsScale (us : List Nat) : Prop where
  pos : ∀ u ∈ us, 0 < u
  chain : us.Pairwise (· ∣ ·)

/-- A quantity that some unit expresses by a value of at most `limit`. -/
def Expressible (limit : Nat) (us : List Nat) (x : Nat) : Prop :=
  ∃ v u, v ≤ limit ∧ u ∈ us ∧ x = v * u

/-- `v` times `u` is the least expressible quantity that is not below `n`. -/
structure Tightest (limit : Nat) (us : List Nat) (n v u : Nat) : Prop where
  unit : u ∈ us
  value : v ≤ limit
  bound : n ≤ v * u
  least : ∀ x, Expressible limit us x → n ≤ x → v * u ≤ x

theorem IsScale.tail {u : Nat} {us : List Nat} (h : IsScale (u :: us)) : IsScale us :=
  ⟨fun c hc => h.pos c (List.mem_cons_of_mem u hc), (List.pairwise_cons.1 h.chain).2⟩

theorem IsScale.dvd {u c : Nat} {us : List Nat} (h : IsScale (u :: us)) (hc : c ∈ us) : u ∣ c :=
  (List.pairwise_cons.1 h.chain).1 c hc

theorem Expressible.of_cons {limit u x : Nat} {us : List Nat}
    (h : Expressible limit (u :: us) x) : (∃ v, v ≤ limit ∧ x = v * u) ∨ Expressible limit us x := by
  obtain ⟨v, c, hv, hc, rfl⟩ := h
  rcases List.mem_cons.1 hc with rfl | hc
  · exact Or.inl ⟨v, hv, rfl⟩
  · exact Or.inr ⟨v, c, hv, hc, rfl⟩

/-- Rounding up is the least value of a unit that is not below `n`. -/
theorem ceilDiv_le_of_le_mul {n u v : Nat} (hu : 0 < u) (h : n ≤ v * u) : n ⌈/⌉ u ≤ v :=
  (ceilDiv_le_iff_le_mul hu).2 (by rw [Nat.mul_comm]; exact h)

theorem le_ceilDiv_mul {n u : Nat} (hu : 0 < u) : n ≤ n ⌈/⌉ u * u := by
  rw [Nat.mul_comm]
  exact (ceilDiv_le_iff_le_mul hu).1 (le_refl _)

/-- **A unit that is too fine** expresses nothing from `n` on. -/
theorem Tightest.skip {limit n v u c : Nat} {us : List Nat} (hscale : IsScale (u :: us))
    (hlarge : limit < n ⌈/⌉ u) (h : Tightest limit us n v c) : Tightest limit (u :: us) n v c := by
  refine ⟨List.mem_cons_of_mem u h.unit, h.value, h.bound, fun x hx hn => ?_⟩
  rcases hx.of_cons with ⟨w, hw, rfl⟩ | hx
  · have hle := ceilDiv_le_of_le_mul (hscale.pos u List.mem_cons_self) hn
    omega
  · exact h.least x hx hn

/-- **A coarser unit that is exact** makes a finer one superfluous. -/
theorem Tightest.exact {limit n v u c d : Nat} {us : List Nat} (hscale : IsScale (u :: us))
    (hfits : n ⌈/⌉ u ≤ limit) (hd : d ∈ us) (hdvd : d ∣ n) (h : Tightest limit us n v c) :
    Tightest limit (u :: us) n v c := by
  have hu := hscale.pos u List.mem_cons_self
  have hud : u ≤ d := Nat.le_of_dvd (hscale.tail.pos d hd) (hscale.dvd hd)
  -- `n` itself is expressible, so it is the bound that was found
  have hvalue : n / d ≤ limit := by
    have hdiv : n / d ≤ n / u := Nat.div_le_div_left hud hu
    have hceil : n ⌊/⌋ u ≤ n ⌈/⌉ u := floorDiv_le_ceilDiv
    rw [Nat.floorDiv_eq_div] at hceil
    omega
  have hexact : v * c ≤ n :=
    h.least n ⟨n / d, d, hvalue, hd, (Nat.div_mul_cancel hdvd).symm⟩ (le_refl n)
  refine ⟨List.mem_cons_of_mem u h.unit, h.value, h.bound, fun x hx hn => ?_⟩
  exact hexact.trans hn

/-- **Rounding up in the finest unit that fits** is best: what a coarser unit expresses, the finer
one does. -/
theorem Tightest.roundUp {limit n u : Nat} {us : List Nat} (hscale : IsScale (u :: us))
    (hfits : n ⌈/⌉ u ≤ limit) : Tightest limit (u :: us) n (n ⌈/⌉ u) u := by
  have hu := hscale.pos u List.mem_cons_self
  refine ⟨List.mem_cons_self, hfits, le_ceilDiv_mul hu, fun x hx hn => ?_⟩
  have hmultiple : ∃ w, x = w * u := by
    rcases hx.of_cons with ⟨w, _, rfl⟩ | ⟨w, c, _, hc, rfl⟩
    · exact ⟨w, rfl⟩
    · obtain ⟨k, rfl⟩ := hscale.dvd hc
      exact ⟨w * k, by rw [Nat.mul_comm u, Nat.mul_assoc]⟩
  obtain ⟨w, rfl⟩ := hmultiple
  exact Nat.mul_le_mul_right u (ceilDiv_le_of_le_mul hu hn)

end Rpcpio.Library

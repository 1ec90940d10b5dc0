import Mathlib.Logic.Basic
import Mathlib.Tactic.Common

/-!
# Loops that may not end

A loop is its body: one pass gives the next state or leaves with a result. `run` makes a number of
passes and has no result if they do not suffice, so `Returns` says that the loop ends with a result
after some number of passes.

* `returns_iff`: the result is the one with which some reached state leaves.
* `reaches_invariant`: what every pass preserves holds in every reached state.
* `run_of_measure`: a pass that decreases a measure makes the loop end.
* `completes_of_measure`: the invariant and the measure of one loop together.
* `not_terminates_of_fixpoint`: a pass that changes nothing makes it run forever.
-/

set_option autoImplicit false

namespace Rpcpio.Library

universe u v

/-- A loop given by its body: the next state, or the result with which the loop is left. -/
structure Loop (σ : Type u) (ρ : Type v) where
  body : σ → σ ⊕ ρ

namespace Loop

variable {σ : Type u} {ρ : Type v} (L : Loop σ ρ)

/-- The result after at most `n` passes. -/
def run : Nat → σ → Option ρ
  | 0, _ => none
  | n + 1, s =>
      match L.body s with
      | .inl t => run n t
      | .inr r => some r

/-- The loop ends with the result. -/
def Returns (s : σ) (r : ρ) : Prop := ∃ n, L.run n s = some r

/-- The loop ends. -/
def Terminates (s : σ) : Prop := ∃ r, L.Returns s r

/-- A state that the loop comes to. -/
inductive Reaches : σ → σ → Prop
  | refl (s : σ) : Reaches s s
  | pass {s t u : σ} (h : L.body s = .inl t) (rest : Reaches t u) : Reaches s u

variable {L}

theorem run_succ_of_next {s t : σ} (h : L.body s = .inl t) (n : Nat) :
    L.run (n + 1) s = L.run n t := by
  simp only [run, h]

theorem run_succ_of_result {s : σ} {r : ρ} (h : L.body s = .inr r) (n : Nat) :
    L.run (n + 1) s = some r := by
  simp only [run, h]

/-- A pass does not change the result. -/
theorem returns_of_next {s t : σ} (h : L.body s = .inl t) {r : ρ} :
    L.Returns s r ↔ L.Returns t r := by
  constructor
  · rintro ⟨n, hn⟩
    cases n with
    | zero => cases hn
    | succ n => exact ⟨n, (run_succ_of_next h n).symm.trans hn⟩
  · rintro ⟨n, hn⟩
    exact ⟨n + 1, (run_succ_of_next h n).trans hn⟩

theorem returns_of_result {s : σ} {r r' : ρ} (h : L.body s = .inr r) :
    L.Returns s r' ↔ r' = r := by
  constructor
  · rintro ⟨n, hn⟩
    cases n with
    | zero => cases hn
    | succ n =>
        rw [run_succ_of_result h, Option.some.injEq] at hn
        exact hn.symm
  · rintro rfl
    exact ⟨1, run_succ_of_result h 0⟩

/-- **The result is the one with which some reached state leaves.** -/
theorem returns_iff {s : σ} {r : ρ} : L.Returns s r ↔ ∃ t, L.Reaches s t ∧ L.body t = .inr r := by
  constructor
  · rintro ⟨n, hn⟩
    induction n generalizing s with
    | zero => cases hn
    | succ n ih =>
        cases hbody : L.body s with
        | inl t =>
            rw [run_succ_of_next hbody] at hn
            obtain ⟨u, hreach, hu⟩ := ih hn
            exact ⟨u, .pass hbody hreach, hu⟩
        | inr r' =>
            rw [run_succ_of_result hbody, Option.some.injEq] at hn
            exact ⟨s, .refl s, hn ▸ hbody⟩
  · rintro ⟨t, hreach, ht⟩
    induction hreach with
    | refl s => exact (returns_of_result ht).2 rfl
    | pass h _ ih => exact (returns_of_next h).2 (ih ht)

/-- A loop has at most one result. -/
theorem Returns.unique {s : σ} {r r' : ρ} (h : L.Returns s r) (h' : L.Returns s r') : r = r' := by
  obtain ⟨t, hreach, ht⟩ := returns_iff.1 h
  induction hreach with
  | refl s => exact ((returns_of_result ht).1 h').symm
  | pass hbody _ ih => exact ih ((returns_of_next hbody).1 h) ((returns_of_next hbody).1 h') ht

/-- **Invariant rule.** What every pass preserves holds in every reached state. -/
theorem reaches_invariant {I : σ → Prop} (hpass : ∀ s t, I s → L.body s = .inl t → I t) {s t : σ}
    (h : L.Reaches s t) (hs : I s) : I t := by
  induction h with
  | refl s => exact hs
  | pass hbody _ ih => exact ih (hpass _ _ hs hbody)

/-- **Termination rule.** The passes that a measure allows suffice. -/
theorem run_of_measure {I : σ → Prop} {μ : σ → Nat}
    (hpass : ∀ s t, I s → L.body s = .inl t → I t ∧ μ t < μ s) {s : σ} (hs : I s) {n : Nat}
    (hn : μ s < n) : ∃ r, L.run n s = some r := by
  induction n generalizing s with
  | zero => exact absurd hn (Nat.not_lt_zero _)
  | succ n ih =>
      cases hbody : L.body s with
      | inr r => exact ⟨r, run_succ_of_result hbody n⟩
      | inl t =>
          obtain ⟨ht, hlt⟩ := hpass s t hs hbody
          rw [run_succ_of_next hbody]
          exact ih ht (by omega)

/-- The loop ends with `r` within `n` passes, and `J` holds of every state it comes to. -/
structure Completes (L : Loop σ ρ) (J : σ → Prop) (n : Nat) (s : σ) (r : ρ) : Prop where
  ends : L.run n s = some r
  always : ∀ t, L.Reaches s t → J t

/-- **Completion rule.** An invariant and a measure that decreases under it: the loop ends with its
result within the passes that the measure allows, and what the invariant implies holds throughout. -/
theorem completes_of_measure {I J : σ → Prop} {μ : σ → Nat}
    (hpass : ∀ s t, I s → L.body s = .inl t → I t ∧ μ t < μ s) (hJ : ∀ s, I s → J s) {s : σ}
    (hs : I s) {n : Nat} (hn : μ s < n) {r : ρ} (hr : L.Returns s r) : L.Completes J n s r := by
  obtain ⟨r', hends⟩ := run_of_measure hpass hs hn
  have hsame : r' = r := Returns.unique ⟨n, hends⟩ hr
  refine ⟨hsame ▸ hends, fun t ht => hJ t ?_⟩
  exact reaches_invariant (fun s t hs hbody => (hpass s t hs hbody).1) ht hs

/-- **Divergence rule.** A pass that changes nothing is repeated forever. -/
theorem not_terminates_of_fixpoint {s : σ} (h : L.body s = .inl s) : ¬ L.Terminates s := by
  rintro ⟨r, n, hn⟩
  induction n with
  | zero => cases hn
  | succ n ih =>
      rw [run_succ_of_next h] at hn
      exact ih hn

end Loop

end Rpcpio.Library

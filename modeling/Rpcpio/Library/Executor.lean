import Mathlib.Data.List.Basic
import Mathlib.Tactic.Common

/-!
# Timers and traces of effects

Two notions shared by the asynchronous components.

* A one-shot timer. Cancelling it recalls the wait only while it has not expired: an expired timer
  has its completion handler queued with success, and that handler will run.
* Traces of effects. `NeverAfter p q tr` says that no effect in `q` stands behind an effect in `p`;
  `neverAfter_append` reduces it to one step.
-/

set_option autoImplicit false

namespace Rpcpio.Library

universe u

/-- A one-shot timer: no wait, a wait that has not expired, or a completion queued with success. -/
inductive Timer where
  | idle
  | armed
  | expired
  deriving DecidableEq, Repr

namespace Timer

/-- Start a wait. -/
def arm : Timer → Timer := fun _ => .armed

/-- Cancel: a wait that has not expired is aborted, a queued completion stays. -/
def cancel : Timer → Timer
  | .expired => .expired
  | _ => .idle

/-- The time is reached, and the completion is queued. -/
def expire : Timer → Option Timer
  | .armed => some .expired
  | _ => none

/-- The queued completion runs. -/
def fire : Timer → Option Timer
  | .expired => some .idle
  | _ => none

@[simp] theorem cancel_ne_armed (t : Timer) : t.cancel ≠ .armed := by cases t <;> simp [cancel]

theorem fire_eq_some {t u : Timer} (h : t.fire = some u) : t = .expired ∧ u = .idle := by
  cases t <;> simp_all [fire]

theorem expire_eq_some {t u : Timer} (h : t.expire = some u) : t = .armed ∧ u = .expired := by
  cases t <;> simp_all [expire]

end Timer

/-- No effect in `q` stands behind an effect in `p`. -/
def NeverAfter {α : Type u} (p q : α → Prop) (tr : List α) : Prop :=
  tr.Pairwise fun a b => p a → ¬ q b

variable {α : Type u} {p q : α → Prop}

theorem neverAfter_nil : NeverAfter p q [] := List.Pairwise.nil

/-- A step extends a trace: no `q` in the step if a `p` has occurred, and the step is in order. -/
theorem neverAfter_append {tr es : List α} (htr : NeverAfter p q tr) (hes : NeverAfter p q es)
    (h : (∃ a ∈ tr, p a) → ∀ b ∈ es, ¬ q b) : NeverAfter p q (tr ++ es) := by
  refine List.pairwise_append.2 ⟨htr, hes, ?_⟩
  intro a ha b hb hp
  exact h ⟨a, ha, hp⟩ b hb

theorem neverAfter_of_forall_not {tr : List α} (h : ∀ b ∈ tr, ¬ q b) : NeverAfter p q tr := by
  induction tr with
  | nil => exact neverAfter_nil
  | cons a tr ih =>
      refine List.Pairwise.cons ?_ (ih fun b hb => h b (List.mem_cons_of_mem _ hb))
      intro b hb _
      exact h b (List.mem_cons_of_mem _ hb)

theorem neverAfter_of_forall_not_left {tr : List α} (h : ∀ a ∈ tr, ¬ p a) :
    NeverAfter p q tr := by
  induction tr with
  | nil => exact neverAfter_nil
  | cons a tr ih =>
      refine List.Pairwise.cons ?_ (ih fun b hb => h b (List.mem_cons_of_mem _ hb))
      intro _ _ ha
      exact absurd ha (h a List.mem_cons_self)

end Rpcpio.Library

import Mathlib.Data.List.Basic
import Mathlib.Tactic.Common

/-!
# Queues of blocks drained piecewise

A producer appends blocks; a consumer takes at most `len` symbols at a time from the front block
and remembers how far it is into that block. `unsent` is the content still to be taken. Taking
symbols moves them from the front of `unsent` to the output (`drain_unsent`), appending a block
extends `unsent` (`enqueue_unsent`), and a positive request on a well-formed nonempty queue makes
progress (`drain_progress`).
-/

set_option autoImplicit false

namespace Rpcpio.Library

universe u

/-- Blocks still queued, and the number of symbols of the first one already taken. -/
structure Outbox (α : Type u) where
  blocks : List (List α)
  offset : Nat
  deriving DecidableEq, Repr

namespace Outbox

variable {α : Type u}

/-- The empty queue. -/
def empty : Outbox α := ⟨[], 0⟩

/-- Append one block. -/
def enqueue (o : Outbox α) (b : List α) : Outbox α := { o with blocks := o.blocks ++ [b] }

/-- Take at most `len` symbols of the front block; a block that is used up leaves the queue. -/
def drain (o : Outbox α) (len : Nat) : Outbox α × List α :=
  match o.blocks with
  | [] => (o, [])
  | front :: rest =>
      let n := min (front.length - o.offset) len
      let out := (front.drop o.offset).take n
      if o.offset + n = front.length then (⟨rest, 0⟩, out)
      else (⟨front :: rest, o.offset + n⟩, out)

/-- The symbols still to be taken. -/
def unsent (o : Outbox α) : List α := o.blocks.flatten.drop o.offset

/-- No block is empty, and the offset points inside the front block. -/
structure WellFormed (o : Outbox α) : Prop where
  nonempty : ∀ b ∈ o.blocks, b ≠ []
  offset_lt : ∀ b ∈ o.blocks.head?, o.offset < b.length
  offset_nil : o.blocks = [] → o.offset = 0

theorem empty_wellFormed : (empty : Outbox α).WellFormed :=
  ⟨by simp [empty], by simp [empty], fun _ => rfl⟩

/-- Nothing is unsent exactly when no block is queued. -/
theorem unsent_eq_nil {o : Outbox α} (h : o.WellFormed) : o.unsent = [] ↔ o.blocks = [] := by
  constructor
  · intro hu
    cases hb : o.blocks with
    | nil => rfl
    | cons front rest =>
        have hlt : o.offset < front.length := h.offset_lt front (by simp [hb])
        have hlen : o.unsent.length = 0 := by rw [hu]; rfl
        rw [unsent, hb, List.flatten_cons, List.length_drop, List.length_append] at hlen
        omega
  · intro hb
    simp [unsent, hb]

theorem enqueue_wellFormed {o : Outbox α} (h : o.WellFormed) {b : List α} (hb : b ≠ []) :
    (o.enqueue b).WellFormed := by
  refine ⟨?_, ?_, ?_⟩
  · intro c hc
    rcases List.mem_append.1 hc with hc | hc
    · exact h.nonempty c hc
    · rw [List.mem_singleton.1 hc]
      exact hb
  · intro c hc
    cases hblocks : o.blocks with
    | nil =>
        have h0 := h.offset_nil hblocks
        have hc' : c = b := by simpa [enqueue, hblocks, eq_comm] using hc
        subst hc'
        show o.offset < c.length
        rw [h0]
        exact List.length_pos_iff.2 hb
    | cons front rest =>
        have hc' : front = c := by simpa [enqueue, hblocks] using hc
        subst hc'
        exact h.offset_lt front (by simp [hblocks])
  · intro hnil
    simp [enqueue] at hnil

/-- An appended block comes after what is unsent. -/
theorem enqueue_unsent {o : Outbox α} (h : o.WellFormed) (b : List α) :
    (o.enqueue b).unsent = o.unsent ++ b := by
  have hle : o.offset ≤ o.blocks.flatten.length := by
    cases hb : o.blocks with
    | nil => rw [h.offset_nil hb]; exact Nat.zero_le _
    | cons front rest =>
        have hlt : o.offset < front.length := h.offset_lt front (by simp [hb])
        rw [List.flatten_cons, List.length_append]
        omega
  show (o.blocks ++ [b]).flatten.drop o.offset = o.blocks.flatten.drop o.offset ++ b
  rw [List.flatten_append, List.drop_append_of_le_length hle]
  simp

theorem drain_wellFormed {o : Outbox α} (h : o.WellFormed) (len : Nat) :
    (o.drain len).1.WellFormed := by
  simp only [drain]
  cases hb : o.blocks with
  | nil => exact h
  | cons front rest =>
      have hlt : o.offset < front.length := h.offset_lt front (by simp [hb])
      have hrest : ∀ b ∈ rest, b ≠ [] := fun b hmem => h.nonempty b (by simp [hb, hmem])
      dsimp only
      split
      · refine ⟨hrest, ?_, fun _ => rfl⟩
        intro b hbm
        exact List.length_pos_iff.2 (hrest b (List.mem_of_mem_head? hbm))
      · rename_i hne
        refine ⟨fun b hmem => h.nonempty b (hb ▸ hmem), ?_, by simp⟩
        intro b hbm
        have hfb : front = b := by simpa using hbm
        subst hfb
        show o.offset + min (front.length - o.offset) len < front.length
        omega

/-- **Taking symbols only moves them**: the output followed by what stays unsent is what was
unsent. -/
theorem drain_unsent {o : Outbox α} (h : o.WellFormed) (len : Nat) :
    (o.drain len).2 ++ (o.drain len).1.unsent = o.unsent := by
  simp only [drain]
  cases hb : o.blocks with
  | nil => simp
  | cons front rest =>
      have hlt : o.offset < front.length := h.offset_lt front (by simp [hb])
      have hun : o.unsent = front.drop o.offset ++ rest.flatten := by
        rw [unsent, hb, List.flatten_cons, List.drop_append_of_le_length (by omega)]
      dsimp only
      rw [hun]
      split
      · rename_i heq
        have htake : (front.drop o.offset).take (min (front.length - o.offset) len) =
            front.drop o.offset := List.take_of_length_le (by rw [List.length_drop]; omega)
        rw [htake]
        simp [unsent]
      · have hle : o.offset + min (front.length - o.offset) len ≤ front.length := by omega
        rw [unsent]
        simp only [List.flatten_cons]
        rw [List.drop_append_of_le_length hle, ← List.append_assoc, ← List.drop_drop,
          List.take_append_drop]

/-- A positive request on a nonempty queue yields symbols. -/
theorem drain_progress {o : Outbox α} (h : o.WellFormed) {len : Nat} (hlen : 0 < len)
    (hne : o.blocks ≠ []) : (o.drain len).2 ≠ [] := by
  simp only [drain]
  cases hb : o.blocks with
  | nil => exact absurd hb hne
  | cons front rest =>
      have hlt : o.offset < front.length := h.offset_lt front (by simp [hb])
      dsimp only
      have hout : (front.drop o.offset).take (min (front.length - o.offset) len) ≠ [] := by
        intro h0
        have hl : ((front.drop o.offset).take (min (front.length - o.offset) len)).length = 0 := by
          rw [h0]; rfl
        rw [List.length_take, List.length_drop] at hl
        omega
      split <;> exact hout

end Outbox

end Rpcpio.Library

import Mathlib.Data.List.Perm.Basic
import Mathlib.Data.List.Nodup

/-!
# Custody of numbered items

Items are numbered in the order in which they are accepted. At every moment each of them is held in
exactly one place or has been released. `Custody n held released` says this for the first `n`
items, where `held` lists the contents of all places together. The rules are about what a step does
to the places: it rearranges them (`perm`), accepts a new item (`accept`), or releases some
(`releaseAll`).
-/

set_option autoImplicit false

namespace Rpcpio.Library

/-- Each of the first `n` items is held once, or released; nothing else is held. -/
structure Custody (n : Nat) (held : List Nat) (released : Nat → Prop) : Prop where
  nodup : held.Nodup
  bound : ∀ i ∈ held, i < n
  covered : ∀ i, i < n → i ∈ held ∨ released i

namespace Custody

variable {n : Nat} {held held' r : List Nat} {released released' : Nat → Prop}

/-- Before the first item. -/
theorem empty : Custody 0 [] released :=
  ⟨List.nodup_nil, by simp, fun i hi => absurd hi (Nat.not_lt_zero i)⟩

/-- The places are rearranged, and more may count as released. -/
theorem perm (h : Custody n held released) (hp : held'.Perm held)
    (hr : ∀ i, i < n → released i → released' i) : Custody n held' released' := by
  refine ⟨hp.nodup_iff.2 h.nodup, fun i hi => h.bound i (hp.mem_iff.1 hi), ?_⟩
  intro i hi
  rcases h.covered i hi with hh | hrel
  · exact Or.inl (hp.mem_iff.2 hh)
  · exact Or.inr (hr i hi hrel)

/-- The next item is accepted. -/
theorem accept (h : Custody n held released) (hp : held'.Perm (n :: held))
    (hr : ∀ i, i < n → released i → released' i) : Custody (n + 1) held' released' := by
  have hnew : n ∉ held := fun hn => Nat.lt_irrefl n (h.bound n hn)
  refine ⟨hp.nodup_iff.2 (List.nodup_cons.2 ⟨hnew, h.nodup⟩), ?_, ?_⟩
  · intro i hi
    rcases List.mem_cons.1 (hp.mem_iff.1 hi) with rfl | hi
    · exact Nat.lt_succ_self _
    · exact Nat.lt_succ_of_lt (h.bound i hi)
  · intro i hi
    rcases Nat.lt_succ_iff_lt_or_eq.1 hi with hlt | rfl
    · rcases h.covered i hlt with hh | hrel
      · exact Or.inl (hp.mem_iff.2 (List.mem_cons_of_mem _ hh))
      · exact Or.inr (hr i hlt hrel)
    · exact Or.inl (hp.mem_iff.2 List.mem_cons_self)

/-- Some items leave their places, and are released. -/
theorem releaseAll (h : Custody n held released) (hp : held.Perm (r ++ held'))
    (hout : ∀ i ∈ r, released' i) (hr : ∀ i, i < n → released i → released' i) :
    Custody n held' released' := by
  have hnodup := (List.nodup_append.1 (hp.nodup_iff.1 h.nodup)).2.1
  refine ⟨hnodup, fun i hi => h.bound i (hp.mem_iff.2 (List.mem_append_right _ hi)), ?_⟩
  intro i hi
  rcases h.covered i hi with hh | hrel
  · rcases List.mem_append.1 (hp.mem_iff.1 hh) with ho | hh'
    · exact Or.inr (hout i ho)
    · exact Or.inl hh'
  · exact Or.inr (hr i hi hrel)

/-- **An item that is not released is held in exactly one place.** -/
theorem count_eq_one (h : Custody n held released) {i : Nat} (hi : i < n) (hr : ¬ released i) :
    held.count i = 1 :=
  List.count_eq_one_of_mem h.nodup ((h.covered i hi).resolve_right hr)

/-- When nothing is held, everything is released. -/
theorem released_of_nil (h : Custody n held released) (hnil : held = []) {i : Nat} (hi : i < n) :
    released i := by
  rcases h.covered i hi with hh | hrel
  · rw [hnil] at hh
    cases hh
  · exact hrel

end Custody

end Rpcpio.Library

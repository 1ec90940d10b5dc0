import Mathlib.Data.List.Perm.Basic
import Mathlib.Tactic.Common

/-!
# Ordered multimaps

An ordered multimap as the list of its entries: keys ascend, and the values of one key stand in
their order of insertion. `emplace` inserts an entry after every entry whose key is not greater;
`find` is the first value of a key. The lemmas say which entries `emplace` adds, and that lookups
of other keys do not see it.

`Sorted` is the order that `emplace` keeps. Entries inserted in that order are appended
(`emplaceAll_of_sorted`), so a multimap is rebuilt from its own entries, and a filter of it from the
entries that the filter keeps (`filter_emplace`). The lookup of a key with one entry does not depend
on the order (`find_of_perm_map`).
-/

set_option autoImplicit false

namespace Rpcpio.Library

universe u v

/-- Entries of an ordered multimap. -/
abbrev Multimap (κ : Type u) (β : Type v) := List (κ × β)

namespace Multimap

variable {κ : Type u} {β : Type v} [LT κ] [DecidableLT κ] [DecidableEq κ]

/-- Insert an entry before the first entry of a greater key. -/
def emplace (k : κ) (v : β) : Multimap κ β → Multimap κ β
  | [] => [(k, v)]
  | e :: m => if k < e.1 then (k, v) :: e :: m else e :: emplace k v m

/-- The first value of a key. -/
def find (k : κ) : Multimap κ β → Option β
  | [] => none
  | e :: m => if e.1 = k then some e.2 else find k m

/-- Whether the key has a value. -/
def contains (k : κ) (m : Multimap κ β) : Bool := (find k m).isSome

omit [DecidableEq κ] in
/-- `emplace` adds exactly the entry. -/
theorem emplace_perm (k : κ) (v : β) (m : Multimap κ β) : (emplace k v m).Perm ((k, v) :: m) := by
  induction m with
  | nil => exact List.Perm.refl _
  | cons e m ih =>
      by_cases h : k < e.1
      · simp only [emplace, if_pos h]
        exact List.Perm.refl _
      · simp only [emplace, if_neg h]
        exact (ih.cons e).trans (List.Perm.swap _ _ _)

omit [DecidableEq κ] in
theorem mem_emplace {k : κ} {v : β} {m : Multimap κ β} {e : κ × β} :
    e ∈ emplace k v m ↔ e = (k, v) ∨ e ∈ m := by
  rw [(emplace_perm k v m).mem_iff, List.mem_cons]

omit [LT κ] [DecidableLT κ] in
theorem find_eq_none {k : κ} {m : Multimap κ β} : find k m = none ↔ ∀ e ∈ m, e.1 ≠ k := by
  induction m with
  | nil => simp [find]
  | cons e m ih =>
      by_cases h : e.1 = k
      · simp [find, h]
      · simp [find, h, ih]

/-- Lookups of other keys do not see an insertion. -/
theorem find_emplace_of_ne {k k' : κ} (h : k ≠ k') (v : β) (m : Multimap κ β) :
    find k' (emplace k v m) = find k' m := by
  induction m with
  | nil => simp [emplace, find, h]
  | cons e m ih =>
      by_cases hlt : k < e.1
      · simp [emplace, hlt, find, h]
      · simp only [emplace, if_neg hlt, find, ih]

/-- The first value of a key that had none. -/
theorem find_emplace_self {k : κ} {m : Multimap κ β} (h : find k m = none) (v : β) :
    find k (emplace k v m) = some v := by
  induction m with
  | nil => simp [emplace, find]
  | cons e m ih =>
      have he : e.1 ≠ k := find_eq_none.1 h e List.mem_cons_self
      have hm : find k m = none := find_eq_none.2 fun x hx => find_eq_none.1 h x
        (List.mem_cons_of_mem _ hx)
      by_cases hlt : k < e.1
      · simp [emplace, hlt, find]
      · simp [emplace, hlt, find, he, ih hm]

/-! ## The order of the entries -/

/-- Insert entries one after the other. -/
def emplaceAll (es : List (κ × β)) (m : Multimap κ β) : Multimap κ β :=
  es.foldl (fun m e => emplace e.1 e.2 m) m

/-- Keys ascend. -/
def Sorted (m : Multimap κ β) : Prop := m.Pairwise fun a b => ¬ b.1 < a.1

omit [DecidableEq κ] in
@[simp] theorem emplaceAll_nil (m : Multimap κ β) : emplaceAll [] m = m := rfl

omit [DecidableEq κ] in
@[simp] theorem emplaceAll_cons (e : κ × β) (es : List (κ × β)) (m : Multimap κ β) :
    emplaceAll (e :: es) m = emplaceAll es (emplace e.1 e.2 m) := rfl

omit [DecidableEq κ] in
/-- `emplaceAll` adds exactly the entries. -/
theorem emplaceAll_perm (es : List (κ × β)) (m : Multimap κ β) :
    (emplaceAll es m).Perm (es ++ m) := by
  induction es generalizing m with
  | nil => exact List.Perm.refl _
  | cons e es ih =>
      refine (ih _).trans ?_
      exact ((emplace_perm e.1 e.2 m).append_left es).trans List.perm_middle

omit [DecidableEq κ] in
theorem mem_emplaceAll {es : List (κ × β)} {m : Multimap κ β} {e : κ × β} :
    e ∈ emplaceAll es m ↔ e ∈ es ∨ e ∈ m := by
  rw [(emplaceAll_perm es m).mem_iff, List.mem_append]

omit [DecidableLT κ] [DecidableEq κ] in
theorem sorted_nil : Sorted ([] : Multimap κ β) := List.Pairwise.nil

section Order

variable [IsStrictOrder κ (· < ·)]

omit [DecidableEq κ] in
/-- `emplace` keeps the order. -/
theorem sorted_emplace {m : Multimap κ β} (h : Sorted m) (k : κ) (v : β) :
    Sorted (emplace k v m) := by
  induction m with
  | nil => exact List.pairwise_singleton _ _
  | cons e m ih =>
      obtain ⟨he, hm⟩ := List.pairwise_cons.1 h
      simp only [emplace]
      by_cases hlt : k < e.1
      · rw [if_pos hlt]
        refine List.pairwise_cons.2 ⟨fun x hx hxk => ?_, h⟩
        have hxe : x.1 < e.1 := IsTrans.trans _ _ _ hxk hlt
        rcases List.mem_cons.1 hx with rfl | hx
        · exact irrefl _ hxe
        · exact he x hx hxe
      · rw [if_neg hlt]
        refine List.pairwise_cons.2 ⟨fun x hx => ?_, ih hm⟩
        rcases mem_emplace.1 hx with rfl | hx
        · exact hlt
        · exact he x hx

omit [DecidableEq κ] in
theorem sorted_emplaceAll {m : Multimap κ β} (h : Sorted m) (es : List (κ × β)) :
    Sorted (emplaceAll es m) := by
  induction es generalizing m with
  | nil => exact h
  | cons e es ih => exact ih (sorted_emplace h e.1 e.2)

end Order

omit [DecidableEq κ] in
/-- An entry whose key is nowhere exceeded is appended. -/
theorem emplace_of_last {m : Multimap κ β} {k : κ} (h : ∀ e ∈ m, ¬ k < e.1) (v : β) :
    emplace k v m = m ++ [(k, v)] := by
  induction m with
  | nil => rfl
  | cons e m ih =>
      rw [emplace, if_neg (h e List.mem_cons_self),
        ih fun x hx => h x (List.mem_cons_of_mem _ hx)]
      rfl

omit [DecidableEq κ] in
/-- **Entries inserted in their order are appended.** -/
theorem emplaceAll_of_sorted {m es : Multimap κ β} (h : Sorted (m ++ es)) :
    emplaceAll es m = m ++ es := by
  induction es generalizing m with
  | nil => rw [emplaceAll_nil, List.append_nil]
  | cons e es ih =>
      obtain ⟨_, _, hcross⟩ := List.pairwise_append.1 h
      have hlast : ∀ x ∈ m, ¬ e.1 < x.1 := fun x hx => hcross x hx e List.mem_cons_self
      rw [emplaceAll_cons, emplace_of_last hlast, ih (by simpa using h)]
      simp

/-! ## Parts of a multimap -/

omit [DecidableEq κ] in
/-- A map of the values commutes with `emplace`. -/
theorem map_emplace {γ : Type v} (f : κ → β → γ) (k : κ) (v : β) (m : Multimap κ β) :
    (emplace k v m).map (fun e => (e.1, f e.1 e.2)) =
      emplace k (f k v) (m.map fun e => (e.1, f e.1 e.2)) := by
  induction m with
  | nil => rfl
  | cons e m ih =>
      by_cases hlt : k < e.1
      · simp only [emplace, if_pos hlt, List.map_cons]
      · simp only [emplace, if_neg hlt, List.map_cons, ih]

omit [DecidableEq κ] in
/-- An entry that a filter drops may as well not be inserted. -/
theorem filter_emplace_of_not {p : κ × β → Bool} {k : κ} {v : β} (h : p (k, v) = false)
    (m : Multimap κ β) : (emplace k v m).filter p = m.filter p := by
  induction m with
  | nil => simp [emplace, h]
  | cons e m ih =>
      by_cases hlt : k < e.1
      · simp only [emplace, if_pos hlt, List.filter_cons, h, Bool.false_eq_true, if_false]
      · simp only [emplace, if_neg hlt, List.filter_cons, ih]

omit [DecidableEq κ] in
/-- An entry goes in front of entries that all have a greater key. -/
theorem emplace_of_first {m : Multimap κ β} {k : κ} (h : ∀ e ∈ m, k < e.1) (v : β) :
    emplace k v m = (k, v) :: m := by
  cases m with
  | nil => rfl
  | cons e m => exact if_pos (h e List.mem_cons_self)

section TotalOrder

variable [IsStrictTotalOrder κ (· < ·)]

omit [DecidableEq κ] in
/-- Behind an entry with a greater key all keys of a sorted multimap are greater. -/
theorem lt_of_sorted_cons {e : κ × β} {m : Multimap κ β} (h : Sorted (e :: m)) {k : κ}
    (hlt : k < e.1) : ∀ x ∈ m, k < x.1 := by
  intro x hx
  have hle : ¬ x.1 < e.1 := (List.pairwise_cons.1 h).1 x hx
  by_cases heq : e.1 = x.1
  · exact heq ▸ hlt
  · have hgt : e.1 < x.1 := by
      by_contra hnot
      exact heq (Std.Trichotomous.trichotomous (r := fun a b : κ => a < b) _ _ hnot hle)
    exact IsTrans.trans _ _ _ hlt hgt

omit [DecidableEq κ] in
/-- **The filter of a sorted multimap** is built by inserting the entries that it keeps. -/
theorem filter_emplace {p : κ × β → Bool} {m : Multimap κ β} (hsorted : Sorted m) {k : κ} {v : β}
    (h : p (k, v) = true) : (emplace k v m).filter p = emplace k v (m.filter p) := by
  induction m with
  | nil => simp [emplace, h]
  | cons e m ih =>
      by_cases hlt : k < e.1
      · -- every entry that the filter leaves stands behind the new one
        have hall : ∀ x ∈ (e :: m).filter p, k < x.1 := by
          intro x hx
          rcases List.mem_cons.1 (List.mem_filter.1 hx).1 with rfl | hx
          · exact hlt
          · exact lt_of_sorted_cons hsorted hlt x hx
        rw [emplace_of_first hall]
        simp only [emplace, if_pos hlt, List.filter_cons, h, if_true]
      · have hrest := ih (List.pairwise_cons.1 hsorted).2
        cases hp : p e with
        | true => simp only [emplace, if_neg hlt, List.filter_cons, hp, if_true, hrest]
        | false =>
            simp only [emplace, if_neg hlt, List.filter_cons, hp, Bool.false_eq_true, if_false,
              hrest]

end TotalOrder

/-! ## Keys with one entry -/

/-- The number of entries of a key. -/
def count (k : κ) (m : Multimap κ β) : Nat := (m.filter fun e => e.1 = k).length

omit [LT κ] [DecidableLT κ] in
theorem count_eq_zero {k : κ} {m : Multimap κ β} : count k m = 0 ↔ ∀ e ∈ m, e.1 ≠ k := by
  simp [count, List.filter_eq_nil_iff]

omit [LT κ] [DecidableLT κ] in
theorem count_cons_self (k : κ) (v : β) (m : Multimap κ β) :
    count k ((k, v) :: m) = count k m + 1 := by
  simp [count]

omit [LT κ] [DecidableLT κ] in
theorem count_cons_of_ne {k k' : κ} (h : k' ≠ k) (v : β) (m : Multimap κ β) :
    count k ((k', v) :: m) = count k m := by
  simp [count, h]

omit [LT κ] [DecidableLT κ] in
/-- The value of a key with one entry is that of the entry. -/
theorem find_eq_some_iff {k : κ} {v : β} {m : Multimap κ β} (h : count k m ≤ 1) :
    find k m = some v ↔ (k, v) ∈ m := by
  induction m with
  | nil => simp [find]
  | cons e m ih =>
      obtain ⟨k', v'⟩ := e
      by_cases hk : k' = k
      · subst hk
        rw [count_cons_self] at h
        have hrest := count_eq_zero.1 (Nat.le_zero.1 (Nat.le_of_succ_le_succ h))
        simp only [find, if_true, Option.some.injEq, List.mem_cons, Prod.mk.injEq, true_and]
        constructor
        · rintro rfl
          exact Or.inl rfl
        · rintro (rfl | hmem)
          · rfl
          · exact absurd rfl (hrest _ hmem)
      · rw [count_cons_of_ne hk] at h
        simp only [find, if_neg hk, ih h, List.mem_cons, Prod.mk.injEq]
        exact ⟨Or.inr, fun hmem => hmem.resolve_left fun heq => hk heq.1.symm⟩

omit [LT κ] [DecidableLT κ] in
/-- Entries keep their number under a map of the values and in any order. -/
theorem count_of_perm_map {γ : Type v} {f : β → γ} {m : Multimap κ β} {m' : Multimap κ γ}
    (hperm : m'.Perm (m.map fun e => (e.1, f e.2))) (k : κ) : count k m' = count k m := by
  rw [count, (hperm.filter _).length_eq, List.filter_map, List.length_map]
  rfl

omit [LT κ] [DecidableLT κ] in
/-- **A lookup does not depend on the order of the entries** if its key has one. -/
theorem find_of_perm_map {γ : Type v} {f : β → γ} {m : Multimap κ β} {m' : Multimap κ γ}
    (hperm : m'.Perm (m.map fun e => (e.1, f e.2))) {k : κ} (h : count k m ≤ 1) :
    find k m' = (find k m).map f := by
  have h' : count k m' ≤ 1 := (count_of_perm_map hperm k).symm ▸ h
  cases hfind : find k m with
  | none =>
      rw [Option.map_none, find_eq_none]
      intro e he
      obtain ⟨e', he', rfl⟩ := List.mem_map.1 (hperm.mem_iff.1 he)
      exact find_eq_none.1 hfind e' he'
  | some v =>
      rw [Option.map_some, find_eq_some_iff h', hperm.mem_iff]
      exact List.mem_map.2 ⟨(k, v), (find_eq_some_iff h).1 hfind, rfl⟩

end Multimap

end Rpcpio.Library

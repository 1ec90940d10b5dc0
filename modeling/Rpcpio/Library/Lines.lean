import Mathlib.Data.List.Basic

/-!
# Texts read line by line

A text is a list of lines, each ended by a separator. A reader looks at the prefix of a line and
cuts the rest at a delimiter; `Clash` says of two prefixes that no line has both.
-/

set_option autoImplicit false

universe u

namespace Rpcpio.Library

variable {α : Type u} [DecidableEq α]

/-- The text of some lines. -/
def unlines (sep : α) (ls : List (List α)) : List α := ls.flatMap fun l => l ++ [sep]

/-- The lines of a text; what follows the last separator is a line of its own. -/
def lines (sep : α) : List α → List (List α)
  | [] => []
  | c :: rest =>
      if c = sep then [] :: lines sep rest
      else
        match lines sep rest with
        | [] => [[c]]
        | l :: ls => (c :: l) :: ls

theorem lines_append {sep : α} {l : List α} (h : sep ∉ l) (rest : List α) :
    lines sep (l ++ sep :: rest) = l :: lines sep rest := by
  induction l with
  | nil => simp [lines]
  | cons c l ih =>
      rw [List.mem_cons, not_or] at h
      obtain ⟨hc, hl⟩ := h
      rw [List.cons_append, lines, if_neg (Ne.symm hc), ih hl]

/-- **Lines without the separator are read back.** -/
theorem lines_unlines {sep : α} :
    ∀ {ls : List (List α)}, (∀ l ∈ ls, sep ∉ l) → lines sep (unlines sep ls) = ls
  | [], _ => rfl
  | l :: ls, h => by
      have htext : unlines sep (l :: ls) = l ++ sep :: unlines sep ls := by simp [unlines]
      rw [htext, lines_append (h l List.mem_cons_self),
        lines_unlines fun l' hl' => h l' (List.mem_cons_of_mem l hl')]

/-! ## Prefixes -/

/-- The rest of a line behind a prefix. -/
def stripPrefix : List α → List α → Option (List α)
  | [], l => some l
  | _ :: _, [] => none
  | p :: ps, c :: l => if p = c then stripPrefix ps l else none

@[simp] theorem stripPrefix_append (p x : List α) : stripPrefix p (p ++ x) = some x := by
  induction p with
  | nil => rfl
  | cons c p ih => rw [List.cons_append, stripPrefix, if_pos rfl, ih]

theorem eq_drop_of_stripPrefix {p l rest : List α} (h : stripPrefix p l = some rest) :
    rest = l.drop p.length := by
  induction p generalizing l with
  | nil =>
      cases h
      rfl
  | cons c p ih =>
      cases l with
      | nil => cases h
      | cons d l =>
          rw [stripPrefix] at h
          split at h
          · exact ih h
          · cases h

/-- Two prefixes that differ at a place both have. -/
def clash : List α → List α → Bool
  | p :: ps, q :: qs => p ≠ q || clash ps qs
  | _, _ => false

theorem stripPrefix_clash {p q : List α} (h : clash p q = true) (x : List α) :
    stripPrefix p (q ++ x) = none := by
  induction p generalizing q with
  | nil => simp [clash] at h
  | cons c p ih =>
      cases q with
      | nil => simp [clash] at h
      | cons d q =>
          rw [List.cons_append, stripPrefix]
          by_cases hc : c = d
          · rw [if_pos hc]
            exact ih (by simpa [clash, hc] using h)
          · rw [if_neg hc]

/-! ## Words -/

omit [DecidableEq α] in
/-- A word ends where its letters do. -/
theorem takeWhile_word {p : α → Bool} {w : List α} (hw : ∀ c ∈ w, p c = true) {d : α}
    (hd : p d = false) (rest : List α) : (w ++ d :: rest).takeWhile p = w := by
  induction w with
  | nil => simp [hd]
  | cons c w ih =>
      rw [List.cons_append, List.takeWhile_cons, if_pos (hw c List.mem_cons_self),
        ih fun c' hc' => hw c' (List.mem_cons_of_mem c hc')]

omit [DecidableEq α] in
/-- What follows a word. -/
theorem dropWhile_word {p : α → Bool} {w : List α} (hw : ∀ c ∈ w, p c = true) {d : α}
    (hd : p d = false) (rest : List α) : (w ++ d :: rest).dropWhile p = d :: rest := by
  induction w with
  | nil => simp [hd]
  | cons c w ih =>
      rw [List.cons_append, List.dropWhile_cons, if_pos (hw c List.mem_cons_self),
        ih fun c' hc' => hw c' (List.mem_cons_of_mem c hc')]

omit [DecidableEq α] in
/-- A prefix that leaves the letters decides where the word ends. -/
theorem dropWhile_append_cons {p : α → Bool} {q rest : List α} {d : α}
    (h : q.dropWhile p = d :: rest) (x : List α) : (q ++ x).dropWhile p = d :: (rest ++ x) := by
  induction q with
  | nil => cases h
  | cons c q ih =>
      rw [List.cons_append, List.dropWhile_cons]
      rw [List.dropWhile_cons] at h
      split
      · rename_i hc
        rw [if_pos hc] at h
        exact ih h
      · rename_i hc
        rw [if_neg hc] at h
        obtain ⟨rfl, rfl⟩ := List.cons.inj h
        rfl

end Rpcpio.Library

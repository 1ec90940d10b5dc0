import Mathlib.Data.List.Basic
import Mathlib.Tactic.Common

/-!
# Length-prefixed streams

A format has headers of a fixed size; a complete header either announces the number of payload
symbols that follow it or is rejected. `scan` reads a stream symbol by symbol. Its state is the
unfinished frame itself, so two readers that agree on it agree on everything they will do.

* `scan_append`: reading is independent of how the stream is cut into blocks.
* `scan_flatten`: a stream of complete frames is read back as these frames.
* `scan_sound`: what `scan` reports is the only decomposition of the input into complete frames and
  an unfinished one.
* `complete_iff`, `endsInside_iff`: what is unfinished at the end tells a complete input from a
  truncated one.
* `rejectedAt_iff`: a reader rejects exactly the first complete header behind complete frames that
  the format rejects.
* `scan_block`: a reader that consumes a block without passing a decision point does what the
  symbolwise reader does.
-/

set_option autoImplicit false

namespace Rpcpio.Library

universe u v

/-- A format of length-prefixed frames over the symbols `α`, with rejections `ε`. -/
structure LengthPrefix (α : Type u) (ε : Type v) where
  headerSize : Nat
  headerSize_pos : 0 < headerSize
  announce : List α → Except ε Nat

namespace LengthPrefix

variable {α : Type u} {ε : Type v}

/-- A complete frame: header and payload. -/
structure Frame (α : Type u) where
  header : List α
  payload : List α

/-- The symbols of a frame on the wire. -/
def Frame.symbols (f : Frame α) : List α := f.header ++ f.payload

/-- Reader state: the symbols of the unfinished frame, or the rejection of a header. -/
inductive Scan (α : Type u) (ε : Type v) where
  | pending (got : List α)
  | rejected (e : ε)

variable (F : LengthPrefix α ε)

/-- The frames of the format: a full header that announces the length of the payload. -/
def WellFormed (f : Frame α) : Prop :=
  f.header.length = F.headerSize ∧ F.announce f.header = .ok f.payload.length

/-- The decision taken once the symbols `got` of a frame are there. -/
def settle (got : List α) : Scan α ε × List (Frame α) :=
  if got.length < F.headerSize then (.pending got, [])
  else
    match F.announce (got.take F.headerSize) with
    | .error e => (.rejected e, [])
    | .ok n =>
        if got.length < F.headerSize + n then (.pending got, [])
        else (.pending [], [⟨got.take F.headerSize, got.drop F.headerSize⟩])

/-- One more symbol. -/
def push : Scan α ε → α → Scan α ε × List (Frame α)
  | .pending got, a => F.settle (got ++ [a])
  | .rejected e, _ => (.rejected e, [])

/-- Read a block of symbols, collecting the frames completed in it. -/
def scan : Scan α ε → List α → Scan α ε × List (Frame α)
  | s, [] => (s, [])
  | s, a :: as =>
      let r := F.push s a
      let t := scan r.1 as
      (t.1, r.2 ++ t.2)

/-- `got` is an unfinished frame: its header is incomplete, or more payload is announced. -/
def Unfinished (got : List α) : Prop :=
  got.length < F.headerSize ∨
    ∃ n, F.announce (got.take F.headerSize) = .ok n ∧ got.length < F.headerSize + n

variable {F}

@[simp] theorem scan_nil (s : Scan α ε) : F.scan s [] = (s, []) := rfl

theorem scan_cons (s : Scan α ε) (a : α) (as : List α) :
    F.scan s (a :: as) =
      ((F.scan (F.push s a).1 as).1, (F.push s a).2 ++ (F.scan (F.push s a).1 as).2) := rfl

/-- Reading block by block is reading the concatenation. -/
theorem scan_append (s : Scan α ε) (xs ys : List α) :
    F.scan s (xs ++ ys) =
      ((F.scan (F.scan s xs).1 ys).1, (F.scan s xs).2 ++ (F.scan (F.scan s xs).1 ys).2) := by
  induction xs generalizing s with
  | nil => simp
  | cons a xs ih =>
      rw [List.cons_append, scan_cons, ih, scan_cons s a xs]
      simp [List.append_assoc]

/-- Reading a block in two parts. -/
theorem scan_take_drop (s : Scan α ε) (xs : List α) (k : Nat) :
    F.scan s xs = ((F.scan (F.scan s (xs.take k)).1 (xs.drop k)).1,
      (F.scan s (xs.take k)).2 ++ (F.scan (F.scan s (xs.take k)).1 (xs.drop k)).2) := by
  conv_lhs => rw [← List.take_append_drop k xs]
  exact scan_append s _ _

/-- A rejected stream stays rejected and completes no frame. -/
@[simp] theorem scan_rejected (e : ε) (xs : List α) :
    F.scan (.rejected e) xs = (.rejected e, []) := by
  induction xs with
  | nil => rfl
  | cons a xs ih => simp [scan_cons, push, ih]

theorem unfinished_nil : F.Unfinished [] := Or.inl F.headerSize_pos

/-- An unfinished frame is left as it is. -/
theorem settle_of_unfinished {got : List α} (h : F.Unfinished got) :
    F.settle got = (.pending got, []) := by
  simp only [settle]
  rcases h with h | ⟨n, hn, hlt⟩
  · rw [if_pos h]
  · by_cases hs : got.length < F.headerSize
    · rw [if_pos hs]
    · rw [if_neg hs, hn]
      exact if_pos hlt

/-- A rejected header. -/
theorem settle_of_error {got : List α} {e : ε} (hs : F.headerSize ≤ got.length)
    (he : F.announce (got.take F.headerSize) = .error e) : F.settle got = (.rejected e, []) := by
  simp only [settle]
  rw [if_neg (by omega), he]

/-- A finished frame is reported, and the next one starts empty. -/
theorem settle_of_finished {got : List α} {n : Nat}
    (hn : F.announce (got.take F.headerSize) = .ok n) (hlen : got.length = F.headerSize + n) :
    F.settle got = (.pending [], [⟨got.take F.headerSize, got.drop F.headerSize⟩]) := by
  simp only [settle]
  rw [if_neg (by omega), hn]
  exact if_neg (by omega)

/-- A block read without passing a decision point: if the frame stays unfinished at every proper
cut of the block, the block is settled as a whole. -/
theorem scan_block {got xs : List α} (hne : xs ≠ [])
    (hopen : ∀ k, 0 < k → k < xs.length → F.Unfinished (got ++ xs.take k)) :
    F.scan (.pending got) xs = F.settle (got ++ xs) := by
  induction xs generalizing got with
  | nil => exact absurd rfl hne
  | cons a xs ih =>
      rw [scan_cons]
      simp only [push]
      by_cases hxs : xs = []
      · subst hxs
        simp
      · have hlen : 0 < xs.length := List.length_pos_iff.2 hxs
        have h1 : F.Unfinished (got ++ [a]) := by
          have h := hopen 1 Nat.one_pos (by simp; omega)
          simpa using h
        rw [settle_of_unfinished h1]
        have hrest : ∀ k, 0 < k → k < xs.length → F.Unfinished (got ++ [a] ++ xs.take k) := by
          intro k _ hk
          have h := hopen (k + 1) (Nat.succ_pos k) (by simpa using hk)
          simpa [List.append_assoc] using h
        rw [ih hxs hrest]
        simp [List.append_assoc]

/-- A block that stays within the header. -/
theorem scan_header_block {got xs : List α} (hne : xs ≠ [])
    (hle : got.length + xs.length ≤ F.headerSize) :
    F.scan (.pending got) xs = F.settle (got ++ xs) := by
  refine scan_block hne fun k _ hk => Or.inl ?_
  rw [List.length_append, List.length_take]
  omega

/-- A block that stays within the announced payload. -/
theorem scan_payload_block {got xs : List α} {n : Nat} (hne : xs ≠ [])
    (hs : F.headerSize ≤ got.length) (ha : F.announce (got.take F.headerSize) = .ok n)
    (hle : got.length + xs.length ≤ F.headerSize + n) :
    F.scan (.pending got) xs = F.settle (got ++ xs) := by
  refine scan_block hne fun k _ hk => Or.inr ⟨n, ?_, ?_⟩
  · rw [List.take_append_of_le_length hs, ha]
  · rw [List.length_append, List.length_take]
    omega

/-- An unfinished prefix of a frame of the format. -/
theorem unfinished_of_wellFormed {f : Frame α} (hf : F.WellFormed f) {k : Nat}
    (hk : k < f.symbols.length) : F.Unfinished (f.symbols.take k) := by
  obtain ⟨hh, ha⟩ := hf
  have hsym : f.symbols.length = F.headerSize + f.payload.length := by
    rw [Frame.symbols, List.length_append, hh]
  by_cases hlt : k < F.headerSize
  · refine Or.inl ?_
    rw [List.length_take]
    omega
  · refine Or.inr ⟨f.payload.length, ?_, ?_⟩
    · have htake : (f.symbols.take k).take F.headerSize = f.header := by
        rw [List.take_take, Frame.symbols, Nat.min_eq_left (by omega), ← hh, List.take_left]
      rw [htake, ha]
    · rw [List.length_take]
      omega

theorem symbols_ne_nil {f : Frame α} (hf : F.WellFormed f) : f.symbols ≠ [] := by
  intro h
  have hpos := F.headerSize_pos
  have hlen : f.symbols.length = 0 := by rw [h]; rfl
  rw [Frame.symbols, List.length_append, hf.1] at hlen
  omega

/-- One complete frame is read as itself. -/
theorem scan_symbols {f : Frame α} (hf : F.WellFormed f) :
    F.scan (.pending []) f.symbols = (.pending [], [f]) := by
  have htake : f.symbols.take F.headerSize = f.header := by
    rw [Frame.symbols, ← hf.1, List.take_left]
  have hdrop : f.symbols.drop F.headerSize = f.payload := by
    rw [Frame.symbols, ← hf.1, List.drop_left]
  rw [scan_block (symbols_ne_nil hf)]
  · rw [List.nil_append, settle_of_finished (n := f.payload.length)]
    · rw [htake, hdrop]
    · rw [htake, hf.2]
    · rw [Frame.symbols, List.length_append, hf.1]
  · intro k _ hk
    rw [List.nil_append]
    exact unfinished_of_wellFormed hf hk

/-- **A stream of complete frames is read back as these frames.** -/
theorem scan_flatten {fs : List (Frame α)} (hfs : ∀ f ∈ fs, F.WellFormed f) :
    F.scan (.pending []) (fs.map Frame.symbols).flatten = (.pending [], fs) := by
  induction fs with
  | nil => rfl
  | cons f fs ih =>
      have hf : F.WellFormed f := hfs f List.mem_cons_self
      have ih' := ih fun g hg => hfs g (List.mem_cons_of_mem _ hg)
      rw [List.map_cons, List.flatten_cons, scan_append, scan_symbols hf, ih']
      rfl

/-- What one settled decision says about its symbols. -/
theorem settle_sound {got : List α} (hle : got ≠ [] → F.Unfinished got.dropLast) :
    match F.settle got with
    | (.pending rest, fs) =>
        got = (fs.map Frame.symbols).flatten ++ rest ∧ F.Unfinished rest ∧
          ∀ f ∈ fs, F.WellFormed f
    | (.rejected e, fs) =>
        fs = [] ∧ F.headerSize ≤ got.length ∧ F.announce (got.take F.headerSize) = .error e := by
  by_cases hs : got.length < F.headerSize
  · rw [settle_of_unfinished (Or.inl hs)]
    exact ⟨by simp, Or.inl hs, by simp⟩
  · have hs' : F.headerSize ≤ got.length := Nat.le_of_not_lt hs
    cases ha : F.announce (got.take F.headerSize) with
    | error e =>
        rw [settle_of_error hs' ha]
        exact ⟨rfl, hs', rfl⟩
    | ok n =>
        by_cases hn : got.length < F.headerSize + n
        · rw [settle_of_unfinished (Or.inr ⟨n, ha, hn⟩)]
          exact ⟨by simp, Or.inr ⟨n, ha, hn⟩, by simp⟩
        · have hne : got ≠ [] := by
            intro h0
            rw [h0] at hs'
            have := F.headerSize_pos
            simp at hs'
            omega
          -- without its last symbol the frame was unfinished, so that it is exactly complete
          have hlen : got.length = F.headerSize + n := by
            have hdl : got.dropLast.length = got.length - 1 := List.length_dropLast
            rcases hle hne with h | ⟨m, hm, hlt⟩
            · omega
            · by_cases hh : F.headerSize ≤ got.dropLast.length
              · have htk : got.dropLast.take F.headerSize = got.take F.headerSize := by
                  rw [List.dropLast_eq_take, List.take_take, Nat.min_eq_left (by omega)]
                rw [htk, ha, Except.ok.injEq] at hm
                omega
              · omega
          rw [settle_of_finished ha hlen]
          refine ⟨by simp [Frame.symbols], unfinished_nil, ?_⟩
          intro f hf
          rw [List.mem_singleton] at hf
          subst hf
          exact ⟨by simp; omega, by simp [ha, hlen]⟩

/-- **The report of `scan` decomposes the input**: complete frames of the format in order, then an
unfinished frame, or a frame start whose header is rejected. -/
theorem scan_sound {got l : List α} (hgot : F.Unfinished got) :
    match F.scan (.pending got) l with
    | (.pending rest, fs) =>
        got ++ l = (fs.map Frame.symbols).flatten ++ rest ∧ F.Unfinished rest ∧
          ∀ f ∈ fs, F.WellFormed f
    | (.rejected e, fs) =>
        ∃ rest, got ++ l = (fs.map Frame.symbols).flatten ++ rest ∧
          F.headerSize ≤ rest.length ∧ F.announce (rest.take F.headerSize) = .error e ∧
          ∀ f ∈ fs, F.WellFormed f := by
  induction l generalizing got with
  | nil => exact ⟨by simp, hgot, by simp⟩
  | cons a l ih =>
      have hdrop : got ++ [a] ≠ [] → F.Unfinished (got ++ [a]).dropLast := by
        intro _
        simpa using hgot
      -- one symbol completes at most one frame; the rest of the stream goes on from what is left
      have hset := settle_sound hdrop
      rw [scan_cons]
      simp only [push]
      generalize hr : F.settle (got ++ [a]) = r at hset
      rcases r with ⟨s, fs⟩
      cases s with
      | rejected e =>
          -- the header that this symbol completes is rejected, whatever follows
          obtain ⟨rfl, hlen, he⟩ := hset
          simp only [scan_rejected, List.append_nil]
          refine ⟨got ++ a :: l, by simp, ?_, ?_, by simp⟩
          · simp at hlen ⊢
            omega
          · rw [← he, show got ++ a :: l = (got ++ [a]) ++ l by simp,
              List.take_append_of_le_length hlen]
      | pending rest =>
          obtain ⟨hcat, hrest, hfs⟩ := hset
          have hih := ih hrest
          generalize hr2 : F.scan (.pending rest) l = r2 at hih
          rcases r2 with ⟨s2, fs2⟩
          have hwhole : got ++ a :: l = (fs.map Frame.symbols).flatten ++ (rest ++ l) := by
            rw [show got ++ a :: l = (got ++ [a]) ++ l by simp, hcat, List.append_assoc]
          cases s2 with
          | pending rest2 =>
              obtain ⟨hcat2, hrest2, hfs2⟩ := hih
              refine ⟨?_, hrest2, ?_⟩
              · rw [hwhole, hcat2]
                simp [List.append_assoc]
              · intro f hf
                rcases List.mem_append.1 hf with h | h
                · exact hfs f h
                · exact hfs2 f h
          | rejected e =>
              obtain ⟨rest2, hcat2, hlen2, he2, hfs2⟩ := hih
              refine ⟨rest2, ?_, hlen2, he2, ?_⟩
              · rw [hwhole, hcat2]
                simp [List.append_assoc]
              · intro f hf
                rcases List.mem_append.1 hf with h | h
                · exact hfs f h
                · exact hfs2 f h

/-! ## Complete and truncated inputs -/

variable (F) in
/-- The input is a concatenation of complete frames. -/
def Complete (xs : List α) : Prop :=
  ∃ fs : List (Frame α), (∀ f ∈ fs, F.WellFormed f) ∧ xs = (fs.map Frame.symbols).flatten

variable (F) in
/-- The input ends inside a frame. -/
def EndsInside (xs : List α) : Prop :=
  ∃ (fs : List (Frame α)) (got : List α), (∀ f ∈ fs, F.WellFormed f) ∧ got ≠ [] ∧
    F.Unfinished got ∧ xs = (fs.map Frame.symbols).flatten ++ got

theorem unfinished_take {got : List α} (h : F.Unfinished got) (k : Nat) :
    F.Unfinished (got.take k) := by
  by_cases hk : (got.take k).length < F.headerSize
  · exact Or.inl hk
  · rw [List.length_take] at hk
    rcases h with h | ⟨n, hn, hlt⟩
    · omega
    · refine Or.inr ⟨n, ?_, ?_⟩
      · rwa [List.take_take, Nat.min_eq_left (by omega)]
      · rw [List.length_take]
        omega

/-- An unfinished frame is kept. -/
theorem scan_unfinished {got : List α} (h : F.Unfinished got) :
    F.scan (.pending []) got = (.pending got, []) := by
  by_cases hne : got = []
  · subst hne
    rfl
  · rw [scan_block hne fun k _ _ => by rw [List.nil_append]; exact unfinished_take h k,
      List.nil_append, settle_of_unfinished h]

theorem complete_iff {xs : List α} :
    F.Complete xs ↔ ∃ fs, F.scan (.pending []) xs = (.pending [], fs) := by
  constructor
  · rintro ⟨fs, hfs, rfl⟩
    exact ⟨fs, scan_flatten hfs⟩
  · rintro ⟨fs, hfs⟩
    have h := scan_sound (F := F) (l := xs) unfinished_nil
    rw [hfs] at h
    obtain ⟨hcat, _, hwf⟩ := h
    exact ⟨fs, hwf, by simpa using hcat⟩

theorem endsInside_iff {xs : List α} :
    F.EndsInside xs ↔ ∃ got fs, got ≠ [] ∧ F.scan (.pending []) xs = (.pending got, fs) := by
  constructor
  · rintro ⟨fs, got, hfs, hne, hgot, rfl⟩
    refine ⟨got, fs, hne, ?_⟩
    rw [scan_append, scan_flatten hfs, scan_unfinished hgot, List.append_nil]
  · rintro ⟨got, fs, hne, hscan⟩
    have h := scan_sound (F := F) (l := xs) unfinished_nil
    rw [hscan] at h
    obtain ⟨hcat, hgot, hwf⟩ := h
    exact ⟨fs, got, hwf, hne, hgot, by simpa using hcat⟩

/-! ## The rejected header -/

variable (F) in
/-- Behind `k` symbols of complete frames stands a complete header that is rejected. -/
structure RejectedAt (xs : List α) (k : Nat) (e : ε) : Prop where
  frames : F.Complete (xs.take k)
  header : k + F.headerSize ≤ xs.length
  rejected : F.announce ((xs.drop k).take F.headerSize) = .error e

variable (F) in
/-- The input is the complete frames `fs` and a rest that starts no further frame of the format. -/
structure Splits (xs : List α) (fs : List (Frame α)) (rest : List α) : Prop where
  cat : xs = (fs.map Frame.symbols).flatten ++ rest
  frames : ∀ f ∈ fs, F.WellFormed f
  stops : F.Unfinished rest ∨
    (F.headerSize ≤ rest.length ∧ ∃ e, F.announce (rest.take F.headerSize) = .error e)

/-- A rejected header behind complete frames ends the reading. -/
theorem scan_rejected_header {fs : List (Frame α)} {rest : List α} {e : ε}
    (hfs : ∀ f ∈ fs, F.WellFormed f) (hlen : F.headerSize ≤ rest.length)
    (he : F.announce (rest.take F.headerSize) = .error e) :
    F.scan (.pending []) ((fs.map Frame.symbols).flatten ++ rest) = (.rejected e, fs) := by
  have hhead : (rest.take F.headerSize).length = F.headerSize := by
    rw [List.length_take]
    omega
  have hne : rest.take F.headerSize ≠ [] := by
    have hpos := F.headerSize_pos
    exact List.length_pos_iff.1 (by omega)
  have hset : F.scan (.pending []) (rest.take F.headerSize) = (.rejected e, []) := by
    rw [scan_header_block hne (by rw [List.length_nil]; omega), List.nil_append]
    exact settle_of_error (by omega) (by rw [List.take_of_length_le (by omega), he])
  calc F.scan (.pending []) ((fs.map Frame.symbols).flatten ++ rest)
      = F.scan (.pending []) ((fs.map Frame.symbols).flatten ++
          (rest.take F.headerSize ++ rest.drop F.headerSize)) := by rw [List.take_append_drop]
    _ = (.rejected e, fs) := by
        rw [scan_append, scan_flatten hfs, scan_append, hset]
        simp

theorem exists_splits (xs : List α) : ∃ fs rest, F.Splits xs fs rest := by
  have h := scan_sound (F := F) (l := xs) unfinished_nil
  cases hscan : F.scan (.pending []) xs with
  | mk state fs =>
      rw [hscan, List.nil_append] at h
      cases state with
      | pending rest =>
          obtain ⟨hcat, hrest, hfs⟩ := h
          exact ⟨fs, rest, hcat, hfs, Or.inl hrest⟩
      | rejected e =>
          obtain ⟨rest, hcat, hlen, he, hfs⟩ := h
          exact ⟨fs, rest, hcat, hfs, Or.inr ⟨hlen, e, he⟩⟩

/-- **The frames that are read are those of the split.** -/
theorem Splits.scan {xs : List α} {fs : List (Frame α)} {rest : List α} (h : F.Splits xs fs rest) :
    (F.scan (.pending []) xs).2 = fs := by
  rw [h.cat]
  rcases h.stops with hrest | ⟨hlen, e, he⟩
  · rw [scan_append, scan_flatten h.frames, scan_unfinished hrest, List.append_nil]
  · rw [scan_rejected_header h.frames hlen he]

/-- **Reading rejects exactly the first header that the format rejects.** -/
theorem rejectedAt_iff {xs : List α} {k : Nat} {e : ε} :
    F.RejectedAt xs k e ↔
      ∃ fs, F.scan (.pending []) xs = (.rejected e, fs) ∧
        k = (fs.map Frame.symbols).flatten.length := by
  constructor
  · rintro ⟨⟨fs, hfs, hk⟩, hlen, he⟩
    have hcat : xs = (fs.map Frame.symbols).flatten ++ xs.drop k := by
      rw [← hk, List.take_append_drop]
    refine ⟨fs, ?_, ?_⟩
    · have hdrop : F.headerSize ≤ (xs.drop k).length := by
        rw [List.length_drop]
        omega
      have hscan := scan_rejected_header hfs hdrop he
      rwa [← hcat] at hscan
    · rw [← hk, List.length_take]
      omega
  · rintro ⟨fs, hscan, rfl⟩
    have h := scan_sound (F := F) (l := xs) unfinished_nil
    rw [hscan, List.nil_append] at h
    obtain ⟨rest, hcat, hlen, he, hfs⟩ := h
    refine ⟨⟨fs, hfs, ?_⟩, ?_, ?_⟩
    · rw [hcat, List.take_left]
    · rw [hcat, List.length_append]
      omega
    · rw [hcat, List.drop_left, he]

/-- At most one header is rejected. -/
theorem RejectedAt.unique {xs : List α} {k k' : Nat} {e e' : ε} (h : F.RejectedAt xs k e)
    (h' : F.RejectedAt xs k' e') : k = k' ∧ e = e' := by
  obtain ⟨fs, hscan, hk⟩ := rejectedAt_iff.1 h
  obtain ⟨fs', hscan', hk'⟩ := rejectedAt_iff.1 h'
  rw [hscan] at hscan'
  cases hscan'
  exact ⟨hk.trans hk'.symm, rfl⟩

/-- Whether a header is rejected is decided by its last symbol. -/
theorem rejectedAt_append {xs : List α} {k : Nat} {e : ε} (hk : k + F.headerSize ≤ xs.length)
    (ys : List α) : F.RejectedAt (xs ++ ys) k e ↔ F.RejectedAt xs k e := by
  have htake : (xs ++ ys).take k = xs.take k := List.take_append_of_le_length (by omega)
  have hhead : ((xs ++ ys).drop k).take F.headerSize = (xs.drop k).take F.headerSize := by
    rw [List.drop_append_of_le_length (by omega), List.take_append_of_le_length]
    rw [List.length_drop]
    omega
  constructor
  · rintro ⟨hframes, _, he⟩
    exact ⟨htake ▸ hframes, hk, hhead ▸ he⟩
  · rintro ⟨hframes, _, he⟩
    exact ⟨htake.symm ▸ hframes, by rw [List.length_append]; omega, hhead.symm ▸ he⟩

end LengthPrefix

end Rpcpio.Library

import Rpcpio.Library.Loop
import Rpcpio.Protocol.Compression

/-!
# The loop of `Decompress`

`Decompress` calls zlib's `inflate` until it returns something else than `Z_OK`, and doubles the
output buffer when it is full. zlib is a parameter (`Inflater`): what a call returns, takes and
writes. Lengths pass from `std::size_t` to the 32-bit `uInt` of a `z_stream`, as in the source.

A buffer of size zero is doubled to zero and the loop goes on with `ret` unchanged. Apart from that
each pass takes input, writes output or grows the buffer (`pass_decreases`), so the loop ends
exactly if the first buffer is not empty (`decompress_terminates_iff`).
-/

set_option autoImplicit false

namespace Rpcpio.Protocol

open Rpcpio.Library

/-- The return codes of zlib. -/
inductive ZlibCode where
  | ok
  | streamEnd
  | needDict
  | errno
  | streamError
  | dataError
  | memError
  | bufError
  | versionError
  deriving DecidableEq, Repr

/-- What a call of `inflate` or `deflate` gives: the code, how much input it took, the bytes it
wrote, and the state of the stream. -/
structure ZlibResult (σ : Type) where
  ret : ZlibCode
  consumed : Nat
  output : Bytes
  state : σ

/-- The inflater of zlib: `inflateInit2`, which may fail, and `inflate` on the available input with
room for so many bytes. A call stays within both. -/
structure Inflater where
  State : Type
  init : Option State
  inflate : State → Bytes → Nat → ZlibResult State
  consumed_le : ∀ s input room, (inflate s input room).consumed ≤ input.length
  output_le : ∀ s input room, (inflate s input room).output.length ≤ room

/-- `inflate` returns `Z_OK` only when it made progress. -/
def Inflater.Progresses (I : Inflater) : Prop :=
  ∀ s input room, (I.inflate s input room).ret = .ok →
    0 < (I.inflate s input room).consumed + (I.inflate s input room).output.length

/-- The build: whether `RPCPIO_ENABLE_GZIP` is set, and `max_size()` of strings and vectors. -/
structure Platform where
  gzip : Bool
  maxSize : Nat
  maxSize_lt : maxSize < 2 ^ 63

/-- What a call of `Compress` or `Decompress` ends with: the result and `out`, or the exception of
a container that cannot grow so far. -/
inductive CodecResult where
  | returned (ok : Bool) (out : Bytes)
  | threw
  deriving DecidableEq, Repr

/-- `resize`. -/
def Platform.resize (P : Platform) (out : Bytes) (n : Nat) : Option Bytes :=
  if P.maxSize < n then none else some (out.take n ++ List.replicate (n - out.length) 0)

theorem Platform.resize_eq_some {P : Platform} {out out' : Bytes} {n : Nat}
    (h : P.resize out n = some out') :
    n ≤ P.maxSize ∧ out'.length = n ∧ ∀ k, k ≤ out.length → k ≤ n → out'.take k = out.take k := by
  simp only [resize, Option.ite_none_left_eq_some, Option.some.injEq] at h
  obtain ⟨hle, rfl⟩ := h
  refine ⟨by omega, ?_, fun k hk hn => ?_⟩
  · rw [List.length_append, List.length_take, List.length_replicate]
    omega
  · rw [List.take_append_of_le_length (by rw [List.length_take]; omega), List.take_take,
      Nat.min_eq_left hn]

/-- The locals of the gzip branch of `Decompress`. -/
structure DecompressState (σ : Type) where
  out : Bytes
  nextIn : Nat
  availIn : Nat
  totalOut : Nat
  stream : σ

/-- `avail_out` at the head of a pass. -/
def DecompressState.availOut {σ : Type} (d : DecompressState σ) : Nat :=
  sizeSub d.out.length d.totalOut % 2 ^ 32

/-- The state after a call of `inflate`. -/
def DecompressState.after {σ : Type} (d : DecompressState σ) (r : ZlibResult σ) :
    DecompressState σ where
  out := memcpy d.out d.totalOut r.output
  nextIn := d.nextIn + r.consumed
  availIn := d.availIn - r.consumed
  totalOut := d.totalOut + r.output.length
  stream := r.state

namespace Platform

variable (P : Platform) (I : Inflater)

/-- The call of `inflate` of a pass. -/
def inflateCall (src : Bytes) (d : DecompressState I.State) : ZlibResult I.State :=
  I.inflate d.stream ((src.drop d.nextIn).take d.availIn) d.availOut

/-- One pass of the loop, entered with `ret == Z_OK`. -/
def decompressPass (src : Bytes) (maxOutputSize : Nat) (d : DecompressState I.State) :
    DecompressState I.State ⊕ CodecResult :=
  if d.availOut = 0 then
    -- the buffer is full: `continue` after it grew, without a call of `inflate`
    let newSize := d.out.length * 2 % 2 ^ 64
    if maxOutputSize < newSize then .inr (.returned false d.out)
    else
      match P.resize d.out newSize with
      | none => .inr .threw
      | some out => .inl { d with out := out }
  else
    let r := inflateCall I src d
    let d := d.after r
    -- `while (ret == Z_OK)`
    if r.ret = .ok then .inl d
    else if r.ret = .streamEnd then
      match P.resize d.out d.totalOut with
      | none => .inr .threw
      | some out => .inr (.returned true out)
    else .inr (.returned false d.out)

/-- The loop. -/
def decompressLoop (src : Bytes) (maxOutputSize : Nat) :
    Loop (DecompressState I.State) CodecResult := ⟨P.decompressPass I src maxOutputSize⟩

/-- The size of the first buffer. -/
def firstSize (src : Bytes) (maxOutputSize : Nat) : Nat :=
  min (src.length * 4 % 2 ^ 64) maxOutputSize

/-- The state in which the loop is entered. -/
def decompressStart (src out : Bytes) (maxOutputSize : Nat) (s : I.State) :
    Option (DecompressState I.State) :=
  (P.resize out (firstSize src maxOutputSize)).map fun out => ⟨out, 0, src.length % 2 ^ 32, 0, s⟩

/-- `Decompress`, with at most `fuel` passes of its loop. -/
def decompress (fuel : Nat) (enc : Encoding) (src out : Bytes) (maxOutputSize : Nat) :
    Option CodecResult :=
  match enc with
  | .identity =>
      -- the only branch that a build without zlib serves
      if maxOutputSize < src.length then some (.returned false out)
      else if P.maxSize < src.length then some .threw
      else some (.returned true src)
  | .gzip =>
      if P.gzip then
        match I.init with
        | none => some (.returned false out)
        | some s =>
            match P.decompressStart I src out maxOutputSize s with
            | none => some .threw
            | some d => (P.decompressLoop I src maxOutputSize).run fuel d
      else some (.returned false out)

/-- `Decompress` ends with the result. -/
def Decompresses (enc : Encoding) (src out : Bytes) (maxOutputSize : Nat) (r : CodecResult) :
    Prop :=
  ∃ fuel, P.decompress I fuel enc src out maxOutputSize = some r

/-- zlib is there, and `inflateInit2` succeeds. -/
def InflateReady : Prop := P.gzip = true ∧ I.init.isSome = true

/-! ## One pass -/

section

variable {P I} {src : Bytes} {maxOutputSize : Nat}

/-- What every pass leaves: the buffer is within the limits and holds what was written. -/
structure Within (P : Platform) (maxOutputSize : Nat) {σ : Type} (d : DecompressState σ) :
    Prop where
  limit : d.out.length ≤ maxOutputSize
  maxSize : d.out.length ≤ P.maxSize
  written : d.totalOut ≤ d.out.length

theorem Within.availOut {σ : Type} {d : DecompressState σ} (h : Within P maxOutputSize d) :
    d.availOut = (d.out.length - d.totalOut) % 2 ^ 32 := by
  rw [DecompressState.availOut, sizeSub_of_le h.written]

theorem Within.availOut_le {σ : Type} {d : DecompressState σ} (h : Within P maxOutputSize d) :
    d.totalOut + d.availOut ≤ d.out.length := by
  have hle := Nat.mod_le (d.out.length - d.totalOut) (2 ^ 32)
  have hwritten := h.written
  rw [h.availOut]
  omega

/-- A buffer in the limits is doubled without wrapping around. -/
theorem Within.double {σ : Type} {d : DecompressState σ} (h : Within P maxOutputSize d) :
    d.out.length * 2 % 2 ^ 64 = d.out.length * 2 := by
  have hmax := h.maxSize
  have hlt := P.maxSize_lt
  exact Nat.mod_eq_of_lt (by omega)

/-- A pass that goes on doubles the full buffer, or calls `inflate`. -/
theorem pass_next {d d' : DecompressState I.State} (h : Within P maxOutputSize d)
    (hpass : P.decompressPass I src maxOutputSize d = .inl d') :
    (d.availOut = 0 ∧ d.out.length * 2 ≤ maxOutputSize ∧ d.out.length * 2 ≤ P.maxSize ∧
        ∃ out, d' = { d with out := out } ∧ out.length = d.out.length * 2 ∧
          out.take d.totalOut = d.out.take d.totalOut) ∨
      (d.availOut ≠ 0 ∧ (inflateCall I src d).ret = .ok ∧ d' = d.after (inflateCall I src d)) := by
  simp only [decompressPass, h.double] at hpass
  split at hpass
  -- the buffer is full: neither limit stops the doubling
  · rename_i hzero
    split at hpass
    · cases hpass
    · rename_i hlimit
      split at hpass
      · cases hpass
      · rename_i out hout
        cases hpass
        obtain ⟨hmax, hlen, htake⟩ := resize_eq_some hout
        have hwritten := h.written
        exact Or.inl ⟨hzero, by omega, hmax, out, rfl, hlen, htake _ hwritten (by omega)⟩
  -- `inflate` was called: only `Z_OK` goes on
  · rename_i hzero
    split at hpass
    · rename_i hret
      cases hpass
      exact Or.inr ⟨hzero, hret, rfl⟩
    · split at hpass
      · split at hpass <;> cases hpass
      · cases hpass

/-- A pass that leaves the loop could not double the buffer, or got another code from `inflate`. -/
theorem pass_result {d : DecompressState I.State} {r : CodecResult} (h : Within P maxOutputSize d)
    (hpass : P.decompressPass I src maxOutputSize d = .inr r) :
    (d.availOut = 0 ∧ ((maxOutputSize < d.out.length * 2 ∧ r = .returned false d.out) ∨
        (P.maxSize < d.out.length * 2 ∧ d.out.length * 2 ≤ maxOutputSize ∧ r = .threw))) ∨
      (d.availOut ≠ 0 ∧ (inflateCall I src d).ret = .streamEnd ∧
        r = .returned true ((d.after (inflateCall I src d)).out.take
          (d.totalOut + (inflateCall I src d).output.length))) ∨
      (d.availOut ≠ 0 ∧ (inflateCall I src d).ret ≠ .ok ∧
        (inflateCall I src d).ret ≠ .streamEnd ∧ ∃ out, r = .returned false out) := by
  have hout := I.output_le d.stream ((src.drop d.nextIn).take d.availIn) d.availOut
  have hroom := h.availOut_le
  have hmax := h.maxSize
  simp only [decompressPass, h.double] at hpass
  split at hpass
  -- the buffer is full: the limit stops the doubling, or `resize` throws
  · rename_i hzero
    refine Or.inl ⟨hzero, ?_⟩
    split at hpass
    · rename_i hlimit
      cases hpass
      exact Or.inl ⟨hlimit, rfl⟩
    · rename_i hlimit
      split at hpass
      · rename_i hthrow
        cases hpass
        refine Or.inr ⟨?_, by omega, rfl⟩
        by_contra hle
        rw [resize, if_neg hle] at hthrow
        cases hthrow
      · cases hpass
  -- `inflate` was called: `Z_STREAM_END`, or an error
  · rename_i hzero
    split at hpass
    · cases hpass
    · rename_i hok
      split at hpass
      · rename_i hend
        refine Or.inr (Or.inl ⟨hzero, hend, ?_⟩)
        -- the written bytes lie in the buffer, so the last `resize` only shortens it
        have hwritten : d.totalOut + (inflateCall I src d).output.length ≤ d.out.length := by
          have hcall : (inflateCall I src d).output.length ≤ d.availOut := hout
          omega
        have hlen := (memcpy_spec d.out (inflateCall I src d).output d.totalOut hwritten).1
        have hfits : ¬ P.maxSize < (d.after (inflateCall I src d)).totalOut := by
          show ¬ P.maxSize < d.totalOut + (inflateCall I src d).output.length
          omega
        have hnone : (d.after (inflateCall I src d)).totalOut -
            (d.after (inflateCall I src d)).out.length = 0 := by
          show d.totalOut + (inflateCall I src d).output.length -
            (memcpy d.out d.totalOut (inflateCall I src d).output).length = 0
          omega
        rw [resize, if_neg hfits, hnone, List.replicate_zero, List.append_nil] at hpass
        exact (Sum.inr.inj hpass).symm
      · rename_i hend
        cases hpass
        exact Or.inr (Or.inr ⟨hzero, hok, hend, _, rfl⟩)

/-- A call of `inflate` writes behind what was written, within the buffer. -/
theorem Within.after {d : DecompressState I.State} (h : Within P maxOutputSize d) (src : Bytes) :
    (d.after (inflateCall I src d)).out.length = d.out.length ∧
      (d.after (inflateCall I src d)).out.take (d.totalOut + (inflateCall I src d).output.length) =
        d.out.take d.totalOut ++ (inflateCall I src d).output ∧
      Within P maxOutputSize (d.after (inflateCall I src d)) := by
  have hout : (inflateCall I src d).output.length ≤ d.availOut := I.output_le _ _ _
  have hroom := h.availOut_le
  obtain ⟨hlen, htake⟩ :=
    memcpy_spec d.out (inflateCall I src d).output d.totalOut (by omega)
  refine ⟨hlen, htake, ?_, ?_, ?_⟩
  · exact hlen.le.trans h.limit
  · exact hlen.le.trans h.maxSize
  · have hwritten : d.totalOut + (inflateCall I src d).output.length ≤ d.out.length := by omega
    exact hwritten.trans hlen.ge

/-- **Every pass stays within the limits.** -/
theorem Within.pass {d d' : DecompressState I.State} (h : Within P maxOutputSize d)
    (hpass : P.decompressPass I src maxOutputSize d = .inl d') : Within P maxOutputSize d' := by
  rcases pass_next h hpass with ⟨_, hlimit, hmax, out, rfl, hlen, _⟩ | ⟨_, _, rfl⟩
  · have hwritten := h.written
    exact ⟨hlen.le.trans hlimit, hlen.le.trans hmax, by show d.totalOut ≤ out.length; omega⟩
  · exact (h.after src).2.2

theorem within_start {out : Bytes} {s : I.State} {d : DecompressState I.State}
    (h : P.decompressStart I src out maxOutputSize s = some d) :
    Within P maxOutputSize d ∧ d.out.length = firstSize src maxOutputSize ∧
      d.nextIn = 0 ∧ d.availIn = src.length % 2 ^ 32 ∧ d.totalOut = 0 ∧ d.stream = s := by
  obtain ⟨out', hout, rfl⟩ := Option.map_eq_some_iff.1 h
  obtain ⟨hmax, hlen, _⟩ := resize_eq_some hout
  refine ⟨⟨?_, ?_, Nat.zero_le _⟩, hlen, rfl, rfl, rfl, rfl⟩
  · exact hlen.le.trans (Nat.min_le_right _ _)
  · exact hlen.le.trans hmax

/-! ## Termination -/

/-- What a pass uses up: input that was not taken, and room in the buffer. -/
def measure {σ : Type} (d : DecompressState σ) : Nat :=
  d.availIn + (2 ^ 63 - d.totalOut) + (2 ^ 63 - d.out.length)

/-- **A pass on a buffer that is not empty decreases the measure.** -/
theorem pass_decreases (hprogress : I.Progresses) {d d' : DecompressState I.State}
    (h : Within P maxOutputSize d) (hpos : 0 < d.out.length)
    (hpass : P.decompressPass I src maxOutputSize d = .inl d') :
    0 < d'.out.length ∧ measure d' < measure d := by
  have hlt := P.maxSize_lt
  rcases pass_next h hpass with ⟨_, hlimit, hmax, out, rfl, hlen, _⟩ | ⟨_, hret, rfl⟩
  · -- the buffer grows
    refine ⟨by show 0 < out.length; omega, ?_⟩
    simp only [measure]
    omega
  · -- input is taken, or output written
    have hgain := hprogress _ _ _ hret
    have htaken := I.consumed_le d.stream ((src.drop d.nextIn).take d.availIn) d.availOut
    obtain ⟨hlen, _, hafter⟩ := h.after src
    have hmax := hafter.maxSize
    have hwritten := hafter.written
    refine ⟨by omega, ?_⟩
    have hinput : ((src.drop d.nextIn).take d.availIn).length ≤ d.availIn := by
      rw [List.length_take]
      exact Nat.min_le_left _ _
    simp only [measure, hlen]
    simp only [DecompressState.after, inflateCall] at hwritten hmax hlen ⊢
    omega

/-- The passes that suffice for any call. -/
def enoughPasses : Nat := 2 ^ 32 + 2 ^ 64

/-- The loop ends if its first buffer is not empty. -/
theorem run_enoughPasses (hprogress : I.Progresses) {out : Bytes} {s : I.State}
    {d : DecompressState I.State} (hpos : firstSize src maxOutputSize ≠ 0)
    (hd : P.decompressStart I src out maxOutputSize s = some d) :
    ∃ r, (P.decompressLoop I src maxOutputSize).run enoughPasses d = some r := by
  obtain ⟨hwithin, hlen, _, havail, htotal, _⟩ := within_start hd
  refine Loop.run_of_measure (I := fun d => Within P maxOutputSize d ∧ 0 < d.out.length)
    (μ := measure) (fun d d' hI hpass => ?_) ⟨hwithin, by omega⟩ ?_
  · obtain ⟨hpos', hlt⟩ := pass_decreases hprogress hI.1 hI.2 hpass
    exact ⟨⟨hI.1.pass hpass, hpos'⟩, hlt⟩
  · have hmod : src.length % 2 ^ 32 < 2 ^ 32 := Nat.mod_lt _ (by decide)
    simp only [measure, havail, htotal, enoughPasses]
    omega

/-- An empty buffer is doubled forever. -/
theorem pass_of_empty {d : DecompressState I.State} (hout : d.out = []) (htotal : d.totalOut = 0) :
    P.decompressPass I src maxOutputSize d = .inl d := by
  obtain ⟨out, nextIn, availIn, totalOut, stream⟩ := d
  subst hout htotal
  have hroom : DecompressState.availOut ⟨[], nextIn, availIn, 0, stream⟩ = 0 := rfl
  simp only [decompressPass, hroom, if_true, List.length_nil, Nat.zero_mul, Nat.zero_mod,
    Nat.not_lt_zero, if_false, resize, List.take_nil, Nat.sub_self, List.replicate_zero,
    List.append_nil]

/-! ## What decides a gzip call -/

variable {out : Bytes} {r : CodecResult}

theorem InflateReady.start (h : P.InflateReady I) : ∃ s, P.gzip = true ∧ I.init = some s := by
  obtain ⟨s, hs⟩ := Option.isSome_iff_exists.1 h.2
  exact ⟨s, h.1, hs⟩

theorem returns_of_run (h : ∀ fuel, P.decompress I fuel .gzip src out maxOutputSize = some r)
    {r' : CodecResult} : P.Decompresses I .gzip src out maxOutputSize r' ↔ r' = r := by
  constructor
  · rintro ⟨fuel, hr⟩
    rw [h, Option.some.injEq] at hr
    exact hr.symm
  · rintro rfl
    exact ⟨0, h 0⟩

/-- Without zlib the call fails. -/
theorem decompress_of_not_ready (h : ¬ P.InflateReady I) (fuel : Nat) :
    P.decompress I fuel .gzip src out maxOutputSize = some (.returned false out) := by
  cases hgzip : P.gzip with
  | false => simp only [decompress, hgzip, Bool.false_eq_true, if_false]
  | true =>
      cases hinit : I.init with
      | none => simp only [decompress, hgzip, if_true, hinit]
      | some s => exact absurd ⟨hgzip, by rw [hinit, Option.isSome_some]⟩ h

theorem decompresses_of_not_ready (h : ¬ P.InflateReady I) :
    P.Decompresses I .gzip src out maxOutputSize r ↔ r = .returned false out :=
  returns_of_run fun fuel => decompress_of_not_ready h fuel

/-- A first buffer that is too large throws. -/
theorem decompresses_of_throw {s : I.State} (hgzip : P.gzip = true) (hs : I.init = some s)
    (hstart : P.decompressStart I src out maxOutputSize s = none) :
    P.Decompresses I .gzip src out maxOutputSize r ↔ r = .threw := by
  apply returns_of_run
  intro fuel
  simp only [decompress, hgzip, if_true, hs, hstart]

/-- Otherwise the loop decides. -/
theorem decompresses_of_start {s : I.State} {d : DecompressState I.State} (hgzip : P.gzip = true)
    (hs : I.init = some s) (hstart : P.decompressStart I src out maxOutputSize s = some d) :
    P.Decompresses I .gzip src out maxOutputSize r ↔
      (P.decompressLoop I src maxOutputSize).Returns d r := by
  have hrun : ∀ fuel, P.decompress I fuel .gzip src out maxOutputSize =
      (P.decompressLoop I src maxOutputSize).run fuel d := by
    intro fuel
    simp only [decompress, hgzip, if_true, hs, hstart]
  simp only [Decompresses, hrun, Loop.Returns]

theorem decompressStart_eq_none_iff {s : I.State} :
    P.decompressStart I src out maxOutputSize s = none ↔
      P.maxSize < firstSize src maxOutputSize := by
  rw [decompressStart, Option.map_eq_none_iff, resize]
  split
  · rename_i hlt
    exact iff_of_true rfl hlt
  · rename_i hlt
    exact iff_of_false (by intro h; cases h) hlt

/-- A call has at most one result. -/
theorem Decompresses.unique {r' : CodecResult}
    (h : P.Decompresses I .gzip src out maxOutputSize r)
    (h' : P.Decompresses I .gzip src out maxOutputSize r') : r = r' := by
  by_cases hready : P.InflateReady I
  · obtain ⟨s, hgzip, hs⟩ := hready.start
    cases hstart : P.decompressStart I src out maxOutputSize s with
    | none =>
        rw [decompresses_of_throw hgzip hs hstart] at h h'
        exact h.trans h'.symm
    | some d =>
        rw [decompresses_of_start hgzip hs hstart] at h h'
        exact h.unique h'
  · rw [decompresses_of_not_ready hready] at h h'
    exact h.trans h'.symm

/-- A first buffer of size zero is never left. -/
theorem not_decompresses_of_empty (hready : P.InflateReady I)
    (hzero : firstSize src maxOutputSize = 0) :
    ¬ ∃ r, P.Decompresses I .gzip src out maxOutputSize r := by
  obtain ⟨s, hgzip, hs⟩ := hready.start
  cases hstart : P.decompressStart I src out maxOutputSize s with
  | none =>
      have hlt := decompressStart_eq_none_iff.1 hstart
      omega
  | some d =>
      simp only [decompresses_of_start hgzip hs hstart]
      obtain ⟨_, hlen, _, _, htotal, _⟩ := within_start hstart
      have hempty : d.out = [] := List.length_eq_zero_iff.1 (hlen.trans hzero)
      exact Loop.not_terminates_of_fixpoint (L := P.decompressLoop I src maxOutputSize)
        (pass_of_empty hempty htotal)

/-- Any other is, within `enoughPasses`. -/
theorem decompress_of_pos (hprogress : I.Progresses) (hready : P.InflateReady I)
    (hpos : firstSize src maxOutputSize ≠ 0) (out : Bytes) :
    ∃ r, P.decompress I enoughPasses .gzip src out maxOutputSize = some r := by
  obtain ⟨s, hgzip, hs⟩ := hready.start
  simp only [decompress, hgzip, if_true, hs]
  cases hstart : P.decompressStart I src out maxOutputSize s with
  | none => exact ⟨_, rfl⟩
  | some d => exact run_enoughPasses hprogress hpos hstart

/-- A call that ends does so within `enoughPasses`. -/
theorem decompresses_iff (hprogress : I.Progresses) :
    P.Decompresses I .gzip src out maxOutputSize r ↔
      P.decompress I enoughPasses .gzip src out maxOutputSize = some r := by
  constructor
  · intro h
    by_cases hready : P.InflateReady I
    -- a call that ends had a first buffer, since an empty one is never left
    · have hpos : firstSize src maxOutputSize ≠ 0 := fun hzero =>
        not_decompresses_of_empty hready hzero ⟨r, h⟩
      obtain ⟨r', hr'⟩ := decompress_of_pos hprogress hready hpos out
      obtain rfl := h.unique ⟨_, hr'⟩
      exact hr'
    · obtain rfl := (decompresses_of_not_ready hready).1 h
      exact decompress_of_not_ready hready enoughPasses
  · intro h
    exact ⟨_, h⟩

end

/-! ## What the callers see -/

/-- The codec that the calls use: the data, if `Decompress` returns true with a new vector. -/
def toZlib (P : Platform) (I : Inflater) : Zlib where
  enabled := P.gzip
  inflate src maxOutputSize :=
    match P.decompress I enoughPasses .gzip src [] maxOutputSize with
    | some (.returned true data) => some data
    | _ => none

/-- **The codec of the calls is `Decompress`**, for input that fits into a vector. -/
theorem decompress_toZlib {P : Platform} {I : Inflater} (hprogress : I.Progresses) (enc : Encoding)
    {src : Bytes} (hsrc : src.length ≤ P.maxSize) (maxOutputSize : Nat) (data : Bytes) :
    Protocol.decompress (P.toZlib I) enc src maxOutputSize = some data ↔
      P.Decompresses I enc src [] maxOutputSize (.returned true data) := by
  cases enc with
  | identity =>
      simp only [Decompresses, decompress, Protocol.decompress, if_neg (Nat.not_lt.2 hsrc)]
      split
      · simp only [reduceCtorEq, Option.some.injEq, CodecResult.returned.injEq, Bool.false_eq_true,
          false_and, exists_const]
      · simp only [Option.some.injEq, CodecResult.returned.injEq, true_and, exists_const]
  | gzip =>
      rw [decompresses_iff hprogress, Protocol.decompress, toZlib]
      cases hgzip : P.gzip with
      | false =>
          have hnot : ¬ P.InflateReady I := fun h => by rw [h.1] at hgzip; cases hgzip
          rw [decompress_of_not_ready hnot, if_neg Bool.false_ne_true]
          exact iff_of_false (by intro h; cases h) (by intro h; cases h)
      | true =>
          simp only [if_true]
          constructor
          -- only a call that returned true gives data
          · intro h
            split at h
            · rename_i d hd
              cases h
              exact hd
            · cases h
          · intro h
            rw [h]

end Platform

/-! ## A recorded stream -/

/-- What zlib does on one stream: it takes the stream in any pieces, and writes the data when it has
all of it. Of a call that fills the buffer it took `used` bytes of the stream. -/
def recordedInflate (src data : Bytes) (used : Nat) (s : Nat × Nat) (input : Bytes) (room : Nat) :
    ZlibResult (Nat × Nat) :=
  let rest := data.drop s.2
  if room = 0 then ⟨.bufError, 0, [], s⟩
  else if input = src.drop s.1 then
    if rest.length ≤ room then
      ⟨.streamEnd, input.length, rest, (s.1 + input.length, s.2 + rest.length)⟩
    else
      let taken := min (used - s.1) input.length
      ⟨.ok, taken, rest.take room, (s.1 + taken, s.2 + room)⟩
  else if input.isPrefixOf (src.drop s.1) then
    if input = [] then ⟨.bufError, 0, [], s⟩
    else ⟨.ok, input.length, [], (s.1 + input.length, s.2)⟩
  else ⟨.dataError, 0, [], s⟩

theorem recordedInflate_bounds (src data : Bytes) (used : Nat) (s : Nat × Nat) (input : Bytes)
    (room : Nat) :
    (recordedInflate src data used s input room).consumed ≤ input.length ∧
      (recordedInflate src data used s input room).output.length ≤ room ∧
      ((recordedInflate src data used s input room).ret = .ok →
        0 < (recordedInflate src data used s input room).consumed +
          (recordedInflate src data used s input room).output.length) := by
  simp only [recordedInflate]
  split
  · exact ⟨Nat.zero_le _, Nat.zero_le _, fun h => by cases h⟩
  · rename_i hroom
    split
    · split
      · rename_i hfits
        exact ⟨le_refl _, hfits, fun h => by cases h⟩
      · rename_i hfull
        have hlen : ((data.drop s.2).take room).length = room := by
          rw [List.length_take]
          omega
        exact ⟨Nat.min_le_right _ _, hlen.le, fun _ => by simp only [hlen]; omega⟩
    · split
      · split
        · exact ⟨Nat.zero_le _, Nat.zero_le _, fun h => by cases h⟩
        · rename_i hne
          have hpos := List.length_pos_iff.2 hne
          exact ⟨le_refl _, Nat.zero_le _, fun _ => by simp only [List.length_nil]; omega⟩
      · exact ⟨Nat.zero_le _, Nat.zero_le _, fun h => by cases h⟩

/-- The inflater on that stream. -/
def recorded (src data : Bytes) (used : Nat) : Inflater where
  State := Nat × Nat
  init := some (0, 0)
  inflate := recordedInflate src data used
  consumed_le s input room := (recordedInflate_bounds src data used s input room).1
  output_le s input room := (recordedInflate_bounds src data used s input room).2.1

theorem recorded_progresses (src data : Bytes) (used : Nat) : (recorded src data used).Progresses :=
  fun s input room => (recordedInflate_bounds src data used s input room).2.2

/-- A 64-bit build with zlib. -/
def Platform.linux : Platform := ⟨true, 2 ^ 63 - 1, by decide⟩

/-- The gzip stream of `data`. -/
def aStream : Bytes :=
  [31, 139, 8, 0, 0, 0, 0, 0, 0, 3, 75, 4, 0, 67, 190, 183, 232, 1, 0, 0, 0]

namespace Platform

/-! ## The result -/

/-- **`Decompress` ends** unless gzip data are to be inflated into a first buffer of size zero: for
empty input, for the limit zero, or when four times the size of the input wraps around to zero. -/
theorem decompress_terminates_iff {P : Platform} {I : Inflater} (hprogress : I.Progresses)
    (enc : Encoding) (src out : Bytes) (maxOutputSize : Nat) :
    (∃ r, P.Decompresses I enc src out maxOutputSize r) ↔
      ¬ (enc = .gzip ∧ P.InflateReady I ∧ firstSize src maxOutputSize = 0) := by
  cases enc with
  | identity =>
      refine iff_of_true ?_ fun h => by cases h.1
      simp only [Decompresses, decompress]
      split
      · exact ⟨_, 0, rfl⟩
      · split <;> exact ⟨_, 0, rfl⟩
  | gzip =>
      by_cases hready : P.InflateReady I
      · by_cases hzero : firstSize src maxOutputSize = 0
        · exact iff_of_false (not_decompresses_of_empty hready hzero)
            fun h => h ⟨rfl, hready, hzero⟩
        · obtain ⟨r, hr⟩ := decompress_of_pos hprogress hready hzero out
          exact iff_of_true ⟨r, _, hr⟩ fun h => hzero h.2.2
      · exact iff_of_true ⟨_, (decompresses_of_not_ready hready).2 rfl⟩ fun h => hready h.2.1

/-- A stream of one byte. -/
theorem decompress_terminates_iff_gzip :
    ∃ r, linux.Decompresses (recorded aStream [97] 21) .gzip aStream [] (4 * 1024 * 1024) r :=
  (decompress_terminates_iff (recorded_progresses aStream [97] 21) .gzip aStream [] _).2
    fun h => absurd h.2.2 (by decide)

/-- Empty input, as a frame of length 0 with the compressed flag has it, is doubled forever. -/
theorem not_decompress_terminates :
    ¬ ∀ (P : Platform) (I : Inflater), I.Progresses → ∀ (enc : Encoding) (src out : Bytes)
      (maxOutputSize : Nat), ∃ r, P.Decompresses I enc src out maxOutputSize r := by
  intro h
  have hnever : ¬ ∃ r, linux.Decompresses (recorded aStream [97] 21) .gzip [] []
      (4 * 1024 * 1024) r := not_decompresses_of_empty ⟨rfl, rfl⟩ (by decide)
  exact hnever (h linux _ (recorded_progresses aStream [97] 21) .gzip [] [] _)

end Platform

end Rpcpio.Protocol

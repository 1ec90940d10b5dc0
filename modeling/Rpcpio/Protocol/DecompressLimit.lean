import Rpcpio.Protocol.Inflate

/-!
# The output limit of `Decompress`

What `Decompress` does with a complete gzip stream `src` of `data`. The contract of zlib
(`Inflater.Inflates`) says that `inflate` writes as much of the data as there is room for, and ends
the stream when it has all of the input and room for the rest of the data.

The first buffer has `firstSize` bytes and the `k`-th doubling `firstSize * 2 ^ k`. `avail_out` is
the free room modulo `2 ^ 32`, so `offered firstSize (k + 1)` bytes can be written before the next
doubling; below 4 GiB that is the whole buffer. The data are returned exactly if they fit into one
of these buffers that the limit allows (`accepts_iff`). The limit itself need not be such a size:
data between the last doubling and the limit are rejected.
-/

set_option autoImplicit false

namespace Rpcpio.Protocol

open Rpcpio.Library

/-- What zlib's manual says of `inflate` on the complete stream `src` of `data`. `At s c p` are the
states in which `c` bytes of the stream are taken and `p` bytes of the data are written. -/
structure Inflater.Inflates (I : Inflater) (src data : Bytes) (At : I.State → Nat → Nat → Prop) :
    Prop where
  progresses : I.Progresses
  start : ∀ {s}, I.init = some s → At s 0 0
  /-- The output is the next part of the data. -/
  written : ∀ {s c p n room}, At s c p → 0 < room → c + n ≤ src.length →
    (I.inflate s ((src.drop c).take n) room).output =
      (data.drop p).take (I.inflate s ((src.drop c).take n) room).output.length
  /-- After `Z_OK` the next call goes on behind what this one took and wrote. -/
  next : ∀ {s c p n room}, At s c p → 0 < room → c + n ≤ src.length →
    (I.inflate s ((src.drop c).take n) room).ret = .ok →
      At (I.inflate s ((src.drop c).take n) room).state
        (c + (I.inflate s ((src.drop c).take n) room).consumed)
        (p + (I.inflate s ((src.drop c).take n) room).output.length)
  /-- `Z_STREAM_END`: the end of the stream is reached and all data are written. -/
  ended : ∀ {s c p n room}, At s c p → 0 < room → c + n ≤ src.length →
    (I.inflate s ((src.drop c).take n) room).ret = .streamEnd →
      c + (I.inflate s ((src.drop c).take n) room).consumed = src.length ∧
        p + (I.inflate s ((src.drop c).take n) room).output.length = data.length
  /-- All input and enough room: the stream ends. -/
  complete : ∀ {s c p room}, At s c p → 0 < room → data.length ≤ p + room →
    (I.inflate s (src.drop c) room).ret = .streamEnd
  /-- All input and not enough room: the room is filled. -/
  full : ∀ {s c p room}, At s c p → 0 < room → p + room < data.length →
    (I.inflate s (src.drop c) room).ret = .ok ∧
      (I.inflate s (src.drop c) room).output.length = room

/-! ## How much fits -/

/-- The bytes that can be written before the buffer of `size` bytes is doubled the `k`-th time. -/
def offered (size : Nat) : Nat → Nat
  | 0 => 0
  | k + 1 => offered size k + (size * 2 ^ k - offered size k) % 2 ^ 32

theorem offered_le (size k : Nat) : offered size k ≤ size * 2 ^ k := by
  induction k with
  | zero => exact Nat.zero_le _
  | succ k ih =>
      have hmod := Nat.mod_le (size * 2 ^ k - offered size k) (2 ^ 32)
      have hdouble : size * 2 ^ (k + 1) = size * 2 ^ k * 2 := by rw [pow_succ, Nat.mul_assoc]
      rw [offered]
      omega

theorem offered_mono (size : Nat) : Monotone (offered size) :=
  monotone_nat_of_le_succ fun _ => Nat.le_add_right _ _

/-- After the offered bytes `avail_out` is zero. -/
theorem offered_exhausts (size k : Nat) : (size * 2 ^ k - offered size (k + 1)) % 2 ^ 32 = 0 := by
  have hle := offered_le size k
  rw [offered]
  omega

/-- Below 4 GiB the whole buffer is offered. -/
theorem offered_eq (size : Nat) {k : Nat} (h : size * 2 ^ k < 2 ^ 32) :
    offered size (k + 1) = size * 2 ^ k := by
  have hle := offered_le size k
  rw [offered, Nat.mod_eq_of_lt (by omega)]
  omega

namespace Platform

variable {P : Platform} {I : Inflater} {At : I.State → Nat → Nat → Prop} {src data out : Bytes}
  {maxOutputSize : Nat}

/-! ## The data written so far -/

/-- A state of the loop that has written the first bytes of the data. -/
structure Follows (P : Platform) (At : I.State → Nat → Nat → Prop) (src data : Bytes)
    (maxOutputSize : Nat) (d : DecompressState I.State) : Prop where
  within : Within P maxOutputSize d
  position : At d.stream d.nextIn d.totalOut
  input : d.nextIn + d.availIn = src.length % 2 ^ 32
  bounded : d.totalOut ≤ data.length
  output : d.out.take d.totalOut = data.take d.totalOut

theorem Follows.input_le {d : DecompressState I.State}
    (h : Follows P At src data maxOutputSize d) : d.nextIn + d.availIn ≤ src.length :=
  h.input.le.trans (Nat.mod_le _ _)

/-- The loop is entered with nothing written. -/
theorem follows_start (hzlib : I.Inflates src data At) {s : I.State} {d : DecompressState I.State}
    (hs : I.init = some s) (hstart : P.decompressStart I src out maxOutputSize s = some d) :
    Follows P At src data maxOutputSize d := by
  obtain ⟨hwithin, _, hnext, havail, htotal, hstream⟩ := within_start hstart
  refine ⟨hwithin, ?_, ?_, ?_, ?_⟩
  · rw [hstream, hnext, htotal]
    exact hzlib.start hs
  · rw [hnext, havail, Nat.zero_add]
  · rw [htotal]
    exact Nat.zero_le _
  · rw [htotal, List.take_zero, List.take_zero]

/-- A call of `inflate` continues the data in the buffer. -/
theorem Follows.call (hzlib : I.Inflates src data At) {d : DecompressState I.State}
    (h : Follows P At src data maxOutputSize d) (hroom : d.availOut ≠ 0) :
    d.totalOut + (inflateCall I src d).output.length ≤ data.length ∧
      (d.after (inflateCall I src d)).out.take
          (d.totalOut + (inflateCall I src d).output.length) =
        data.take (d.totalOut + (inflateCall I src d).output.length) := by
  have hwritten : (inflateCall I src d).output =
      (data.drop d.totalOut).take (inflateCall I src d).output.length :=
    hzlib.written h.position (Nat.pos_of_ne_zero hroom) h.input_le
  have hlen := congrArg List.length hwritten
  have hbounded := h.bounded
  rw [List.length_take, List.length_drop] at hlen
  refine ⟨by omega, ?_⟩
  rw [(h.within.after src).2.1, h.output, List.take_add, ← hwritten]

/-- **Every pass follows the data.** -/
theorem Follows.pass (hzlib : I.Inflates src data At) {d d' : DecompressState I.State}
    (h : Follows P At src data maxOutputSize d)
    (hpass : P.decompressPass I src maxOutputSize d = .inl d') :
    Follows P At src data maxOutputSize d' := by
  have hwithin := h.within.pass hpass
  rcases pass_next h.within hpass with ⟨_, _, _, out', rfl, _, htake⟩ | ⟨hroom, hret, rfl⟩
  · exact ⟨hwithin, h.position, h.input, h.bounded, htake.trans h.output⟩
  · obtain ⟨hbounded, houtput⟩ := h.call hzlib hroom
    have hconsumed : (inflateCall I src d).consumed ≤ d.availIn :=
      (I.consumed_le _ _ _).trans ((List.length_take_le _ _))
    have hinput := h.input
    refine ⟨hwithin, ?_, ?_, hbounded, houtput⟩
    · exact hzlib.next h.position (Nat.pos_of_ne_zero hroom) h.input_le hret
    · show d.nextIn + (inflateCall I src d).consumed +
        (d.availIn - (inflateCall I src d).consumed) = src.length % 2 ^ 32
      omega

/-- At the end of the stream the buffer begins with the data. -/
theorem Follows.ended (hzlib : I.Inflates src data At) {d : DecompressState I.State}
    (h : Follows P At src data maxOutputSize d) (hroom : d.availOut ≠ 0)
    (hend : (inflateCall I src d).ret = .streamEnd) :
    (d.after (inflateCall I src d)).out.take
        (d.totalOut + (inflateCall I src d).output.length) = data ∧
      src.length < 2 ^ 32 ∧ data.length ≤ maxOutputSize := by
  obtain ⟨_, houtput⟩ := h.call hzlib hroom
  obtain ⟨htaken, hall⟩ := hzlib.ended h.position (Nat.pos_of_ne_zero hroom) h.input_le hend
  have htaken : d.nextIn + (inflateCall I src d).consumed = src.length := htaken
  have hall : d.totalOut + (inflateCall I src d).output.length = data.length := hall
  have hconsumed : (inflateCall I src d).consumed ≤ d.availIn :=
    (I.consumed_le _ _ _).trans ((List.length_take_le _ _))
  have hafter := (h.within.after src).2.2
  have hfit : d.totalOut + (inflateCall I src d).output.length ≤ maxOutputSize :=
    hafter.written.trans hafter.limit
  have hinput := h.input
  refine ⟨?_, by omega, by omega⟩
  rw [houtput, hall, List.take_length]

/-- How the loop is left: with all data, if they are within the limit and the size of the input fits
into `avail_in`; with false; or by a buffer that cannot grow. -/
theorem Follows.result (hzlib : I.Inflates src data At) {d : DecompressState I.State}
    {r : CodecResult} (h : Follows P At src data maxOutputSize d)
    (hpass : P.decompressPass I src maxOutputSize d = .inr r) :
    (r = .returned true data ∧ src.length < 2 ^ 32 ∧ data.length ≤ maxOutputSize) ∨
      (∃ o, r = .returned false o) ∨
      (r = .threw ∧ P.maxSize < d.out.length * 2 ∧ d.out.length * 2 ≤ maxOutputSize) := by
  rcases pass_result h.within hpass with
    ⟨_, ⟨_, rfl⟩ | ⟨hmax, hlimit, rfl⟩⟩ | ⟨hroom, hend, rfl⟩ | ⟨_, _, _, o, rfl⟩
  · exact Or.inr (Or.inl ⟨_, rfl⟩)
  · exact Or.inr (Or.inr ⟨rfl, hmax, hlimit⟩)
  · obtain ⟨hall, hsrc, hfits⟩ := h.ended hzlib hroom hend
    rw [hall]
    exact Or.inl ⟨rfl, hsrc, hfits⟩
  · exact Or.inr (Or.inl ⟨_, rfl⟩)

/-- A run that returns true returns the data. -/
theorem Decompresses.accepted (hzlib : I.Inflates src data At) (hready : P.InflateReady I)
    (h : P.Decompresses I .gzip src out maxOutputSize (.returned true data)) :
    src.length < 2 ^ 32 ∧ data.length ≤ maxOutputSize := by
  obtain ⟨s, hgzip, hs⟩ := hready.start
  cases hstart : P.decompressStart I src out maxOutputSize s with
  | none =>
      rw [decompresses_of_throw hgzip hs hstart] at h
      cases h
  | some d =>
      rw [decompresses_of_start hgzip hs hstart] at h
      obtain ⟨t, hreach, hleave⟩ := Loop.returns_iff.1 h
      have hfollows := Loop.reaches_invariant (fun _ _ h hp => h.pass hzlib hp) hreach
        (follows_start hzlib hs hstart)
      rcases hfollows.result hzlib hleave with ⟨_, h⟩ | ⟨o, h⟩ | ⟨h, _⟩
      · exact h
      · cases h
      · cases h

/-- **Data above the limit are rejected**, when the loop ends at all. -/
theorem rejects_above (hzlib : I.Inflates src data At) (hready : P.InflateReady I)
    (hdata : data.length ≤ P.maxSize) (hlimit : maxOutputSize < data.length)
    (hpos : firstSize src maxOutputSize ≠ 0) :
    ∃ o, P.Decompresses I .gzip src out maxOutputSize (.returned false o) := by
  obtain ⟨s, hgzip, hs⟩ := hready.start
  obtain ⟨r, hr⟩ := decompress_of_pos hzlib.progresses hready hpos out
  have hr : P.Decompresses I .gzip src out maxOutputSize r := ⟨_, hr⟩
  cases hstart : P.decompressStart I src out maxOutputSize s with
  | none =>
      have hlarge := decompressStart_eq_none_iff.1 hstart
      have hfirst : firstSize src maxOutputSize ≤ maxOutputSize := Nat.min_le_right _ _
      omega
  | some d =>
      obtain ⟨t, hreach, hleave⟩ :=
        Loop.returns_iff.1 ((decompresses_of_start hgzip hs hstart).1 hr)
      have hfollows := Loop.reaches_invariant (fun _ _ h hp => h.pass hzlib hp) hreach
        (follows_start hzlib hs hstart)
      rcases hfollows.result hzlib hleave with ⟨_, _, hfits⟩ | ⟨o, rfl⟩ | ⟨_, hmax, hfits⟩
      · omega
      · exact ⟨o, hr⟩
      · omega

/-! ## The stages of the buffer -/

/-- The buffer after `k` doublings: nothing of this size is written yet, or all that is offered. -/
structure AtStage (size : Nat) (data : Bytes) (k : Nat) (d : DecompressState I.State) : Prop where
  length : d.out.length = size * 2 ^ k
  progress : (d.totalOut = offered size k ∧ (k = 0 ∨ offered size k < data.length)) ∨
    (d.totalOut = offered size (k + 1) ∧ offered size (k + 1) < data.length)

theorem AtStage.availOut {size k : Nat} {d : DecompressState I.State} (h : AtStage size data k d)
    (hwithin : Within P maxOutputSize d) :
    (d.totalOut = offered size k ∧ (k = 0 ∨ offered size k < data.length) ∧
        d.totalOut + d.availOut = offered size (k + 1)) ∨
      (d.availOut = 0 ∧ d.totalOut = offered size (k + 1) ∧
        offered size (k + 1) < data.length) := by
  rw [hwithin.availOut, h.length]
  rcases h.progress with ⟨htotal, hk⟩ | ⟨htotal, hlt⟩
  · exact Or.inl ⟨htotal, hk, by rw [htotal]; rfl⟩
  · exact Or.inr ⟨by rw [htotal]; exact offered_exhausts size k, htotal, hlt⟩

/-- `avail_out` is zero only when all that is offered is written, and there is more. -/
theorem AtStage.exhausted {size k : Nat} {d : DecompressState I.State} (h : AtStage size data k d)
    (hwithin : Within P maxOutputSize d) (hsize : size % 2 ^ 32 ≠ 0) (hzero : d.availOut = 0) :
    d.totalOut = offered size (k + 1) ∧ offered size (k + 1) < data.length := by
  rcases h.availOut hwithin with ⟨htotal, hk, hoffered⟩ | ⟨_, htotal, hlt⟩
  · rw [hzero, Nat.add_zero] at hoffered
    rcases hk with rfl | hlt
    · have hfirst : offered size 1 = size % 2 ^ 32 := by
        simp only [offered, Nat.zero_add, pow_zero, Nat.mul_one, Nat.sub_zero]
      rw [htotal, hfirst] at hoffered
      exact absurd hoffered.symm hsize
    · exact ⟨hoffered, by omega⟩
  · exact ⟨htotal, hlt⟩

/-- With all input available, a call ends the stream or fills the room. -/
theorem Follows.stage (hzlib : I.Inflates src data At) (hsrc : src.length < 2 ^ 32) {size k : Nat}
    {d : DecompressState I.State} (h : Follows P At src data maxOutputSize d)
    (hstage : AtStage size data k d) (hroom : d.availOut ≠ 0) :
    d.totalOut = offered size k ∧
      ((data.length ≤ offered size (k + 1) ∧ (inflateCall I src d).ret = .streamEnd) ∨
        (offered size (k + 1) < data.length ∧ (inflateCall I src d).ret = .ok ∧
          d.totalOut + (inflateCall I src d).output.length = offered size (k + 1))) := by
  rcases hstage.availOut h.within with ⟨htotal, _, hoffered⟩ | ⟨hzero, _⟩
  · refine ⟨htotal, ?_⟩
    have hall : (src.drop d.nextIn).take d.availIn = src.drop d.nextIn := by
      have hinput := h.input
      rw [Nat.mod_eq_of_lt hsrc] at hinput
      exact List.take_of_length_le (by rw [List.length_drop]; omega)
    have hcall : inflateCall I src d = I.inflate d.stream (src.drop d.nextIn) d.availOut := by
      rw [inflateCall, hall]
    rw [hcall]
    have hpos := Nat.pos_of_ne_zero hroom
    by_cases hfits : data.length ≤ offered size (k + 1)
    · exact Or.inl ⟨hfits, hzlib.complete h.position hpos (hoffered ▸ hfits)⟩
    · have hlt : d.totalOut + d.availOut < data.length := by omega
      obtain ⟨hret, hlen⟩ := hzlib.full h.position hpos hlt
      exact Or.inr ⟨by omega, hret, by rw [hlen, hoffered]⟩
  · exact absurd hzero hroom

/-- A pass stays at the stage or goes to the next. -/
theorem AtStage.pass (hzlib : I.Inflates src data At) (hsrc : src.length < 2 ^ 32) {size k : Nat}
    (hsize : size % 2 ^ 32 ≠ 0) {d d' : DecompressState I.State}
    (h : Follows P At src data maxOutputSize d) (hstage : AtStage size data k d)
    (hpass : P.decompressPass I src maxOutputSize d = .inl d') : ∃ k, AtStage size data k d' := by
  rcases pass_next h.within hpass with ⟨hzero, _, _, out', rfl, hlen, _⟩ | ⟨hroom, hret, rfl⟩
  · -- the buffer is doubled
    obtain ⟨htotal, hlt⟩ := hstage.exhausted h.within hsize hzero
    refine ⟨k + 1, ?_, Or.inl ⟨htotal, Or.inr hlt⟩⟩
    show out'.length = size * 2 ^ (k + 1)
    rw [hlen, hstage.length, pow_succ, Nat.mul_assoc]
  · -- the room is filled
    obtain ⟨_, ⟨_, hend⟩ | ⟨hlt, _, hfull⟩⟩ := h.stage hzlib hsrc hstage hroom
    · rw [hend] at hret
      cases hret
    · refine ⟨k, ?_, Or.inr ⟨hfull, hlt⟩⟩
      rw [(h.within.after src).1, hstage.length]

/-- At its stage the loop is left with the data, if they fit, or without them, if the next buffer is
not allowed. -/
theorem AtStage.result (hzlib : I.Inflates src data At) (hsrc : src.length < 2 ^ 32) {size k : Nat}
    (hsize : size % 2 ^ 32 ≠ 0) {d : DecompressState I.State} {r : CodecResult}
    (h : Follows P At src data maxOutputSize d) (hstage : AtStage size data k d)
    (hpass : P.decompressPass I src maxOutputSize d = .inr r) :
    (r = .returned true data ∧ data.length ≤ offered size (k + 1)) ∨
      (r ≠ .returned true data ∧ offered size (k + 1) < data.length ∧
        (maxOutputSize < size * 2 ^ (k + 1) ∨ P.maxSize < size * 2 ^ (k + 1))) := by
  have hdouble : size * 2 ^ (k + 1) = d.out.length * 2 := by
    rw [hstage.length, pow_succ, Nat.mul_assoc]
  rcases pass_result h.within hpass with
    ⟨hzero, hgrow⟩ | ⟨hroom, hend, rfl⟩ | ⟨hroom, hok, hnot, _⟩
  -- the buffer is full, and data are left
  · obtain ⟨_, hlt⟩ := hstage.exhausted h.within hsize hzero
    rw [hdouble]
    rcases hgrow with ⟨hlimit, rfl⟩ | ⟨hmax, _, rfl⟩
    · exact Or.inr ⟨(by intro h; cases h), hlt, Or.inl hlimit⟩
    · exact Or.inr ⟨(by intro h; cases h), hlt, Or.inr hmax⟩
  -- the stream ended, so the rest of the data had room
  · obtain ⟨_, ⟨hfits, _⟩ | ⟨_, hret, _⟩⟩ := h.stage hzlib hsrc hstage hroom
    · exact Or.inl ⟨by rw [(h.ended hzlib hroom hend).1], hfits⟩
    · rw [hret] at hend
      cases hend
  -- with all input available `inflate` returns no other code
  · obtain ⟨_, ⟨_, hret⟩ | ⟨_, hret, _⟩⟩ := h.stage hzlib hsrc hstage hroom
    · exact absurd hret hnot
    · exact absurd hret hok

/-- **The data are returned exactly if a buffer that the limit allows offers room for them.** -/
theorem accepts_iff_of_stage (hzlib : I.Inflates src data At) (hready : P.InflateReady I)
    (hsrc : src.length < 2 ^ 32) (hsize : firstSize src maxOutputSize % 2 ^ 32 ≠ 0) :
    P.Decompresses I .gzip src out maxOutputSize (.returned true data) ↔
      ∃ k, firstSize src maxOutputSize * 2 ^ k ≤ maxOutputSize ∧
        firstSize src maxOutputSize * 2 ^ k ≤ P.maxSize ∧
        data.length ≤ offered (firstSize src maxOutputSize) (k + 1) := by
  have hpos : firstSize src maxOutputSize ≠ 0 := fun h => hsize (by rw [h, Nat.zero_mod])
  obtain ⟨s, hgzip, hs⟩ := hready.start
  cases hstart : P.decompressStart I src out maxOutputSize s with
  | none =>
      have hlarge := decompressStart_eq_none_iff.1 hstart
      rw [decompresses_of_throw hgzip hs hstart]
      apply iff_of_false (by intro h; cases h)
      rintro ⟨k, _, hmax, _⟩
      have hle := Nat.le_mul_of_pos_right (firstSize src maxOutputSize) (Nat.two_pow_pos k)
      omega
  | some d =>
      rw [decompresses_of_start hgzip hs hstart]
      obtain ⟨r, hr⟩ := run_enoughPasses hzlib.progresses hpos hstart
      obtain ⟨t, hreach, hleave⟩ := Loop.returns_iff.1 ⟨_, hr⟩
      have hbegin : AtStage (firstSize src maxOutputSize) data 0 d := by
        obtain ⟨_, hlen, _, _, htotal, _⟩ := within_start hstart
        exact ⟨by rw [hlen, pow_zero, Nat.mul_one], Or.inl ⟨htotal, Or.inl rfl⟩⟩
      -- the invariant: what is written is a part of the data, in a buffer of some stage
      obtain ⟨hfollows, k, hstage⟩ := Loop.reaches_invariant
        (I := fun d => Follows P At src data maxOutputSize d ∧
          ∃ k, AtStage (firstSize src maxOutputSize) data k d)
        (fun d d' h hp => ⟨h.1.pass hzlib hp,
          h.2.elim fun k hk => AtStage.pass hzlib hsrc hsize h.1 hk hp⟩) hreach
        ⟨follows_start hzlib hs hstart, 0, hbegin⟩
      have hunique : (P.decompressLoop I src maxOutputSize).Returns d (.returned true data) ↔
          r = .returned true data :=
        ⟨fun h => (Loop.Returns.unique h ⟨_, hr⟩).symm, fun h => ⟨_, h ▸ hr⟩⟩
      rw [hunique]
      rcases AtStage.result hzlib hsrc hsize hfollows hstage hleave with
        ⟨hret, hfits⟩ | ⟨hret, hlt, hlarge⟩
      · refine iff_of_true hret ⟨k, ?_, ?_, hfits⟩
        · exact hstage.length ▸ hfollows.within.limit
        · exact hstage.length ▸ hfollows.within.maxSize
      -- the loop stopped at stage `k`, where the data had no room: no stage `k'` allows them
      · apply iff_of_false hret
        rintro ⟨k', hlimit, hmax, hfits⟩
        rcases Nat.lt_or_ge k k' with hk | hk
        · -- the buffer of that stage is too large
          have hpow : firstSize src maxOutputSize * 2 ^ (k + 1) ≤
              firstSize src maxOutputSize * 2 ^ k' :=
            Nat.mul_le_mul_left _ (Nat.pow_le_pow_right Nat.two_pos hk)
          omega
        -- what that stage offers was offered before
        · have hle : offered (firstSize src maxOutputSize) (k' + 1) ≤
              offered (firstSize src maxOutputSize) (k + 1) :=
            offered_mono _ (Nat.succ_le_succ hk)
          omega

/-- Without a first call of `inflate` there is none. -/
theorem rejects_of_no_room (hready : P.InflateReady I)
    (hsize : firstSize src maxOutputSize % 2 ^ 32 = 0) :
    ¬ P.Decompresses I .gzip src out maxOutputSize (.returned true data) := by
  intro h
  obtain ⟨s, hgzip, hs⟩ := hready.start
  cases hstart : P.decompressStart I src out maxOutputSize s with
  | none =>
      rw [decompresses_of_throw hgzip hs hstart] at h
      cases h
  | some d =>
      obtain ⟨t, hreach, hleave⟩ :=
        Loop.returns_iff.1 ((decompresses_of_start hgzip hs hstart).1 h)
      obtain ⟨hwithin, hlen, _, _, htotal, _⟩ := within_start hstart
      -- the lower 32 bits of the size stay zero while the buffer is doubled, so `avail_out` does
      have hzero : ∀ {d : DecompressState I.State}, Within P maxOutputSize d → d.totalOut = 0 →
          d.out.length % 2 ^ 32 = 0 → d.availOut = 0 := by
        intro d hd htotal hmod
        rw [hd.availOut, htotal, Nat.sub_zero, hmod]
      obtain ⟨hwithin', htotal', hmod'⟩ := Loop.reaches_invariant
        (I := fun d => Within P maxOutputSize d ∧ d.totalOut = 0 ∧ d.out.length % 2 ^ 32 = 0)
        (fun d d' ⟨hd, htotal, hmod⟩ hp => by
          refine ⟨hd.pass hp, ?_⟩
          rcases pass_next hd hp with ⟨_, _, _, out', rfl, hdouble, _⟩ | ⟨hroom, _⟩
          · exact ⟨htotal, by show out'.length % 2 ^ 32 = 0; omega⟩
          · exact absurd (hzero hd htotal hmod) hroom)
        hreach ⟨hwithin, htotal, hlen ▸ hsize⟩
      have hroom := hzero hwithin' htotal' hmod'
      rcases pass_result hwithin' hleave with ⟨_, ⟨_, h⟩ | ⟨_, _, h⟩⟩ | ⟨h, _⟩ | ⟨h, _⟩
      · cases h
      · cases h
      · exact h hroom
      · exact h hroom

/-- The stream can be decompressed: zlib is there, the size of the input fits into `avail_in`, and a
buffer within the limit offers room for the data. -/
def Accepts (P : Platform) (I : Inflater) (src data : Bytes) (maxOutputSize : Nat) : Prop :=
  P.InflateReady I ∧ src.length < 2 ^ 32 ∧ firstSize src maxOutputSize % 2 ^ 32 ≠ 0 ∧
    ∃ k, firstSize src maxOutputSize * 2 ^ k ≤ maxOutputSize ∧
      firstSize src maxOutputSize * 2 ^ k ≤ P.maxSize ∧
      data.length ≤ offered (firstSize src maxOutputSize) (k + 1)

/-- **What `Decompress` accepts.** -/
theorem accepts_iff (hzlib : I.Inflates src data At) :
    P.Decompresses I .gzip src out maxOutputSize (.returned true data) ↔
      P.Accepts I src data maxOutputSize := by
  constructor
  · intro h
    have hready : P.InflateReady I := by
      by_contra hnot
      rw [decompresses_of_not_ready hnot] at h
      cases h
    -- a first size with zero lower bits never calls `inflate`
    have hsize : firstSize src maxOutputSize % 2 ^ 32 ≠ 0 :=
      fun hzero => rejects_of_no_room hready hzero h
    obtain ⟨hsrc, _⟩ := h.accepted hzlib hready
    exact ⟨hready, hsrc, hsize, (accepts_iff_of_stage hzlib hready hsrc hsize).1 h⟩
  · rintro ⟨hready, hsrc, hsize, hroom⟩
    exact (accepts_iff_of_stage hzlib hready hsrc hsize).2 hroom

/-- For a limit below 4 GiB: the data fit into the first buffer or one of its doublings that does
not exceed the limit. -/
theorem accepts_iff_of_limit (hlimit : maxOutputSize < 2 ^ 32) (hmax : maxOutputSize ≤ P.maxSize) :
    P.Accepts I src data maxOutputSize ↔
      P.InflateReady I ∧ src.length < 2 ^ 32 ∧ firstSize src maxOutputSize ≠ 0 ∧
        ∃ k, firstSize src maxOutputSize * 2 ^ k ≤ maxOutputSize ∧
          data.length ≤ firstSize src maxOutputSize * 2 ^ k := by
  have hfirst : firstSize src maxOutputSize ≤ maxOutputSize := Nat.min_le_right _ _
  have hmod : firstSize src maxOutputSize % 2 ^ 32 = firstSize src maxOutputSize :=
    Nat.mod_eq_of_lt (by omega)
  rw [Accepts, hmod]
  refine and_congr_right fun _ => and_congr_right fun _ => and_congr_right fun _ => ?_
  refine exists_congr fun k => and_congr_right fun hk => ?_
  rw [offered_eq _ (by omega)]
  exact and_iff_right (hk.trans hmax)

/-! ## The limit -/

/-- A state of the loop of a call. -/
def Visits (P : Platform) (I : Inflater) (src out : Bytes) (maxOutputSize : Nat)
    (d : DecompressState I.State) : Prop :=
  ∃ s d₀, I.init = some s ∧ P.decompressStart I src out maxOutputSize s = some d₀ ∧
    (P.decompressLoop I src maxOutputSize).Reaches d₀ d

/-- The buffer never exceeds the limit. -/
theorem Visits.limit {d : DecompressState I.State} (h : P.Visits I src out maxOutputSize d) :
    d.out.length ≤ maxOutputSize := by
  obtain ⟨s, d₀, _, hstart, hreach⟩ := h
  have hwithin := Loop.reaches_invariant (fun _ _ h hp => h.pass hp) hreach (within_start hstart).1
  exact hwithin.limit

/-- `Decompress` enforces exactly the limit: the data are returned if and only if they are within
it, false is returned otherwise, and the buffer stays within it. -/
def EnforcesLimit (P : Platform) (I : Inflater) (src data out : Bytes) (maxOutputSize : Nat) :
    Prop :=
  (P.Decompresses I .gzip src out maxOutputSize (.returned true data) ↔
      data.length ≤ maxOutputSize) ∧
    (maxOutputSize < data.length →
      ∃ o, P.Decompresses I .gzip src out maxOutputSize (.returned false o)) ∧
    ∀ d, P.Visits I src out maxOutputSize d → d.out.length ≤ maxOutputSize

end Platform

/-! ## A recorded stream -/

/-- The states of `recorded`. -/
def RecordedAt (src data : Bytes) (s : Nat × Nat) (c p : Nat) : Prop :=
  s = (c, p) ∧ c ≤ src.length ∧ p ≤ data.length

theorem recorded_complete {src data : Bytes} {used c p room : Nat} (hroom : 0 < room)
    (hfits : data.length ≤ p + room) :
    recordedInflate src data used (c, p) (src.drop c) room =
      ⟨.streamEnd, (src.drop c).length, data.drop p,
        (c + (src.drop c).length, p + (data.drop p).length)⟩ := by
  have hrest : (data.drop p).length ≤ room := by
    rw [List.length_drop]
    omega
  simp only [recordedInflate, if_neg hroom.ne', if_true, if_pos hrest]

theorem recorded_full {src data : Bytes} {used c p room : Nat} (hroom : 0 < room)
    (hmore : p + room < data.length) :
    recordedInflate src data used (c, p) (src.drop c) room =
      ⟨.ok, min (used - c) (src.drop c).length, (data.drop p).take room,
        (c + min (used - c) (src.drop c).length, p + room)⟩ := by
  have hrest : ¬ (data.drop p).length ≤ room := by
    rw [List.length_drop]
    omega
  simp only [recordedInflate, if_neg hroom.ne', if_true, if_neg hrest]

/-- With a part of the stream the call takes it, or has nothing to take. -/
theorem recorded_part {src data : Bytes} {used c p n room : Nat} (hroom : 0 < room)
    (hpart : (src.drop c).take n ≠ src.drop c) :
    recordedInflate src data used (c, p) ((src.drop c).take n) room =
        ⟨.bufError, 0, [], (c, p)⟩ ∨
      recordedInflate src data used (c, p) ((src.drop c).take n) room =
        ⟨.ok, ((src.drop c).take n).length, [], (c + ((src.drop c).take n).length, p)⟩ := by
  have hprefix : ((src.drop c).take n).isPrefixOf (src.drop c) = true :=
    List.isPrefixOf_iff_prefix.2 (List.take_prefix n _)
  simp only [recordedInflate, if_neg hroom.ne', if_neg hpart, hprefix, if_true]
  by_cases hnil : (src.drop c).take n = []
  · exact Or.inl (if_pos hnil)
  · exact Or.inr (if_neg hnil)

/-- The three kinds of calls. -/
theorem recorded_call {src data : Bytes} (used : Nat) {c p n room : Nat} (hroom : 0 < room) :
    ((src.drop c).take n = src.drop c ∧ data.length ≤ p + room ∧
        recordedInflate src data used (c, p) ((src.drop c).take n) room =
          ⟨.streamEnd, (src.drop c).length, data.drop p,
            (c + (src.drop c).length, p + (data.drop p).length)⟩) ∨
      (p + room < data.length ∧
        recordedInflate src data used (c, p) ((src.drop c).take n) room =
          ⟨.ok, min (used - c) (src.drop c).length, (data.drop p).take room,
            (c + min (used - c) (src.drop c).length, p + room)⟩) ∨
      recordedInflate src data used (c, p) ((src.drop c).take n) room =
        ⟨.bufError, 0, [], (c, p)⟩ ∨
      recordedInflate src data used (c, p) ((src.drop c).take n) room =
        ⟨.ok, ((src.drop c).take n).length, [], (c + ((src.drop c).take n).length, p)⟩ := by
  by_cases hpart : (src.drop c).take n = src.drop c
  · rw [hpart]
    rcases Nat.lt_or_ge (p + room) data.length with hmore | hfits
    · exact Or.inr (Or.inl ⟨hmore, recorded_full hroom hmore⟩)
    · exact Or.inl ⟨rfl, hfits, recorded_complete hroom hfits⟩
  · exact Or.inr (Or.inr (recorded_part hroom hpart))

/-- `recorded` inflates its stream as the manual says. -/
theorem recorded_inflates (src data : Bytes) (used : Nat) :
    (recorded src data used).Inflates src data (RecordedAt src data) where
  progresses := recorded_progresses src data used
  start := by
    intro s hs
    cases hs
    exact ⟨rfl, Nat.zero_le _, Nat.zero_le _⟩
  written := by
    rintro s c p n room ⟨rfl, _, _⟩ hroom _
    simp only [recorded]
    rcases recorded_call used hroom with ⟨_, _, h⟩ | ⟨_, h⟩ | h | h <;> rw [h]
    · exact List.take_length.symm
    · rw [List.take_eq_take_iff, List.length_take]
      omega
    · rfl
    · rfl
  next := by
    rintro s c p n room ⟨rfl, hc, hp⟩ hroom hn
    simp only [recorded]
    rcases recorded_call used hroom with ⟨_, _, h⟩ | ⟨hmore, h⟩ | h | h <;> rw [h] <;> intro hret
    · cases hret
    -- the room is filled with the next part of the data
    · have hlen : ((data.drop p).take room).length = room := by
        rw [List.length_take, List.length_drop]
        omega
      have htaken : min (used - c) (src.drop c).length ≤ src.length - c :=
        (Nat.min_le_right _ _).trans (List.length_drop ..).le
      refine ⟨congrArg (Prod.mk _) (congrArg (p + ·) hlen.symm), ?_, ?_⟩
      · show c + min (used - c) (src.drop c).length ≤ src.length
        omega
      · show p + ((data.drop p).take room).length ≤ data.length
        omega
    · cases hret
    -- input is taken, nothing is written
    · refine ⟨rfl, ?_, hp⟩
      show c + ((src.drop c).take n).length ≤ src.length
      rw [List.length_take, List.length_drop]
      omega
  ended := by
    rintro s c p n room ⟨rfl, hc, hp⟩ hroom hn
    simp only [recorded]
    rcases recorded_call used hroom with ⟨_, _, h⟩ | ⟨_, h⟩ | h | h <;> rw [h] <;> intro hret
    · simp only [List.length_drop]
      omega
    · cases hret
    · cases hret
    · cases hret
  complete := by
    rintro s c p room ⟨rfl, _, _⟩ hroom hfits
    exact congrArg ZlibResult.ret (recorded_complete hroom hfits)
  full := by
    rintro s c p room ⟨rfl, _, _⟩ hroom hmore
    refine ⟨congrArg ZlibResult.ret (recorded_full hroom hmore), ?_⟩
    refine (congrArg (fun r => r.output.length) (recorded_full hroom hmore)).trans ?_
    rw [List.length_take, List.length_drop]
    omega

/-- The gzip stream of 120 times the letter `a`. -/
def aaStream : Bytes :=
  [31, 139, 8, 0, 0, 0, 0, 0, 0, 3, 75, 76, 28, 24, 0, 0, 71, 116, 152, 217, 120, 0, 0, 0]

def aaData : Bytes := List.replicate 120 97

namespace Platform

/-- **`Decompress` enforces exactly the limit if and only if** the data are above the limit and the
loop ends, or a doubling of the first buffer within the limit offers room for the data. -/
theorem enforcesLimit_iff {P : Platform} {I : Inflater} {src data : Bytes}
    {At : I.State → Nat → Nat → Prop} (hzlib : I.Inflates src data At)
    (hdata : data.length ≤ P.maxSize) (out : Bytes) (maxOutputSize : Nat) :
    P.EnforcesLimit I src data out maxOutputSize ↔
      (maxOutputSize < data.length ∧
          ¬ (P.InflateReady I ∧ firstSize src maxOutputSize = 0)) ∨
        P.Accepts I src data maxOutputSize := by
  constructor
  · rintro ⟨haccept, hreject, _⟩
    rcases Nat.lt_or_ge maxOutputSize data.length with hlt | hle
    -- above the limit false is due, so the loop ends
    · obtain ⟨o, ho⟩ := hreject hlt
      refine Or.inl ⟨hlt, ?_⟩
      rintro ⟨hready, hzero⟩
      exact not_decompresses_of_empty hready hzero ⟨_, ho⟩
    · exact Or.inr ((accepts_iff hzlib).1 (haccept.2 hle))
  · rintro (⟨hlt, hends⟩ | haccept)
    -- above the limit: a loop that ends returns false, and so does a call without zlib
    · by_cases hready : P.InflateReady I
      · obtain ⟨o, ho⟩ := rejects_above hzlib hready hdata hlt
          fun hzero => hends ⟨hready, hzero⟩
        refine ⟨iff_of_false (fun h => ?_) (by omega), fun _ => ⟨o, ho⟩, fun _ => Visits.limit⟩
        have hle := (h.accepted hzlib hready).2
        omega
      · have hfalse : P.Decompresses I .gzip src out maxOutputSize (.returned false out) :=
          (decompresses_of_not_ready hready).2 rfl
        refine ⟨iff_of_false (fun h => ?_) (by omega), fun _ => ⟨out, hfalse⟩, fun _ =>
          Visits.limit⟩
        cases h.unique hfalse
    -- the data are returned, and what is returned is within the limit
    · have htrue : P.Decompresses I .gzip src out maxOutputSize (.returned true data) :=
        (accepts_iff hzlib).2 haccept
      have hle := (htrue.accepted hzlib haccept.1).2
      exact ⟨iff_of_true htrue hle, by omega, fun _ => Visits.limit⟩

/-- Within the limit of 4 MiB the buffer of 96 bytes is doubled, and holds the data. -/
theorem enforcesLimit_iff_example :
    linux.EnforcesLimit (recorded aaStream aaData 15) aaStream aaData [] (4 * 1024 * 1024) :=
  (enforcesLimit_iff (recorded_inflates aaStream aaData 15) (by decide) [] _).2
    (Or.inr ⟨⟨rfl, rfl⟩, by decide, by decide, 1, by decide, by decide, by decide⟩)

/-- For the limit 150 the buffer of 96 bytes is not doubled, and the 120 bytes are rejected. -/
theorem not_enforcesLimit :
    ¬ ∀ (P : Platform) (I : Inflater) (src data : Bytes) (At : I.State → Nat → Nat → Prop),
      src ≠ [] → I.Inflates src data At → data.length ≤ P.maxSize → P.InflateReady I →
        ∀ (out : Bytes) (maxOutputSize : Nat), P.EnforcesLimit I src data out maxOutputSize := by
  intro h
  obtain ⟨haccept, _⟩ := h linux (recorded aaStream aaData 15) aaStream aaData _ (by decide)
    (recorded_inflates aaStream aaData 15) (by decide) ⟨rfl, rfl⟩ [] 150
  have hrejected : linux.Decompresses (recorded aaStream aaData 15) .gzip aaStream [] 150
      (.returned false (List.replicate 96 97)) := ⟨2, by decide +kernel⟩
  have htrue := haccept.2 (by decide)
  cases htrue.unique hrejected

end Platform

end Rpcpio.Protocol

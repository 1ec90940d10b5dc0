import Rpcpio.Protocol.Inflate

/-!
# `Compress`

`Compress` calls zlib's `deflate` with `Z_FINISH` on a buffer of `src.size() + 64` bytes, and once
more on twice the size if the first call returned `Z_BUF_ERROR`. zlib is a parameter (`Deflater`),
and so is what a gzip stream decodes to.

Three details decide whether the result is faithful: sizes are cut to 32 bits in `avail_in` and
`avail_out`, `Z_OK` of a full buffer is not retried, and the buffer is `out` itself, so a failed
call leaves it changed (`compress_faithful_iff`).
-/

set_option autoImplicit false

namespace Rpcpio.Protocol

/-- The deflater of zlib: `deflateInit2`, which may fail, and `deflate` with `Z_FINISH` on the
available input with room for so many bytes. -/
structure Deflater where
  State : Type
  init : Option State
  deflate : State → Bytes → Nat → ZlibResult State

/-- What zlib's manual says of `deflate` with `Z_FINISH` on the input `x` with the stream `z`.
`At s c p` are the states in which `c` bytes of the input are taken and `p` bytes of the stream are
written. -/
structure Deflater.Deflates (D : Deflater) (x z : Bytes) (At : D.State → Nat → Nat → Prop) :
    Prop where
  start : ∀ {s}, D.init = some s → At s 0 0
  /-- The output is the next part of the stream. -/
  output : ∀ {s c p} room, At s c p → (D.deflate s (x.drop c) room).output = (z.drop p).take room
  /-- Enough room: the stream ends. -/
  complete : ∀ {s c p} room, At s c p → z.length ≤ p + room →
    (D.deflate s (x.drop c) room).ret = .streamEnd
  /-- Not enough room: the next call goes on. -/
  full : ∀ {s c p} room, At s c p → p + room < z.length →
    ((D.deflate s (x.drop c) room).ret = .ok ∨ (D.deflate s (x.drop c) room).ret = .bufError) ∧
      At (D.deflate s (x.drop c) room).state (c + (D.deflate s (x.drop c) room).consumed) (p + room)

namespace Platform

variable (P : Platform) (D : Deflater)

/-- What follows the last call of `deflate`. -/
def compressEnd (ret : ZlibCode) (out : Bytes) (totalOut : Nat) : CodecResult :=
  if ret = .streamEnd then
    match P.resize out totalOut with
    | none => .threw
    | some out => .returned true out
  else .returned false out

/-- The retry, after a call that returned `r`. -/
def compressRetry (fed out : Bytes) (r : ZlibResult D.State) : CodecResult :=
  match P.resize out (out.length * 2 % 2 ^ 64) with
  | none => .threw
  | some out =>
      let totalOut := r.output.length
      let r' := D.deflate r.state (fed.drop r.consumed) (sizeSub out.length totalOut % 2 ^ 32)
      P.compressEnd r'.ret (memcpy out totalOut r'.output) (totalOut + r'.output.length)

/-- The input that `avail_in` makes available. -/
def fed (src : Bytes) : Bytes := src.take (src.length % 2 ^ 32)

/-- `Compress`. -/
def compress (enc : Encoding) (src out : Bytes) : CodecResult :=
  match enc with
  | .identity => if P.maxSize < src.length then .threw else .returned true src
  | .gzip =>
      if P.gzip then
        match D.init with
        | none => .returned false out
        | some s =>
            match P.resize out ((src.length + 64) % 2 ^ 64) with
            | none => .threw
            | some out =>
                -- `avail_in` and `avail_out` are the sizes cut to 32 bits
                let r := D.deflate s (fed src) (out.length % 2 ^ 32)
                let out := memcpy out 0 r.output
                -- the only code that is retried
                if r.ret = .bufError then P.compressRetry D (fed src) out r
                else P.compressEnd r.ret out r.output.length
      else .returned false out

/-- zlib is there, and `deflateInit2` succeeds. -/
def DeflateReady : Prop := P.gzip = true ∧ D.init.isSome = true

/-- The size of the first buffer. -/
def estimate (src : Bytes) : Nat := (src.length + 64) % 2 ^ 64

/-- `avail_out` of the first call. -/
def firstRoom (src : Bytes) : Nat := estimate src % 2 ^ 32

/-- `avail_out` of the retry. -/
def retryRoom (src : Bytes) : Nat := (estimate src * 2 - firstRoom src) % 2 ^ 32

theorem firstRoom_le (src : Bytes) : firstRoom src ≤ estimate src := Nat.mod_le _ _

theorem rooms_le (src : Bytes) : firstRoom src + retryRoom src ≤ estimate src * 2 := by
  have hfirst := firstRoom_le src
  have hretry : retryRoom src ≤ estimate src * 2 - firstRoom src := Nat.mod_le _ _
  omega

/-- The code of the first call. -/
def firstCode (src : Bytes) : Option ZlibCode :=
  D.init.map fun s => (D.deflate s (fed src) (firstRoom src)).ret

/-! ## The buffer -/

section

variable {P D} {src out z : Bytes}

theorem take_fed (hsrc : src.length < 2 ^ 32) : fed src = src := by
  rw [fed, Nat.mod_eq_of_lt hsrc, List.take_length]

theorem length_fed_lt (src : Bytes) : (fed src).length < 2 ^ 32 := by
  have hmod : src.length % 2 ^ 32 < 2 ^ 32 := Nat.mod_lt _ (by decide)
  exact (List.length_take_le _ _).trans_lt hmod

/-- The available input is the whole input exactly below 4 GiB. -/
theorem fed_eq_iff (src : Bytes) : fed src = src ↔ src.length < 2 ^ 32 :=
  ⟨fun h => h ▸ length_fed_lt src, take_fed⟩

/-- A buffer after a copy is `out` if both its parts are. -/
theorem memcpy_eq_iff {buf w : Bytes} {n : Nat} (h : n + w.length ≤ buf.length) :
    memcpy buf n w = out ↔
      out.take (n + w.length) = buf.take n ++ w ∧
        out.drop (n + w.length) = buf.drop (n + w.length) := by
  have hpre : (buf.take n ++ w).length = n + w.length := by
    rw [List.length_append, List.length_take, Nat.min_eq_left (by omega)]
  constructor
  · rintro rfl
    exact ⟨by rw [memcpy, ← hpre, List.take_left], by rw [memcpy, ← hpre, List.drop_left, hpre]⟩
  · rintro ⟨htake, hdrop⟩
    rw [memcpy, ← htake, ← hdrop, List.take_append_drop]

theorem resize_of_le (out : Bytes) {n : Nat} (h : n ≤ P.maxSize) :
    P.resize out n = some (out.take n ++ List.replicate (n - out.length) 0) :=
  if_neg (Nat.not_lt.2 h)

/-- The first buffer, filled by the first call, is `out` only if `out` had its size and began with
the stream. -/
theorem firstBuffer_eq_iff {buf w : Bytes} {n : Nat} (hbuf : P.resize out n = some buf)
    (hw : w.length ≤ n) :
    memcpy buf 0 w = out ↔ out.length = n ∧ out.take w.length = w := by
  obtain ⟨hmax, hlen, _⟩ := resize_eq_some hbuf
  rw [memcpy_eq_iff (by omega), Nat.zero_add, List.take_zero, List.nil_append]
  constructor
  -- both have one length, since both split at `w.length`
  · rintro ⟨htake, hdrop⟩
    have htaken := congrArg List.length htake
    have hdropped := congrArg List.length hdrop
    rw [List.length_take] at htaken
    rw [List.length_drop, List.length_drop] at hdropped
    exact ⟨by omega, htake⟩
  · rintro ⟨hout, htake⟩
    -- `resize` to the same size changes nothing
    rw [resize_of_le _ hmax, hout, Nat.sub_self, List.replicate_zero, List.append_nil, ← hout,
      List.take_length, Option.some.injEq] at hbuf
    exact ⟨htake, by rw [hbuf]⟩

/-- What `memcpy` writes behind it leaves. -/
theorem memcpy_drop {buf w : Bytes} {n k : Nat} (h : n + w.length ≤ buf.length)
    (hk : n + w.length ≤ k) : (memcpy buf n w).drop k = buf.drop k := by
  have hself : memcpy buf n w = memcpy buf n w := rfl
  obtain ⟨_, hdrop⟩ := (memcpy_eq_iff h).1 hself
  rw [← Nat.add_sub_cancel' hk, ← List.drop_drop, hdrop, List.drop_drop]

/-- The same for the buffer of twice the size, which the first call and the retry have filled. Its
second half is new, so what is not written of it is zero. -/
theorem retryBuffer_eq_iff {buf buf' w w' : Bytes} {n : Nat} (hbuf : P.resize out n = some buf)
    (hbuf' : P.resize (memcpy buf 0 w) (n * 2) = some buf') (hw : w.length ≤ n)
    (hw' : w.length + w'.length ≤ n * 2) :
    memcpy buf' w.length w' = out ↔
      out.length = n * 2 ∧ out.take (w.length + w'.length) = w ++ w' ∧
        out.drop (w.length + w'.length) =
          (out.take n ++ List.replicate n 0).drop (w.length + w'.length) := by
  obtain ⟨hle, hlen, _⟩ := resize_eq_some hbuf
  obtain ⟨hmax, hlen', _⟩ := resize_eq_some hbuf'
  obtain ⟨hfirst, htake⟩ := memcpy_spec buf w 0 (by omega)
  rw [Nat.zero_add, List.take_zero, List.nil_append] at htake
  have hgrown : buf' = memcpy buf 0 w ++ List.replicate n 0 := by
    rw [resize_of_le _ hmax, Option.some.injEq] at hbuf'
    rw [← hbuf', List.take_of_length_le (by omega), hfirst, hlen]
    congr 2
    omega
  have hkept : buf'.take w.length = w := by
    rw [hgrown, List.take_append_of_le_length (by omega), htake]
  have htail : buf'.drop (w.length + w'.length) =
      (buf ++ List.replicate n 0).drop (w.length + w'.length) := by
    rw [hgrown, List.drop_append, List.drop_append, hfirst,
      memcpy_drop (by omega) (by omega)]
  -- the first half is the first half of a buffer of that size
  have hhalf : out.length = n * 2 → buf = out.take n := by
    intro hout
    have hnone : n - out.length = 0 := by omega
    rw [resize_of_le _ hle, hnone, List.replicate_zero, List.append_nil, Option.some.injEq] at hbuf
    exact hbuf.symm
  rw [memcpy_eq_iff (by omega), hkept, htail]
  constructor
  -- again one length, from the parts written and not written
  · rintro ⟨hwritten, hdrop⟩
    have htaken := congrArg List.length hwritten
    have hdropped := congrArg List.length hdrop
    rw [List.length_take, List.length_append] at htaken
    rw [List.length_drop, List.length_drop, List.length_append, List.length_replicate] at hdropped
    have hout : out.length = n * 2 := by omega
    exact ⟨hout, hwritten, by rw [hdrop, hhalf hout]⟩
  · rintro ⟨hout, hwritten, hdrop⟩
    exact ⟨hwritten, by rw [hdrop, hhalf hout]⟩

/-- A successful end keeps what was written. -/
theorem compressEnd_streamEnd {totalOut : Nat} (hlen : totalOut ≤ out.length)
    (hmax : out.length ≤ P.maxSize) :
    P.compressEnd .streamEnd out totalOut = .returned true (out.take totalOut) := by
  have hfits : ¬ P.maxSize < totalOut := by omega
  have hnone : totalOut - out.length = 0 := by omega
  rw [compressEnd, if_pos rfl, resize, if_neg hfits, hnone, List.replicate_zero, List.append_nil]

theorem compressEnd_other {ret : ZlibCode} (hret : ret ≠ .streamEnd) (totalOut : Nat) :
    P.compressEnd ret out totalOut = .returned false out := if_neg hret

/-! ## The calls of `deflate` -/

variable {s : D.State} {At : D.State → Nat → Nat → Prop}

theorem DeflateReady.start (h : P.DeflateReady D) : ∃ s, P.gzip = true ∧ D.init = some s := by
  obtain ⟨s, hs⟩ := Option.isSome_iff_exists.1 h.2
  exact ⟨s, h.1, hs⟩

theorem compress_of_not_ready (h : ¬ P.DeflateReady D) :
    P.compress D .gzip src out = .returned false out := by
  cases hgzip : P.gzip with
  | false => simp only [compress, hgzip, Bool.false_eq_true, if_false]
  | true =>
      cases hinit : D.init with
      | none => simp only [compress, hgzip, if_true, hinit]
      | some s => exact absurd ⟨hgzip, by rw [hinit, Option.isSome_some]⟩ h

/-- A first buffer that is too large throws. -/
theorem compress_threw (hgzip : P.gzip = true) (hs : D.init = some s)
    (hmax : P.maxSize < estimate src) : P.compress D .gzip src out = .threw := by
  have hnone : P.resize out ((src.length + 64) % 2 ^ 64) = none := if_pos hmax
  simp only [compress, hgzip, if_true, hs, hnone]

/-- The first call. -/
def firstCall (D : Deflater) (src : Bytes) (s : D.State) : ZlibResult D.State :=
  D.deflate s (fed src) (firstRoom src)

theorem compress_eq (hgzip : P.gzip = true) (hs : D.init = some s) {buf : Bytes}
    (hbuf : P.resize out (estimate src) = some buf) :
    P.compress D .gzip src out =
      if (firstCall D src s).ret = .bufError then
        P.compressRetry D (fed src) (memcpy buf 0 (firstCall D src s).output) (firstCall D src s)
      else P.compressEnd (firstCall D src s).ret (memcpy buf 0 (firstCall D src s).output)
        (firstCall D src s).output.length := by
  have hlen := (resize_eq_some hbuf).2.1
  have hroom : buf.length % 2 ^ 32 = firstRoom src := by rw [hlen, firstRoom]
  rw [estimate] at hbuf
  simp only [compress, hgzip, if_true, hs, hbuf, hroom]
  rfl

/-- What the first call writes. -/
theorem firstCall_output (hzlib : D.Deflates (fed src) z At) (hs : D.init = some s) :
    (firstCall D src s).output = z.take (firstRoom src) := by
  have houtput := hzlib.output (firstRoom src) (hzlib.start hs)
  rw [List.drop_zero, List.drop_zero] at houtput
  exact houtput

theorem firstCall_complete (hzlib : D.Deflates (fed src) z At) (hs : D.init = some s)
    (hfits : z.length ≤ firstRoom src) : (firstCall D src s).ret = .streamEnd := by
  have hret := hzlib.complete (firstRoom src) (hzlib.start hs) (by omega)
  rw [List.drop_zero] at hret
  exact hret

theorem firstCall_full (hzlib : D.Deflates (fed src) z At) (hs : D.init = some s)
    (hfull : firstRoom src < z.length) :
    ((firstCall D src s).ret = .ok ∨ (firstCall D src s).ret = .bufError) ∧
      (firstCall D src s).output.length = firstRoom src ∧
      At (firstCall D src s).state (firstCall D src s).consumed (firstRoom src) := by
  obtain ⟨hret, hnext⟩ := hzlib.full (firstRoom src) (hzlib.start hs) (by omega)
  rw [List.drop_zero] at hret hnext
  rw [Nat.zero_add, Nat.zero_add] at hnext
  refine ⟨hret, ?_, hnext⟩
  rw [firstCall_output hzlib hs, List.length_take]
  omega

/-- **A stream that fits into the first buffer is the result.** -/
theorem compress_fits (hzlib : D.Deflates (fed src) z At) (hgzip : P.gzip = true)
    (hs : D.init = some s) (hmax : estimate src ≤ P.maxSize) (hfits : z.length ≤ firstRoom src)
    (out : Bytes) : P.compress D .gzip src out = .returned true z := by
  have hbuf := resize_of_le out hmax
  have hlen := (resize_eq_some hbuf).2.1
  have hroom := firstRoom_le src
  have houtput : (firstCall D src s).output = z := by
    rw [firstCall_output hzlib hs, List.take_of_length_le hfits]
  -- `deflate` wrote the whole stream to the beginning of the buffer
  obtain ⟨hkept, htake⟩ := memcpy_spec _ z 0 (by rw [hlen]; omega)
  rw [Nat.zero_add, List.take_zero, List.nil_append] at htake
  rw [compress_eq hgzip hs hbuf, firstCall_complete hzlib hs hfits, if_neg (by decide), houtput,
    compressEnd_streamEnd (by rw [hkept, hlen]; omega) (by rw [hkept, hlen]; exact hmax), htake]

/-- **`Z_OK` of a full buffer is not retried**: the call fails, and `out` is the full buffer. -/
theorem compress_stops (hzlib : D.Deflates (fed src) z At) (hgzip : P.gzip = true)
    (hs : D.init = some s) (hmax : estimate src ≤ P.maxSize) (hfull : firstRoom src < z.length)
    (hcode : (firstCall D src s).ret = .ok) (out : Bytes) :
    ∃ o, P.compress D .gzip src out = .returned false o ∧
      (o = out ↔ out.length = estimate src ∧
        out.take (firstRoom src) = z.take (firstRoom src)) := by
  have hbuf := resize_of_le out hmax
  have hroom := firstRoom_le src
  have houtput := firstCall_output hzlib hs
  obtain ⟨_, hlen, _⟩ := firstCall_full hzlib hs hfull
  rw [compress_eq hgzip hs hbuf, hcode, if_neg (by decide), compressEnd_other (by decide)]
  refine ⟨_, rfl, ?_⟩
  rw [firstBuffer_eq_iff hbuf (by omega), hlen, houtput]

/-- The call of the retry. -/
def retryCall (D : Deflater) (src : Bytes) (s : D.State) : ZlibResult D.State :=
  D.deflate (firstCall D src s).state ((fed src).drop (firstCall D src s).consumed) (retryRoom src)

/-- The retry has a buffer of twice the size. -/
theorem compress_retry (hzlib : D.Deflates (fed src) z At) (hgzip : P.gzip = true)
    (hs : D.init = some s) {buf : Bytes} (hbuf : P.resize out (estimate src) = some buf)
    (hcode : (firstCall D src s).ret = .bufError) :
    P.compress D .gzip src out =
      P.compressRetry D (fed src) (memcpy buf 0 (firstCall D src s).output)
        (firstCall D src s) ∧
      (memcpy buf 0 (firstCall D src s).output).length * 2 % 2 ^ 64 = estimate src * 2 := by
  obtain ⟨hmax, hlen, _⟩ := resize_eq_some hbuf
  have hroom := firstRoom_le src
  have hbound := P.maxSize_lt
  have hshort : (firstCall D src s).output.length ≤ firstRoom src := by
    rw [firstCall_output hzlib hs]
    exact List.length_take_le _ _
  refine ⟨by rw [compress_eq hgzip hs hbuf, if_pos hcode], ?_⟩
  rw [(memcpy_spec _ _ 0 (by omega)).1, hlen]
  exact Nat.mod_eq_of_lt (by omega)

theorem compress_retry_threw (hzlib : D.Deflates (fed src) z At) (hgzip : P.gzip = true)
    (hs : D.init = some s) (hmax : estimate src ≤ P.maxSize)
    (hcode : (firstCall D src s).ret = .bufError) (hlarge : P.maxSize < estimate src * 2) :
    P.compress D .gzip src out = .threw := by
  obtain ⟨hretry, hsize⟩ := compress_retry hzlib hgzip hs (resize_of_le out hmax) hcode
  rw [hretry, compressRetry, hsize, resize, if_pos hlarge]

theorem compress_retry_eq (hzlib : D.Deflates (fed src) z At) (hgzip : P.gzip = true)
    (hs : D.init = some s) {buf buf' : Bytes} (hbuf : P.resize out (estimate src) = some buf)
    (hbuf' : P.resize (memcpy buf 0 (firstCall D src s).output) (estimate src * 2) = some buf')
    (hfull : firstRoom src < z.length) (hcode : (firstCall D src s).ret = .bufError) :
    P.compress D .gzip src out =
      P.compressEnd (retryCall D src s).ret (memcpy buf' (firstRoom src) (retryCall D src s).output)
        (firstRoom src + (retryCall D src s).output.length) := by
  obtain ⟨hretry, hsize⟩ := compress_retry hzlib hgzip hs hbuf hcode
  obtain ⟨_, hlen, _⟩ := firstCall_full hzlib hs hfull
  have hgrown := (resize_eq_some hbuf').2.1
  have hroom := firstRoom_le src
  rw [hretry, compressRetry, hsize, hbuf']
  simp only [hgrown, hlen]
  rw [sizeSub_of_le (by omega)]
  rfl

theorem retryCall_output (hzlib : D.Deflates (fed src) z At) (hs : D.init = some s)
    (hfull : firstRoom src < z.length) :
    (retryCall D src s).output = (z.drop (firstRoom src)).take (retryRoom src) :=
  hzlib.output _ (firstCall_full hzlib hs hfull).2.2

/-- **A stream that fits into twice the size is the result, after `Z_BUF_ERROR`.** -/
theorem compress_retry_fits (hzlib : D.Deflates (fed src) z At) (hgzip : P.gzip = true)
    (hs : D.init = some s) (hmax : estimate src * 2 ≤ P.maxSize)
    (hfull : firstRoom src < z.length) (hcode : (firstCall D src s).ret = .bufError)
    (hfits : z.length ≤ firstRoom src + retryRoom src) (out : Bytes) :
    P.compress D .gzip src out = .returned true z := by
  have hbuf := resize_of_le (P := P) (n := estimate src) out (by omega)
  have hbuf' := resize_of_le (memcpy
    (out.take (estimate src) ++ List.replicate (estimate src - out.length) 0) 0
    (firstCall D src s).output) hmax
  obtain ⟨_, hlen, _⟩ := resize_eq_some hbuf
  obtain ⟨_, hlen', hkept⟩ := resize_eq_some hbuf'
  obtain ⟨_, hfirst, hat⟩ := firstCall_full hzlib hs hfull
  have hroom := firstRoom_le src
  have hrooms := rooms_le src
  have hret : (retryCall D src s).ret = .streamEnd := hzlib.complete _ hat hfits
  have houtput : (retryCall D src s).output = z.drop (firstRoom src) := by
    rw [retryCall_output hzlib hs hfull]
    exact List.take_of_length_le (by rw [List.length_drop]; omega)
  have hrest : firstRoom src + (retryCall D src s).output.length = z.length := by
    rw [houtput, List.length_drop]
    omega
  -- the first part was written by the first call, and kept by `resize`
  have hpart := (memcpy_spec _ (firstCall D src s).output 0 (by rw [hlen]; omega)).2
  have hsame := (memcpy_spec _ (firstCall D src s).output 0 (by rw [hlen]; omega)).1
  rw [Nat.zero_add, List.take_zero, List.nil_append, hfirst] at hpart
  rw [hlen] at hsame
  have hbegin := hkept (firstRoom src) (by rw [hsame]; omega) (by omega)
  obtain ⟨hgrown, hwritten⟩ :=
    memcpy_spec _ (retryCall D src s).output (firstRoom src) (by rw [hlen', hrest]; omega)
  rw [compress_retry_eq hzlib hgzip hs hbuf hbuf' hfull hcode, hret,
    compressEnd_streamEnd (by rw [hgrown, hlen', hrest]; omega) (by rw [hgrown, hlen']; exact hmax),
    hwritten, hbegin, hpart, houtput, firstCall_output hzlib hs, List.take_append_drop]

/-- **A stream that does not fit into twice the size**: the call fails, and `out` is the buffer. -/
theorem compress_retry_stops (hzlib : D.Deflates (fed src) z At) (hgzip : P.gzip = true)
    (hs : D.init = some s) (hmax : estimate src * 2 ≤ P.maxSize)
    (hcode : (firstCall D src s).ret = .bufError)
    (hfull : firstRoom src + retryRoom src < z.length) (out : Bytes) :
    ∃ o, P.compress D .gzip src out = .returned false o ∧
      (o = out ↔ out.length = estimate src * 2 ∧
        out.take (firstRoom src + retryRoom src) = z.take (firstRoom src + retryRoom src) ∧
        out.drop (firstRoom src + retryRoom src) =
          (out.take (estimate src) ++ List.replicate (estimate src) 0).drop
            (firstRoom src + retryRoom src)) := by
  have hbuf := resize_of_le (P := P) (n := estimate src) out (by omega)
  have hbuf' := resize_of_le (memcpy
    (out.take (estimate src) ++ List.replicate (estimate src - out.length) 0) 0
    (firstCall D src s).output) hmax
  have hfirstFull : firstRoom src < z.length := by omega
  obtain ⟨_, hfirst, hat⟩ := firstCall_full hzlib hs hfirstFull
  have hroom := firstRoom_le src
  have hrooms := rooms_le src
  have hret : (retryCall D src s).ret ≠ .streamEnd := by
    have hcodes : (retryCall D src s).ret = .ok ∨ (retryCall D src s).ret = .bufError :=
      (hzlib.full _ hat hfull).1
    rcases hcodes with h | h <;> rw [h] <;> decide
  have hlen : (retryCall D src s).output.length = retryRoom src := by
    rw [retryCall_output hzlib hs hfirstFull, List.length_take, List.length_drop]
    omega
  have hboth : (firstCall D src s).output ++ (retryCall D src s).output =
      z.take (firstRoom src + retryRoom src) := by
    rw [firstCall_output hzlib hs, retryCall_output hzlib hs hfirstFull, List.take_add]
  rw [compress_retry_eq hzlib hgzip hs hbuf hbuf' hfirstFull hcode, compressEnd_other hret]
  refine ⟨_, rfl, ?_⟩
  have hrange : (firstCall D src s).output.length + (retryCall D src s).output.length ≤
      estimate src * 2 := by omega
  have hiff := retryBuffer_eq_iff hbuf hbuf' (by omega) hrange
  rw [hboth, hfirst, hlen] at hiff
  exact hiff

/-! ## Faithful compression -/

/-- `Compress` returns true with a gzip stream of the input, or false with `out` unchanged; and it
returns true whenever `deflateInit2` succeeds and twice the first size suffices for the stream. -/
def CompressesFaithfully (P : Platform) (D : Deflater) (gunzip : Bytes → Option Bytes)
    (stream : Bytes → Bytes) (src out : Bytes) : Prop :=
  ((∃ o, P.compress D .gzip src out = .returned true o ∧ gunzip o = some src) ∨
      P.compress D .gzip src out = .returned false out) ∧
    (P.DeflateReady D → (stream src).length ≤ 2 * (src.length + 64) →
      ∃ o, P.compress D .gzip src out = .returned true o)

/-- The whole input is available, and its stream fits: into the first buffer, or after
`Z_BUF_ERROR` into the second. -/
def WritesStream (P : Platform) (D : Deflater) (src z : Bytes) : Prop :=
  src.length < 2 ^ 32 ∧ estimate src ≤ P.maxSize ∧
    (z.length ≤ firstRoom src ∨
      firstCode D src = some .bufError ∧ estimate src * 2 ≤ P.maxSize ∧
        z.length ≤ firstRoom src + retryRoom src)

/-- The stream does not fit, and `out` already is the buffer that the failed call leaves. -/
def LeavesBuffer (P : Platform) (D : Deflater) (src z out : Bytes) : Prop :=
  (estimate src ≤ P.maxSize ∧ firstRoom src < z.length ∧ firstCode D src = some .ok ∧
      out.length = estimate src ∧ out.take (firstRoom src) = z.take (firstRoom src)) ∨
    (estimate src * 2 ≤ P.maxSize ∧ firstRoom src + retryRoom src < z.length ∧
      firstCode D src = some .bufError ∧ out.length = estimate src * 2 ∧
      out.take (firstRoom src + retryRoom src) = z.take (firstRoom src + retryRoom src) ∧
      out.drop (firstRoom src + retryRoom src) =
        (out.take (estimate src) ++ List.replicate (estimate src) 0).drop
          (firstRoom src + retryRoom src))

variable {gunzip : Bytes → Option Bytes} {stream : Bytes → Bytes}

theorem not_faithful_of_threw (h : P.compress D .gzip src out = .threw) :
    ¬ P.CompressesFaithfully D gunzip stream src out := by
  rintro ⟨⟨o, ho, _⟩ | ho, _⟩ <;> rw [h] at ho <;> cases ho

theorem faithful_iff_of_true (h : P.compress D .gzip src out = .returned true z)
    (hgunzip : gunzip z = some (fed src)) :
    P.CompressesFaithfully D gunzip stream src out ↔ src.length < 2 ^ 32 := by
  rw [← fed_eq_iff]
  constructor
  · rintro ⟨⟨o, ho, hsrc⟩ | ho, _⟩ <;> rw [h] at ho <;> cases ho
    rw [hgunzip, Option.some.injEq] at hsrc
    exact hsrc
  · intro hfed
    exact ⟨Or.inl ⟨z, h, by rw [hgunzip, hfed]⟩, fun _ _ => ⟨z, h⟩⟩

theorem faithful_iff_of_false {o : Bytes} (hready : P.DeflateReady D)
    (h : P.compress D .gzip src out = .returned false o) :
    P.CompressesFaithfully D gunzip stream src out ↔
      2 * (src.length + 64) < (stream src).length ∧ o = out := by
  constructor
  · rintro ⟨hresult, hsuffices⟩
    refine ⟨?_, ?_⟩
    · by_contra hle
      obtain ⟨o', ho'⟩ := hsuffices hready (Nat.not_lt.1 hle)
      rw [h] at ho'
      cases ho'
    · rcases hresult with ⟨o', ho', _⟩ | ho' <;> rw [h] at ho' <;> cases ho'
      rfl
  · rintro ⟨hlarge, rfl⟩
    exact ⟨Or.inr h, fun _ hle => by omega⟩

end

end Platform

/-! ## A deflater -/

/-- `deflate` of a given stream: it writes as much as there is room for. -/
def streamingDeflate (stream : Bytes → Bytes) (s : Option Bytes) (input : Bytes) (room : Nat) :
    ZlibResult (Option Bytes) :=
  let rest := s.getD (stream input)
  if rest.length ≤ room then ⟨.streamEnd, input.length, rest, some []⟩
  else if room = 0 then ⟨.bufError, 0, [], s⟩
  else ⟨.ok, input.length, rest.take room, some (rest.drop room)⟩

def streaming (stream : Bytes → Bytes) : Deflater where
  State := Option Bytes
  init := some none
  deflate := streamingDeflate stream

/-- The states of `streaming`: before the first output, or with the rest of the stream. -/
def StreamingAt (z : Bytes) (s : Option Bytes) (c p : Nat) : Prop :=
  (s = none ∧ c = 0 ∧ p = 0) ∨ s = some (z.drop p)

theorem StreamingAt.rest {stream : Bytes → Bytes} {x : Bytes} {s : Option Bytes} {c p : Nat}
    (h : StreamingAt (stream x) s c p) : s.getD (stream (x.drop c)) = (stream x).drop p := by
  rcases h with ⟨rfl, rfl, rfl⟩ | rfl
  · rw [List.drop_zero, List.drop_zero, Option.getD_none]
  · rw [Option.getD_some]

theorem streaming_deflates (stream : Bytes → Bytes) (x : Bytes) :
    (streaming stream).Deflates x (stream x) (StreamingAt (stream x)) where
  start := by
    intro s hs
    cases hs
    exact Or.inl ⟨rfl, rfl, rfl⟩
  output := by
    intro s c p room hat
    simp only [streaming, streamingDeflate, hat.rest]
    split
    · rename_i hfits
      exact (List.take_of_length_le hfits).symm
    · split
      · rename_i hroom
        rw [hroom, List.take_zero]
      · rfl
  complete := by
    intro s c p room hat hfits
    have hrest : ((stream x).drop p).length ≤ room := by
      rw [List.length_drop]
      omega
    simp only [streaming, streamingDeflate, hat.rest, if_pos hrest]
  full := by
    intro s c p room hat hfull
    have hrest : ¬ ((stream x).drop p).length ≤ room := by
      rw [List.length_drop]
      omega
    simp only [streaming, streamingDeflate, hat.rest, if_neg hrest]
    split
    · rename_i hroom
      subst hroom
      exact ⟨Or.inr rfl, hat⟩
    · exact ⟨Or.inl rfl, Or.inr (congrArg some List.drop_drop)⟩

/-- The gzip stream of no bytes. -/
def emptyStream : Bytes := [31, 139, 8, 0, 0, 0, 0, 0, 0, 3, 3, 0, 0, 0, 0, 0, 0, 0, 0, 0]

namespace Platform

/-- **`Compress` is faithful or leaves `out` alone exactly if** zlib is missing; or the whole input
is available and the stream is written; or twice the first size does not suffice and `out` already
was the buffer that the failed call leaves. -/
theorem compress_faithful_iff {P : Platform} {D : Deflater} {gunzip : Bytes → Option Bytes}
    {stream : Bytes → Bytes} {src : Bytes} {At : D.State → Nat → Nat → Prop}
    (hzlib : D.Deflates (fed src) (stream (fed src)) At)
    (hgunzip : gunzip (stream (fed src)) = some (fed src)) (out : Bytes) :
    P.CompressesFaithfully D gunzip stream src out ↔
      ¬ P.DeflateReady D ∨ P.WritesStream D src (stream (fed src)) ∨
        (2 * (src.length + 64) < (stream src).length ∧
          P.LeavesBuffer D src (stream (fed src)) out) := by
  by_cases hready : P.DeflateReady D
  · obtain ⟨s, hgzip, hs⟩ := hready.start
    have hcode : firstCode D src = some (firstCall D src s).ret := by
      rw [firstCode, hs]
      rfl
    have hrooms := rooms_le src
    simp only [hready, not_true_eq_false, false_or, WritesStream, LeavesBuffer, hcode,
      Option.some.injEq]
    rcases Nat.lt_or_ge P.maxSize (estimate src) with hlarge | hmax
    · -- the first `resize` throws
      apply iff_of_false (not_faithful_of_threw (compress_threw hgzip hs hlarge))
      rintro (⟨_, h, _⟩ | ⟨_, ⟨h, _⟩ | ⟨h, _⟩⟩) <;> omega
    rcases Nat.lt_or_ge (firstRoom src) (stream (fed src)).length with hfull | hfits
    · rcases (firstCall_full hzlib hs hfull).1 with hok | hbuf
      · -- `Z_OK`
        obtain ⟨o, ho, hsame⟩ := compress_stops hzlib hgzip hs hmax hfull hok out
        rw [faithful_iff_of_false hready ho, hsame, hok]
        constructor
        · rintro ⟨hsuffices, hbuffer⟩
          exact Or.inr ⟨hsuffices, Or.inl ⟨hmax, hfull, rfl, hbuffer⟩⟩
        · rintro (⟨_, _, h | ⟨h, _⟩⟩ | ⟨hsuffices, ⟨_, _, _, hbuffer⟩ | ⟨_, _, h, _⟩⟩)
          · omega
          · cases h
          · exact ⟨hsuffices, hbuffer⟩
          · cases h
      · rcases Nat.lt_or_ge P.maxSize (estimate src * 2) with hlarge | hmax'
        · -- the second `resize` throws
          refine iff_of_false
            (not_faithful_of_threw (compress_retry_threw hzlib hgzip hs hmax hbuf hlarge)) ?_
          rw [hbuf]
          rintro (⟨_, _, h | ⟨_, h, _⟩⟩ | ⟨_, ⟨_, _, h, _⟩ | ⟨h, _⟩⟩)
          · omega
          · omega
          · cases h
          · omega
        rcases Nat.lt_or_ge (firstRoom src + retryRoom src) (stream (fed src)).length with
          hfull' | hfits'
        · -- the retry fails
          obtain ⟨o, ho, hsame⟩ :=
            compress_retry_stops hzlib hgzip hs hmax' hbuf hfull' out
          rw [faithful_iff_of_false hready ho, hsame, hbuf]
          constructor
          · rintro ⟨hsuffices, hbuffer⟩
            exact Or.inr ⟨hsuffices, Or.inr ⟨hmax', hfull', rfl, hbuffer⟩⟩
          · rintro (⟨_, _, h | ⟨_, _, h⟩⟩ | ⟨hsuffices, ⟨_, _, h, _⟩ | ⟨_, _, _, hbuffer⟩⟩)
            · omega
            · omega
            · cases h
            · exact ⟨hsuffices, hbuffer⟩
        · -- the retry succeeds
          have htrue := compress_retry_fits hzlib hgzip hs hmax' hfull hbuf hfits' out
          rw [faithful_iff_of_true htrue hgunzip, hbuf]
          constructor
          · intro hsrc
            exact Or.inl ⟨hsrc, hmax, Or.inr ⟨rfl, hmax', hfits'⟩⟩
          · rintro (⟨hsrc, _⟩ | ⟨_, ⟨_, _, h, _⟩ | ⟨_, h, _⟩⟩)
            · exact hsrc
            · cases h
            · omega
    · -- the first call succeeds
      have htrue := compress_fits hzlib hgzip hs hmax hfits out
      rw [faithful_iff_of_true htrue hgunzip]
      constructor
      · intro hsrc
        exact Or.inl ⟨hsrc, hmax, Or.inl hfits⟩
      · rintro (⟨hsrc, _⟩ | ⟨_, ⟨_, h, _⟩ | ⟨_, h, _⟩⟩)
        · exact hsrc
        · omega
        · omega
  · apply iff_of_true ⟨Or.inr (compress_of_not_ready hready), fun h => absurd h hready⟩
    exact Or.inl hready

/-- One byte is compressed into its stream. -/
theorem compress_faithful_iff_example :
    linux.CompressesFaithfully (streaming fun _ => aStream)
      (fun z => if z = aStream then some [97] else none) (fun _ => aStream) [97] [] :=
  (compress_faithful_iff (streaming_deflates _ _) rfl []).2
    (Or.inr (Or.inl ⟨by decide, by decide, Or.inl (by decide)⟩))

/-- Of 4 GiB no byte is available to `deflate`: the result is true, with the stream of no bytes. -/
theorem not_compress_faithful :
    ¬ ∀ (P : Platform) (D : Deflater) (gunzip : Bytes → Option Bytes) (stream : Bytes → Bytes)
      (src : Bytes) (At : D.State → Nat → Nat → Prop), D.Deflates (fed src) (stream (fed src)) At →
        gunzip (stream (fed src)) = some (fed src) →
          ∀ out, P.CompressesFaithfully D gunzip stream src out := by
  intro h
  have hlen : (List.replicate (2 ^ 32) (0 : UInt8)).length = 2 ^ 32 := List.length_replicate
  generalize List.replicate (2 ^ 32) (0 : UInt8) = src at hlen
  have hfed : fed src = [] := by rw [fed, hlen, Nat.mod_self, List.take_zero]
  let gunzip : Bytes → Option Bytes := fun z => if z = emptyStream then some [] else none
  have hgunzip : gunzip emptyStream = some (fed src) := by
    rw [hfed]
    rfl
  have hroom : emptyStream.length ≤ firstRoom src := by
    rw [firstRoom, estimate, hlen]
    decide
  have hmax : estimate src ≤ linux.maxSize := by
    rw [estimate, hlen]
    decide
  have htrue := compress_fits (P := linux)
    (streaming_deflates (fun _ => emptyStream) (fed src)) rfl rfl hmax hroom []
  have hshort := (faithful_iff_of_true htrue hgunzip).1
    (h linux _ gunzip (fun _ => emptyStream) src _ (streaming_deflates _ _) hgunzip [])
  omega

end Platform

end Rpcpio.Protocol

import Rpcpio.Protocol.Metadata

/-!
# Base64 with padding and foreign bytes

`decodeBase64` skips every byte outside the alphabet and stops at the first padding character, so
bytes inserted anywhere and padding behind do not change what is decoded
(`decodeBase64_noisy_padded`). Its 32-bit accumulator loses the upper bits of a long input; a byte
is read from the low thirteen bits, which are those of an accumulator that never wraps
(`decodeBase64_eq_exact`).
-/

set_option autoImplicit false

namespace Rpcpio.Protocol

/-! ## The accumulator -/

/-- `decodeBase64Loop` with an accumulator that does not wrap. -/
def decodeBase64LoopExact (buf bits : Nat) : Bytes → Bytes
  | [] => []
  | c :: cs =>
      if c = 61 then []
      else if kTable c < 0 then decodeBase64LoopExact buf bits cs
      else
        let buf' := (buf <<< 6) ||| (kTable c).toNat
        let bits' := bits + 6
        if 8 ≤ bits' then
          UInt8.ofNat ((buf' >>> (bits' - 8)) &&& 0xFF) ::
            decodeBase64LoopExact buf' (bits' - 8) cs
        else decodeBase64LoopExact buf' bits' cs

/-- `decodeBase64` with an accumulator that does not wrap. -/
def decodeBase64Exact (encoded : Bytes) : Bytes := decodeBase64LoopExact 0 0 encoded

/-- The table holds sextets. -/
theorem kTable_toNat_lt (c : UInt8) : (kTable c).toNat < 64 := by
  revert c
  exact forall_byte (by decide +kernel)

/-- The low bits of a word are those of the unbounded number. -/
theorem shiftRight_mod_and (n : Nat) {k : Nat} (hk : k + 8 ≤ 32) :
    ((n % 2 ^ 32) >>> k) &&& 0xFF = (n >>> k) &&& 0xFF := by
  rw [and_255, and_255, Nat.shiftRight_eq_div_pow, Nat.shiftRight_eq_div_pow,
    show (256 : Nat) = 2 ^ 8 from rfl, ← Nat.mod_mul_right_div_self, ← Nat.mod_mul_right_div_self,
    ← Nat.pow_add, Nat.mod_mod_of_dvd _ (Nat.pow_dvd_pow 2 hk)]

/-- **The accumulator may wrap**: what is decoded depends on its low bits only. -/
theorem decodeBase64Loop_eq_exact (s : Bytes) {buf exact bits : Nat}
    (hbuf : buf = exact % 2 ^ 32) (hbits : bits < 8) :
    decodeBase64Loop buf bits s = decodeBase64LoopExact exact bits s := by
  induction s generalizing buf exact bits with
  | nil => rfl
  | cons c s ih =>
      rw [decodeBase64Loop, decodeBase64LoopExact]
      by_cases hpad : c = 61
      · rw [if_pos hpad, if_pos hpad]
      by_cases hskip : kTable c < 0
      · rw [if_neg hpad, if_neg hpad, if_pos hskip, if_pos hskip]
        exact ih hbuf hbits
      rw [if_neg hpad, if_neg hpad, if_neg hskip, if_neg hskip]
      have hv := kTable_toNat_lt c
      -- a sextet is shifted in; what wraps around are bits that were read before
      have hnext : ((buf <<< 6) ||| (kTable c).toNat) % 2 ^ 32 =
          ((exact <<< 6) ||| (kTable c).toNat) % 2 ^ 32 := by
        rw [shift_sextet hv, shift_sextet hv, hbuf, Nat.add_mod, Nat.mod_mul_mod, ← Nat.add_mod]
      simp only
      by_cases hbyte : 8 ≤ bits + 6
      · rw [if_pos hbyte, if_pos hbyte, ih hnext (by omega), hnext,
          shiftRight_mod_and _ (by omega)]
      · rw [if_neg hbyte, if_neg hbyte]
        exact ih hnext (by omega)

theorem decodeBase64_eq_exact (s : Bytes) : decodeBase64 s = decodeBase64Exact s :=
  decodeBase64Loop_eq_exact s rfl (by decide)

/-! ## Foreign bytes -/

/-- A byte that is neither in the alphabet nor padding. -/
def IsForeign (c : UInt8) : Prop := c ∉ kAlpha ∧ c ≠ 61

instance (c : UInt8) : Decidable (IsForeign c) := inferInstanceAs (Decidable (_ ∧ _))

/-- `Noisy s t`: foreign bytes inserted into `s` give `t`. -/
inductive Noisy : Bytes → Bytes → Prop where
  | nil : Noisy [] []
  | keep {s t : Bytes} (c : UInt8) (h : Noisy s t) : Noisy (c :: s) (c :: t)
  | insert {s t : Bytes} {c : UInt8} (hc : IsForeign c) (h : Noisy s t) : Noisy s (c :: t)

/-- The characters of sextets are those of the alphabet. -/
theorem mem_kAlpha_iff {c : UInt8} : c ∈ kAlpha ↔ ∃ i, i < 64 ∧ alphaAt i = c := by
  have hlen : kAlpha.length = 64 := by decide +kernel
  simp only [List.mem_iff_getElem, hlen, alphaAt]
  apply exists_congr
  intro i
  constructor
  · rintro ⟨hi, rfl⟩
    exact ⟨hi, (List.getElem_eq_getD 0).symm⟩
  · rintro ⟨hi, rfl⟩
    exact ⟨hi, List.getElem_eq_getD 0⟩

/-- The table gives the sextet of a character back, and marks every other byte but the padding. -/
theorem alphaAt_kTable {c : UInt8} (hc : ¬ kTable c < 0) (hpad : c ≠ 61) :
    alphaAt (kTable c).toNat = c := by
  have hall : ∀ c, kTable c < 0 ∨ c = 61 ∨ alphaAt (kTable c).toNat = c :=
    forall_byte (by decide +kernel)
  rcases hall c with hneg | heq | h
  · exact absurd hneg hc
  · exact absurd heq hpad
  · exact h

/-- The table marks the foreign bytes. -/
theorem kTable_neg_iff (c : UInt8) : kTable c < 0 ↔ IsForeign c := by
  rw [IsForeign, mem_kAlpha_iff]
  constructor
  · intro hneg
    refine ⟨?_, ?_⟩
    · rintro ⟨i, hi, rfl⟩
      rw [(kTable_alphaAt hi).1] at hneg
      omega
    · rintro rfl
      exact absurd hneg (by decide)
  · rintro ⟨hmem, hpad⟩
    apply not_not.1
    intro hc
    exact hmem ⟨(kTable c).toNat, kTable_toNat_lt c, alphaAt_kTable hc hpad⟩

theorem decodeBase64Loop_foreign {c : UInt8} (hc : IsForeign c) (buf bits : Nat) (cs : Bytes) :
    decodeBase64Loop buf bits (c :: cs) = decodeBase64Loop buf bits cs := by
  rw [decodeBase64Loop, if_neg hc.2, if_pos ((kTable_neg_iff c).2 hc)]

/-- Foreign bytes are skipped wherever they stand. -/
theorem Noisy.decode {s t : Bytes} (h : Noisy s t) (buf bits : Nat) :
    decodeBase64Loop buf bits t = decodeBase64Loop buf bits s := by
  induction h generalizing buf bits with
  | nil => rfl
  | keep c h ih => simp only [decodeBase64Loop, ih]
  | insert hc h ih => rw [decodeBase64Loop_foreign hc, ih]

/-! ## Padding -/

/-- Padding ends the input. -/
theorem decodeBase64Loop_padded (s : Bytes) (k buf bits : Nat) :
    decodeBase64Loop buf bits (s ++ List.replicate k 61) = decodeBase64Loop buf bits s := by
  induction s generalizing buf bits with
  | nil =>
      cases k with
      | zero => rfl
      | succ k => rfl
  | cons c s ih => simp only [List.cons_append, decodeBase64Loop, ih]

theorem alphaAt_sextet_ne (n : Nat) : alphaAt (n &&& 63) ≠ 61 := by
  rw [and_63]
  exact (kTable_alphaAt (Nat.mod_lt n (by decide))).2

/-- The encoder writes no padding. -/
theorem pad_not_mem_encodeBase64 (d : Bytes) : (61 : UInt8) ∉ encodeBase64 d := by
  induction d using encodeBase64.induct with
  | case1 p0 p1 p2 rest ih =>
      simp only [encodeBase64, List.mem_cons, not_or]
      exact ⟨(alphaAt_sextet_ne _).symm, (alphaAt_sextet_ne _).symm, (alphaAt_sextet_ne _).symm,
        (alphaAt_sextet_ne _).symm, ih⟩
  | case2 p0 p1 =>
      simp only [encodeBase64, List.mem_cons, List.not_mem_nil, or_false, not_or]
      exact ⟨(alphaAt_sextet_ne _).symm, (alphaAt_sextet_ne _).symm, (alphaAt_sextet_ne _).symm⟩
  | case3 p0 =>
      simp only [encodeBase64, List.mem_cons, List.not_mem_nil, or_false, not_or]
      exact ⟨(alphaAt_sextet_ne _).symm, (alphaAt_sextet_ne _).symm⟩
  | case4 => simp [encodeBase64]

/-- **Base64 decoding inverts encoding**, with foreign bytes anywhere and any padding behind; the
encoding itself has none, and the accumulator decodes every input as an unbounded one would. -/
theorem decodeBase64_noisy_padded {d t : Bytes} (h : Noisy (encodeBase64 d) t) (k : Nat) :
    decodeBase64 (t ++ List.replicate k 61) = d ∧
      (∀ s, decodeBase64 s = decodeBase64Exact s) ∧ (61 : UInt8) ∉ encodeBase64 d := by
  refine ⟨?_, decodeBase64_eq_exact, pad_not_mem_encodeBase64 d⟩
  rw [decodeBase64, decodeBase64Loop_padded, h.decode]
  exact decodeBase64_encodeBase64 d

theorem decodeBase64_noisy_padded_lines :
    decodeBase64 (text "aG\nk" ++ List.replicate 1 61) = text "hi" ∧
      (∀ s, decodeBase64 s = decodeBase64Exact s) ∧ (61 : UInt8) ∉ encodeBase64 (text "hi") := by
  have hnoisy : Noisy (text "aGk") (text "aG\nk") :=
    .keep 97 (.keep 71 (.insert (by decide) (.keep 107 .nil)))
  have hencode : encodeBase64 (text "hi") = text "aGk" := by decide
  exact decodeBase64_noisy_padded (hencode ▸ hnoisy) 1

end Rpcpio.Protocol

import Rpcpio.Library.Multimap
import Rpcpio.Protocol.Status

/-!
# Metadata: keys, base64 and percent encoding

`encodeBase64` emits the standard alphabet without padding; `decodeBase64` accepts padded and
unpadded input and skips bytes outside the alphabet. Its accumulator is a 32-bit word that keeps
all earlier input in its upper bits; the emitted bytes read only the low bits
(`decodeBase64Loop_sextet`, `decodeBase64Loop_byte`), so whole groups decode independently of what
came before (`decodeBase64_encodeBase64`). `percentDecode` inverts `percentEncode` on every byte
string (`percentDecode_percentEncode`).
-/

set_option autoImplicit false

namespace Rpcpio.Protocol

open Rpcpio.Library

/-- `MetadataMap`: an ordered multimap of byte strings. -/
abbrev MetadataMap := Multimap Bytes Bytes

/-- `kMaxMetadataSize`. -/
def kMaxMetadataSize : Nat := 8192

/-- A character of a valid key: lowercase letter, digit, hyphen or underscore. -/
def isKeyByte (c : UInt8) : Bool :=
  (97 ≤ c && c ≤ 122) || (48 ≤ c && c ≤ 57) || c == 45 || c == 95

/-- `IsValidKey`. -/
def isValidKey (key : Bytes) : Bool := !key.isEmpty && key.all isKeyByte

/-- `IsBinaryKey`. -/
def isBinaryKey (key : Bytes) : Bool :=
  4 < key.length && key.drop (key.length - 4) == text "-bin"

/-- `IsReservedKey`. -/
def isReservedKey (key : Bytes) : Bool :=
  (text "grpc-").isPrefixOf key || key == text "content-type" || key == text "te" ||
    (text ":").isPrefixOf key

/-- The base64 alphabet. -/
def kAlpha : Bytes := text "ABCDEFGHIJKLMNOPQRSTUVWXYZabcdefghijklmnopqrstuvwxyz0123456789+/"

/-- The character of a sextet. -/
def alphaAt (i : Nat) : UInt8 := kAlpha.getD i 0

/-- `EncodeBase64`: three bytes at a time, then a remainder of one or two. -/
def encodeBase64 : Bytes → Bytes
  | p0 :: p1 :: p2 :: rest =>
      let v := (p0.toNat <<< 16) ||| (p1.toNat <<< 8) ||| p2.toNat
      alphaAt ((v >>> 18) &&& 63) :: alphaAt ((v >>> 12) &&& 63) :: alphaAt ((v >>> 6) &&& 63) ::
        alphaAt (v &&& 63) :: encodeBase64 rest
  | [p0, p1] =>
      let v := (p0.toNat <<< 16) ||| (p1.toNat <<< 8)
      [alphaAt ((v >>> 18) &&& 63), alphaAt ((v >>> 12) &&& 63), alphaAt ((v >>> 6) &&& 63)]
  | [p0] =>
      let v := p0.toNat <<< 16
      [alphaAt ((v >>> 18) &&& 63), alphaAt ((v >>> 12) &&& 63)]
  | [] => []

/-- The decoder's lookup table; `-1` marks a byte outside the alphabet. -/
def kTable (c : UInt8) : Int :=
  if 65 ≤ c ∧ c ≤ 90 then c.toNat - 65
  else if 97 ≤ c ∧ c ≤ 122 then 26 + (c.toNat - 97)
  else if 48 ≤ c ∧ c ≤ 57 then 52 + (c.toNat - 48)
  else if c = 43 then 62
  else if c = 47 then 63
  else if c = 61 then 0
  else -1

/-- The loop of `DecodeBase64`, with its 32-bit accumulator and bit count. -/
def decodeBase64Loop (buf bits : Nat) : Bytes → Bytes
  | [] => []
  | c :: cs =>
      if c = 61 then []
      else if kTable c < 0 then decodeBase64Loop buf bits cs
      else
        let buf' := ((buf <<< 6) ||| (kTable c).toNat) % 2 ^ 32
        let bits' := bits + 6
        if 8 ≤ bits' then
          UInt8.ofNat ((buf' >>> (bits' - 8)) &&& 0xFF) :: decodeBase64Loop buf' (bits' - 8) cs
        else decodeBase64Loop buf' bits' cs

/-- `DecodeBase64`. -/
def decodeBase64 (encoded : Bytes) : Bytes := decodeBase64Loop 0 0 encoded

/-- The digits of `PercentEncode`. -/
def kHex : Bytes := text "0123456789ABCDEF"

/-- Printable ASCII other than space and percent. -/
def isPercentSafe (c : UInt8) : Bool := 0x21 ≤ c && c ≤ 0x7E && c != 37

/-- `PercentEncode`. -/
def percentEncode : Bytes → Bytes
  | [] => []
  | c :: cs =>
      if isPercentSafe c then c :: percentEncode cs
      else
        37 :: kHex.getD ((c.toNat >>> 4) &&& 0xF) 0 :: kHex.getD (c.toNat &&& 0xF) 0 ::
          percentEncode cs

/-- The value of a hexadecimal digit, or `-1`. -/
def hexval (c : UInt8) : Int :=
  if 48 ≤ c ∧ c ≤ 57 then c.toNat - 48
  else if 97 ≤ c ∧ c ≤ 102 then c.toNat - 97 + 10
  else if 65 ≤ c ∧ c ≤ 70 then c.toNat - 65 + 10
  else -1

/-- `PercentDecode`: malformed escapes pass through unchanged. -/
def percentDecode : Bytes → Bytes
  | c :: h :: l :: rest =>
      if c = 37 ∧ 0 ≤ hexval h ∧ 0 ≤ hexval l then
        UInt8.ofNat (((hexval h).toNat <<< 4) ||| (hexval l).toNat) :: percentDecode rest
      else c :: percentDecode (h :: l :: rest)
  | c :: rest => c :: percentDecode rest
  | [] => []

/-- `ValidateAndAdd`; `none` models the thrown `std::invalid_argument`. -/
def validateAndAdd (map : MetadataMap) (key value : Bytes) : Option MetadataMap :=
  if !isValidKey key then none
  else if isReservedKey key then none
  else some (Multimap.emplace key value map)

/-- `TotalSize`. -/
def totalSize (m : MetadataMap) : Nat := (m.map fun e => e.1.length + e.2.length).sum

/-! ## Percent encoding -/

/-- Bytes are determined by their numeric value, so a fact about all bytes is one about 256
numbers. -/
theorem forall_byte {p : UInt8 → Prop} (h : ∀ n : Fin 256, p (UInt8.ofNat n)) (c : UInt8) :
    p c := by
  have hc := h ⟨c.toNat, c.toNat_lt⟩
  simpa using hc

/-- The two digits of an escape are hexadecimal and give the byte back. -/
theorem hexval_escape (c : UInt8) :
    0 ≤ hexval (kHex.getD ((c.toNat >>> 4) &&& 0xF) 0) ∧
      0 ≤ hexval (kHex.getD (c.toNat &&& 0xF) 0) ∧
      UInt8.ofNat (((hexval (kHex.getD ((c.toNat >>> 4) &&& 0xF) 0)).toNat <<< 4) |||
        (hexval (kHex.getD (c.toNat &&& 0xF) 0)).toNat) = c := by
  revert c
  exact forall_byte (by decide +kernel)

/-- The digits of an escape are visible. -/
theorem kHex_visible (c : UInt8) :
    ((0x21 : UInt8) ≤ kHex.getD ((c.toNat >>> 4) &&& 0xF) 0 ∧
        kHex.getD ((c.toNat >>> 4) &&& 0xF) 0 ≤ 0x7E) ∧
      ((0x21 : UInt8) ≤ kHex.getD (c.toNat &&& 0xF) 0 ∧ kHex.getD (c.toNat &&& 0xF) 0 ≤ 0x7E) := by
  revert c
  exact forall_byte (by decide +kernel)

/-- A byte other than `%` passes the decoder unchanged. -/
theorem percentDecode_cons {c : UInt8} (hc : c ≠ 37) (cs : Bytes) :
    percentDecode (c :: cs) = c :: percentDecode cs := by
  rcases cs with _ | ⟨h, _ | ⟨l, rest⟩⟩
  · rfl
  · rfl
  · rw [percentDecode, if_neg fun hcond => hc hcond.1]

/-- **Percent encoding is inverted for every byte string.** -/
theorem percentDecode_percentEncode (s : Bytes) : percentDecode (percentEncode s) = s := by
  induction s with
  | nil => rfl
  | cons c cs ih =>
      by_cases hsafe : isPercentSafe c
      · have hc : c ≠ 37 := by
          intro h
          subst h
          exact absurd hsafe (by decide)
        rw [percentEncode, if_pos hsafe, percentDecode_cons hc, ih]
      · obtain ⟨hhi, hlo, hbyte⟩ := hexval_escape c
        rw [percentEncode, if_neg hsafe, percentDecode, if_pos ⟨rfl, hhi, hlo⟩, hbyte, ih]

/-- The encoded message consists of visible ASCII bytes only. -/
theorem percentEncode_visible (s : Bytes) : ∀ c ∈ percentEncode s, 0x21 ≤ c ∧ c ≤ 0x7E := by
  induction s with
  | nil => simp [percentEncode]
  | cons a s ih =>
      intro c hc
      by_cases hsafe : isPercentSafe a
      · rw [percentEncode, if_pos hsafe] at hc
        rcases List.mem_cons.1 hc with rfl | hc
        · simp only [isPercentSafe, Bool.and_eq_true, decide_eq_true_eq] at hsafe
          exact hsafe.1
        · exact ih c hc
      · rw [percentEncode, if_neg hsafe] at hc
        simp only [List.mem_cons] at hc
        rcases hc with rfl | rfl | rfl | hc
        · decide
        · exact (kHex_visible a).1
        · exact (kHex_visible a).2
        · exact ih c hc

/-! ## Base64 -/

/-- Every sextet is read back from its character, which is not the padding character. -/
theorem kTable_alphaAt {i : Nat} (hi : i < 64) :
    kTable (alphaAt i) = (i : Int) ∧ alphaAt i ≠ 61 := by
  have h : ∀ n : Fin 64, kTable (alphaAt n) = ((n : Nat) : Int) ∧ alphaAt n ≠ 61 := by
    decide +kernel
  exact h ⟨i, hi⟩

/-- Shifting in six bits. -/
theorem shift_sextet {buf v : Nat} (hv : v < 64) : (buf <<< 6) ||| v = buf * 64 + v := by
  rw [← Nat.shiftLeft_add_eq_or_of_lt hv, Nat.shiftLeft_eq]

theorem and_255 (n : Nat) : n &&& 0xFF = n % 256 := Nat.and_two_pow_sub_one_eq_mod n 8

theorem and_63 (n : Nat) : n &&& 63 = n % 64 := Nat.and_two_pow_sub_one_eq_mod n 6

/-- A sextet that does not complete a byte. -/
theorem decodeBase64Loop_sextet {i buf bits : Nat} (hi : i < 64) (hbits : bits < 2) (cs : Bytes) :
    decodeBase64Loop buf bits (alphaAt i :: cs) =
      decodeBase64Loop ((buf * 64 + i) % 2 ^ 32) (bits + 6) cs := by
  obtain ⟨hv, hpad⟩ := kTable_alphaAt hi
  rw [decodeBase64Loop, if_neg hpad, hv, if_neg (by omega)]
  simp only [Int.toNat_natCast, shift_sextet hi]
  rw [if_neg (by omega)]

/-- A sextet that completes a byte; the byte is read from the low bits of the accumulator. -/
theorem decodeBase64Loop_byte {i buf bits : Nat} (hi : i < 64) (hbits : 2 ≤ bits) (cs : Bytes) :
    decodeBase64Loop buf bits (alphaAt i :: cs) =
      UInt8.ofNat ((buf * 64 + i) % 2 ^ 32 / 2 ^ (bits - 2) % 256) ::
        decodeBase64Loop ((buf * 64 + i) % 2 ^ 32) (bits - 2) cs := by
  obtain ⟨hv, hpad⟩ := kTable_alphaAt hi
  rw [decodeBase64Loop, if_neg hpad, hv, if_neg (by omega)]
  simp only [Int.toNat_natCast, shift_sextet hi]
  rw [if_pos (by omega), and_255, Nat.shiftRight_eq_div_pow, show bits + 6 - 8 = bits - 2 by omega]

theorem uint8_ofNat_eq {n : Nat} {c : UInt8} (h : n = c.toNat) : UInt8.ofNat n = c := by
  rw [h]
  simp

/-- The 24-bit word of a group. -/
theorem group_word (p0 p1 p2 : UInt8) :
    (p0.toNat <<< 16) ||| (p1.toNat <<< 8) ||| p2.toNat =
      p0.toNat * 65536 + p1.toNat * 256 + p2.toNat := by
  have h1 := p1.toNat_lt
  have h2 := p2.toNat_lt
  have hlow : (p1.toNat <<< 8) ||| p2.toNat = p1.toNat * 256 + p2.toNat := by
    rw [← Nat.shiftLeft_add_eq_or_of_lt h2, Nat.shiftLeft_eq]
  have hlt : p1.toNat * 256 + p2.toNat < 2 ^ 16 := by omega
  rw [Nat.or_assoc, hlow, ← Nat.shiftLeft_add_eq_or_of_lt hlt, Nat.shiftLeft_eq, Nat.add_assoc]

/-- The word of a remainder of two bytes. -/
theorem pair_word (p0 p1 : UInt8) :
    (p0.toNat <<< 16) ||| (p1.toNat <<< 8) = p0.toNat * 65536 + p1.toNat * 256 := by
  have h := group_word p0 p1 0
  simpa using h

/-- **Base64 decoding inverts encoding**, whatever the accumulator held before. -/
theorem decodeBase64Loop_encodeBase64 (d : Bytes) (buf : Nat) :
    decodeBase64Loop buf 0 (encodeBase64 d) = d := by
  induction d using encodeBase64.induct generalizing buf with
  | case1 p0 p1 p2 rest ih =>
      have h0 := p0.toNat_lt
      have h1 := p1.toNat_lt
      have h2 := p2.toNat_lt
      -- four sextets and 24 bits: the buffer is empty again behind the group
      rw [encodeBase64, group_word]
      simp only [and_63, Nat.shiftRight_eq_div_pow]
      rw [decodeBase64Loop_sextet (by omega) (by omega),
        decodeBase64Loop_byte (by omega) (by omega), decodeBase64Loop_byte (by omega) (by omega),
        decodeBase64Loop_byte (by omega) (by omega)]
      rw [show 0 + 6 - 2 - 2 - 2 = 0 from rfl, ih]
      congr 1
      · exact uint8_ofNat_eq (by omega)
      congr 1
      · exact uint8_ofNat_eq (by omega)
      congr 1
      · exact uint8_ofNat_eq (by omega)
  | case2 p0 p1 =>
      have h0 := p0.toNat_lt
      have h1 := p1.toNat_lt
      -- three sextets; the two bits left over in the buffer are dropped
      rw [encodeBase64, pair_word]
      simp only [and_63, Nat.shiftRight_eq_div_pow]
      rw [decodeBase64Loop_sextet (by omega) (by omega),
        decodeBase64Loop_byte (by omega) (by omega), decodeBase64Loop_byte (by omega) (by omega),
        decodeBase64Loop]
      congr 1
      · exact uint8_ofNat_eq (by omega)
      congr 1
      · exact uint8_ofNat_eq (by omega)
  | case3 p0 =>
      have h0 := p0.toNat_lt
      rw [encodeBase64]
      simp only [and_63, Nat.shiftRight_eq_div_pow, Nat.shiftLeft_eq]
      rw [decodeBase64Loop_sextet (by omega) (by omega),
        decodeBase64Loop_byte (by omega) (by omega), decodeBase64Loop]
      congr 1
      · exact uint8_ofNat_eq (by omega)
  | case4 => rfl

theorem decodeBase64_encodeBase64 (d : Bytes) : decodeBase64 (encodeBase64 d) = d :=
  decodeBase64Loop_encodeBase64 d 0

end Rpcpio.Protocol

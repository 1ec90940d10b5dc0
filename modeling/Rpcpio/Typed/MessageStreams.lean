import Rpcpio.Stream.DownloadRoundTrip
import Rpcpio.Typed.Messages

/-!
# Streams of messages

A typed writer passes the bytes of a message on to its raw writer, or nothing if protobuf does not
serialize it. So the bytes of a stream are those of the messages that were serialized, and a typed
reader at the other end reads these messages, in order, and the end as it is.
-/

set_option autoImplicit false

universe u

namespace Rpcpio.Typed

open Rpcpio.Library Rpcpio.Protocol Rpcpio.Stream

variable {μ : Type} {c : Codec μ} {failed : Status}

/-- The call of the raw writer, if the message was serialized. -/
def passedOn {ε : Type u} (write : Bytes → ε) : Except Status Bytes → List ε
  | .error _ => []
  | .ok bytes => [write bytes]

/-- The messages, of those that are written, that protobuf serializes. -/
def serialized (c : Codec μ) (ms : List μ) : List μ :=
  ms.filter fun m => (c.serializeToString m).isSome

/-- The bytes that a write passes on. -/
theorem flatMap_passedOn {ε : Type u} {write : Bytes → ε} {g : ε → List Bytes}
    (hg : ∀ p, g (write p) = [p]) (m : μ) :
    (passedOn write (writeBytes c failed m)).flatMap g = [m].filterMap c.serializeToString := by
  cases hm : c.serializeToString m with
  | none => simp [writeBytes, hm, passedOn]
  | some bytes => simp [writeBytes, hm, passedOn, hg]

/-- A call of the raw writer logs nothing elsewhere. -/
theorem flatMap_passedOn_nil {ε : Type u} {write : Bytes → ε} {g : ε → List Bytes}
    (hg : ∀ p, g (write p) = []) (r : Except Status Bytes) :
    (passedOn write r).flatMap g = [] := by
  cases r with
  | error s => rfl
  | ok bytes => simp [passedOn, hg]

/-- A reader reads the messages that were serialized. -/
theorem reads_serialized (hc : c.Lawful) (hfailed : failed.isOk = false) (ms : List μ) :
    ((ms.filterMap c.serializeToString).map .message).map (typedRead c failed hfailed) =
      (serialized c ms).map fun m => .ofValue (some m) := by
  induction ms with
  | nil => rfl
  | cons m ms ih =>
      rw [serialized] at ih ⊢
      rw [List.filterMap_cons, List.filter_cons]
      cases hm : c.serializeToString m with
      | none => simpa using ih
      | some bytes =>
          have hread := (typedRead_writeBytes hc hfailed
            (show writeBytes c failed m = .ok bytes by rw [writeBytes, hm])).1
          simpa [hread] using ih

/-- The bytes of the messages keep the limits of the messages, and of `int`. -/
theorem bytes_bounded (hc : c.Lawful) {ms : List μ} {k : Nat}
    (h : ∀ m ∈ ms, ∀ p, c.serializeToString m = some p → p.length ≤ k) :
    ∀ p ∈ ms.filterMap c.serializeToString, p.length ≤ k ∧ p.length < 2 ^ 32 := by
  intro p hp
  obtain ⟨m, hm, hp⟩ := List.mem_filterMap.1 hp
  have hlen : p.length ≤ 2 ^ 31 - 1 := hc.length_string m p hp
  exact ⟨h m hm p hp, by omega⟩

/-- The same of the limits of both ends. -/
theorem bytes_bounded_two (hc : c.Lawful) {ms : List μ} {k l : Nat}
    (h : ∀ m ∈ ms, ∀ p, c.serializeToString m = some p → p.length ≤ k ∧ p.length ≤ l) :
    ∀ p ∈ ms.filterMap c.serializeToString,
      p.length ≤ k ∧ p.length ≤ l ∧ p.length < 2 ^ 32 := by
  intro p hp
  obtain ⟨hk, hlt⟩ := bytes_bounded hc (fun m hm p hp => (h m hm p hp).1) p hp
  exact ⟨hk, (bytes_bounded hc (fun m hm p hp => (h m hm p hp).2) p hp).1, hlt⟩

/-- The end of a stream at a typed reader: nothing more, or the status. -/
def typedEnd (s : Status) : StatusOr (Option μ) :=
  if hs : s.isOk = false then ⟨none, s, hs⟩ else .ofValue none

theorem typedRead_streamEnd (c : Codec μ) (hfailed : failed.isOk = false) (s : Status) :
    typedRead c failed hfailed (streamEnd s) = typedEnd s := by
  cases hs : s.isOk with
  | true => simp [streamEnd, hs, typedEnd, typedRead, PopResult.eos]
  | false => simp [streamEnd, hs, typedEnd, typedRead, PopResult.error]

/-- **The reads of a stream of bytes are reads of its messages**, up to an end that may be read any
number of times. -/
theorem reads_of_bytes (hc : c.Lawful) (hfailed : failed.isOk = false) {results : List PopResult}
    {ms : List μ} (ending : Option Status)
    (h : results <+: (ms.filterMap c.serializeToString).map .message ++
      (ending.elim [] fun s => List.replicate results.length (streamEnd s))) :
    results.map (typedRead c failed hfailed) <+:
      (serialized c ms).map (fun m => .ofValue (some m)) ++
        (ending.elim [] fun s => List.replicate results.length (typedEnd s)) := by
  have hmap := h.map (typedRead c failed hfailed)
  rw [List.map_append, reads_serialized hc hfailed] at hmap
  cases ending with
  | none => exact hmap
  | some s =>
      simpa only [Option.elim_some, List.map_replicate, typedRead_streamEnd c hfailed] using hmap

/-- The same at a handler, which reads the end once the caller has declared it. -/
theorem handlerReads_of_bytes (hc : c.Lawful) (hfailed : failed.isOk = false)
    {results : List PopResult} {ms : List μ} {done : Bool}
    (h : results <+: (ms.filterMap c.serializeToString).map .message ++
      if done then List.replicate results.length .eos else []) :
    results.map (typedRead c failed hfailed) <+:
      (serialized c ms).map (fun m => .ofValue (some m)) ++
        if done then List.replicate results.length (.ofValue none) else [] := by
  cases done with
  | false => exact reads_of_bytes hc hfailed none h
  | true => exact reads_of_bytes hc hfailed (some Status.okStatus) h

end Rpcpio.Typed

import Rpcpio.Protocol.MetadataCodec

/-!
# Metadata on the wire

`MetadataToNghttp2Headers` writes every entry that `ValidateAndAdd` accepts, and a status without
metadata adds headers of the protocol only: such headers carry validated metadata only if there are
none (`OwnHeaders.carriesAll_iff`).
-/

set_option autoImplicit false

namespace Rpcpio.Protocol

open Rpcpio.Library

/-- The header that carries an entry of metadata. -/
def wireHeader (e : Bytes × Bytes) : Bytes × HeaderValue :=
  (e.1, plain (if isBinaryKey e.1 then encodeBase64 e.2 else e.2))

/-- Every entry of the metadata is among the headers. -/
def CarriesAll (h : HeaderMap) (m : MetadataMap) : Prop := ∀ e ∈ m, wireHeader e ∈ h

/-- Entries that `ValidateAndAdd` accepts. -/
def Validated (m : MetadataMap) : Prop :=
  ∀ e ∈ m, isValidKey e.1 = true ∧ isReservedKey e.1 = false

/-- Headers of the protocol itself. -/
def OwnHeaders (h : HeaderMap) : Prop := ∀ e ∈ h, isReservedKey e.1 = true

theorem carriesAll_nil (h : HeaderMap) : CarriesAll h [] := fun _ he => by cases he

theorem validated_nil : Validated [] := fun _ he => by cases he

/-- What is added to validated metadata leaves it validated; a rejected entry is not added. -/
theorem Validated.add {m : MetadataMap} (h : Validated m) (key value : Bytes) :
    Validated ((validateAndAdd m key value).getD m) := by
  simp only [validateAndAdd]
  split
  · exact h
  split
  · exact h
  · rename_i hvalid hreserved
    intro e he
    rcases Multimap.mem_emplace.1 he with rfl | he
    · exact ⟨by simpa using hvalid, by simpa using hreserved⟩
    · exact h e he

/-- Headers that stand before the metadata stay. -/
theorem mem_metadataToNghttp2Headers_of_mem {m : MetadataMap} {out : HeaderMap}
    {e : Bytes × HeaderValue} (he : e ∈ out) : e ∈ metadataToNghttp2Headers m out := by
  induction m generalizing out with
  | nil => exact he
  | cons entry m ih =>
      rw [metadataToNghttp2Headers]
      split
      · exact ih he
      · exact ih (Multimap.mem_emplace.2 (Or.inr he))

/-- **Validated metadata is written completely.** -/
theorem carriesAll_metadataToNghttp2Headers {m : MetadataMap} (hm : Validated m)
    (out : HeaderMap) : CarriesAll (metadataToNghttp2Headers m out) m := by
  induction m generalizing out with
  | nil => exact carriesAll_nil _
  | cons entry m ih =>
      obtain ⟨hvalid, hreserved⟩ := hm entry List.mem_cons_self
      have hrest : Validated m := fun e he => hm e (List.mem_cons_of_mem _ he)
      intro e he
      rw [metadataToNghttp2Headers, if_neg (by simp [hvalid, hreserved])]
      rcases List.mem_cons.1 he with rfl | he
      · exact mem_metadataToNghttp2Headers_of_mem (Multimap.mem_emplace.2 (Or.inl rfl))
      · exact ih hrest _ e he

theorem mem_buildTrailers_of_mem {s : Status} {m : MetadataMap} {out : HeaderMap}
    {e : Bytes × HeaderValue} (he : e ∈ out) : e ∈ buildTrailers s m out := by
  apply mem_metadataToNghttp2Headers_of_mem
  have hstatus : e ∈ Multimap.emplace (text "grpc-status") (plain (decimal s.code.toNat)) out :=
    Multimap.mem_emplace.2 (Or.inr he)
  have hmessage : e ∈ addMessage s.message
      (Multimap.emplace (text "grpc-status") (plain (decimal s.code.toNat)) out) := by
    simp only [addMessage]
    split
    · exact hstatus
    · exact Multimap.mem_emplace.2 (Or.inr hstatus)
  simp only [addDetails]
  split
  · exact hmessage
  · exact Multimap.mem_emplace.2 (Or.inr hmessage)

theorem ownHeaders_nil : OwnHeaders [] := fun _ he => by cases he

theorem OwnHeaders.emplace {h : HeaderMap} (hh : OwnHeaders h) {key : Bytes}
    (hk : isReservedKey key = true) (v : HeaderValue) : OwnHeaders (Multimap.emplace key v h) := by
  intro e he
  rcases Multimap.mem_emplace.1 he with rfl | he
  · exact hk
  · exact hh e he

/-- A status without metadata adds headers of the protocol only. -/
theorem OwnHeaders.buildTrailers {h : HeaderMap} (hh : OwnHeaders h) (s : Status) :
    OwnHeaders (buildTrailers s [] h) := by
  have hstatus := hh.emplace (show isReservedKey (text "grpc-status") = true by decide)
    (plain (decimal s.code.toNat))
  have hmessage : OwnHeaders (addMessage s.message
      (Multimap.emplace (text "grpc-status") (plain (decimal s.code.toNat)) h)) := by
    simp only [addMessage]
    split
    · exact hstatus
    · exact hstatus.emplace (by decide) _
  show OwnHeaders (addDetails s.details _)
  simp only [addDetails]
  split
  · exact hmessage
  · exact hmessage.emplace (by decide) _

/-- Headers of the protocol carry validated metadata only if there is none. -/
theorem OwnHeaders.carriesAll_iff {h : HeaderMap} (hh : OwnHeaders h) {m : MetadataMap}
    (hm : Validated m) : CarriesAll h m ↔ m = [] := by
  constructor
  · intro hall
    cases m with
    | nil => rfl
    | cons e m =>
        have hreserved := hh _ (hall e List.mem_cons_self)
        rw [wireHeader, (hm e List.mem_cons_self).2] at hreserved
        cases hreserved
  · rintro rfl
    exact carriesAll_nil h

end Rpcpio.Protocol

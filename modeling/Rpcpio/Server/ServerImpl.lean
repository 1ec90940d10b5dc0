import Rpcpio.Server.BidiStreamingCallState
import Rpcpio.Server.CallState

/-!
# The server

`ServerImpl.handleRequest` checks a request, looks its path up in the maps of the four kinds of
handlers, and creates the call state; what it rejects it answers itself. Handlers are the
application's, so the maps are the lists of the registered paths.
-/

set_option autoImplicit false

namespace Rpcpio.Server

open Rpcpio.Library Rpcpio.Protocol

/-- The limits of `ServerOptions`. -/
structure ServerOptions where
  maxRequestMessageSize : Nat
  maxResponseMessageSize : Nat
  maxMetadataSize : Nat
  deriving DecidableEq, Repr

/-- The default limits. -/
def ServerOptions.default : ServerOptions := ⟨4 * 1024 * 1024, 4 * 1024 * 1024, 8192⟩

/-- A request as `HandleRequest` reads it, with the identity of its TLS peer. -/
structure IncomingRequest extends Request where
  path : Bytes
  method : Bytes
  peerIdentity : Bytes
  deriving DecidableEq, Repr

/-- The members of `ServerImpl` that `HandleRequest` reads. -/
structure ServerImpl where
  opts : ServerOptions
  shutdown : Bool
  handlers : List Bytes
  serverStreamingHandlers : List Bytes
  clientStreamingHandlers : List Bytes
  bidiHandlers : List Bytes
  deriving DecidableEq, Repr

/-- What `HandleRequest` does: `write_head` and `end`, or the call state that it starts. -/
inductive Handling where
  | answered (statusCode : Nat) (headers : HeaderMap)
  | unary (c : ServerCallState)
  | serverStreaming (c : ServerStreamingCallState)
  | clientStreaming (c : ClientStreamingCallState)
  | bidi (c : BidiStreamingCallState)
  deriving DecidableEq, Repr

/-- The status after `Shutdown`. -/
def serverShuttingDown : Status := Status.of .unavailable (text "server shutting down")

/-- The status of a request without `te: trailers`. -/
def missingTe : Status := Status.of .unimplemented (text "missing te: trailers")

/-- The status of a path without a handler. -/
def unknownMethod (path : Bytes) : Status :=
  Status.of .unimplemented (text "unknown method: " ++ path)

namespace ServerImpl

/-- `HandleRequest`. -/
def handleRequest (srv : ServerImpl) (req : IncomingRequest) : Handling :=
  let o := srv.opts
  if srv.shutdown then .answered 200 (buildTrailers serverShuttingDown [] [])
  else if req.method ≠ text "POST" then .answered 405 []
  else if !headerContains (text "content-type") (text "application/grpc") req.header then
    .answered 415 []
  else if !headerContains (text "te") (text "trailers") req.header then
    .answered 200 (buildTrailers missingTe [] [])
  else if srv.handlers.contains req.path then
    .unary (ServerCallState.new o.maxRequestMessageSize o.maxMetadataSize
      o.maxResponseMessageSize req.peerIdentity)
  else if srv.serverStreamingHandlers.contains req.path then
    .serverStreaming (ServerStreamingCallState.new o.maxRequestMessageSize o.maxMetadataSize
      o.maxResponseMessageSize req.peerIdentity)
  else if srv.clientStreamingHandlers.contains req.path then
    .clientStreaming (ClientStreamingCallState.new o.maxRequestMessageSize o.maxMetadataSize
      o.maxResponseMessageSize req.peerIdentity)
  else if srv.bidiHandlers.contains req.path then
    .bidi (BidiStreamingCallState.new o.maxRequestMessageSize o.maxMetadataSize
      o.maxResponseMessageSize req.peerIdentity)
  else .answered 200 (buildTrailers (unknownMethod req.path) [] [])

/-- The path has a handler of some kind. -/
def hasHandler (srv : ServerImpl) (path : Bytes) : Bool :=
  srv.handlers.contains path || srv.serverStreamingHandlers.contains path ||
    srv.clientStreamingHandlers.contains path || srv.bidiHandlers.contains path

/-- A request that reaches a handler. -/
def Admits (srv : ServerImpl) (req : IncomingRequest) : Prop :=
  srv.shutdown = false ∧ req.method = text "POST" ∧
    headerContains (text "content-type") (text "application/grpc") req.header = true ∧
    headerContains (text "te") (text "trailers") req.header = true ∧
    srv.hasHandler req.path = true

instance (srv : ServerImpl) (req : IncomingRequest) : Decidable (srv.Admits req) :=
  inferInstanceAs (Decidable (_ ∧ _ ∧ _ ∧ _ ∧ _))

/-- The answers of `HandleRequest` itself: a bare status, never UNKNOWN, or an HTTP status. -/
inductive Rejection : Nat → HeaderMap → Prop
  | status (s : Status) (hs : s.code ≠ .unknown) : Rejection 200 (buildTrailers s [] [])
  | http (statusCode : Nat) : Rejection statusCode []

/-- **`HandleRequest` answers by itself exactly what it does not admit.** -/
theorem handleRequest_answered {srv : ServerImpl} {req : IncomingRequest} {code : Nat}
    {headers : HeaderMap} (h : srv.handleRequest req = .answered code headers) :
    ¬ srv.Admits req ∧ Rejection code headers := by
  unfold handleRequest at h
  dsimp only at h
  split at h
  · -- `shutdown_` is set
    rename_i hs
    cases h
    exact ⟨fun ha => (by rw [ha.1] at hs; cases hs), .status _ (by decide)⟩
  split at h
  · rename_i hm
    cases h
    exact ⟨fun ha => hm ha.2.1, .http _⟩
  split at h
  · rename_i hc
    cases h
    exact ⟨fun ha => (by rw [ha.2.2.1] at hc; cases hc), .http _⟩
  split at h
  · rename_i ht
    cases h
    exact ⟨fun ha => (by rw [ha.2.2.2.1] at ht; cases ht), .status _ (by decide)⟩
  split at h
  · cases h
  split at h
  · cases h
  split at h
  · cases h
  split at h
  · cases h
  · -- no table of handlers has the path
    rename_i h1 h2 h3 h4
    cases h
    refine ⟨fun ha => ?_, .status _ (by simp [unknownMethod, Status.of])⟩
    have hpath := ha.2.2.2.2
    simp only [hasHandler, Bool.or_eq_true] at hpath
    rcases hpath with ((hpath | hpath) | hpath) | hpath
    · exact h1 hpath
    · exact h2 hpath
    · exact h3 hpath
    · exact h4 hpath

/-- What it admits goes to a call state. -/
theorem admits_of_handleRequest {srv : ServerImpl} {req : IncomingRequest}
    (h : ∀ code headers, srv.handleRequest req ≠ .answered code headers) : srv.Admits req := by
  unfold handleRequest at h
  dsimp only at h
  split at h
  · exact absurd rfl (h _ _)
  rename_i hs
  split at h
  · exact absurd rfl (h _ _)
  rename_i hm
  split at h
  · exact absurd rfl (h _ _)
  rename_i hc
  split at h
  · exact absurd rfl (h _ _)
  rename_i ht
  refine ⟨by simpa using hs, by simpa using hm, by simpa using hc, by simpa using ht, ?_⟩
  simp only [hasHandler, Bool.or_eq_true]
  split at h
  · rename_i hp
    exact Or.inl (Or.inl (Or.inl hp))
  split at h
  · rename_i hp
    exact Or.inl (Or.inl (Or.inr hp))
  split at h
  · rename_i hp
    exact Or.inl (Or.inr hp)
  split at h
  · rename_i hp
    exact Or.inr hp
  · exact absurd rfl (h _ _)

end ServerImpl

end Rpcpio.Server
